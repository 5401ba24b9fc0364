import CustomResource.Proofs.Client.Shelf
import CustomResource.Proofs.Demo.Requests
import CustomResource.Proofs.Program.Schedule

/-!
# Waiting for an instance to be processed

A wait reads the instance again and again, and does nothing else. What comes out can be told from
the answers alone: from the last one, if it shows the instance processed or is an error, and else
nothing has come of the wait until its deadline. This holds for answers that take any time, and also
for those that arrive at or after the deadline, which do not count.

## Main definitions

* `Instances.settleWait`: what a wait comes to, by what its poll has yielded.
* `Instances.Waited`: the reads of a wait, and what it comes to.

## Main results

* `Instances.waited_waitProcessed`: what a wait does, in every world that keeps time.
* `Instances.wait_follows_reads`: and with every script of answers, by the record of the world.
-/

namespace CustomResource.Instances

open Demo (processed? processed?_eq_some_iff processed?_eq_none_iff checkProcessed)

variable {k : Kind} {σ : Type} {clock : σ → Duration} {meaning : Meaning σ}

/-! ### What a wait comes to -/

/-- What a wait comes to, by what its poll has yielded. -/
def settleWait (name : String) (p : Poll) :
    Except Error (Option (Object k)) → Except Error (Object k)
  | .ok (some o) => .ok o
  | .ok none => .error (.notProcessed name p.timeout)
  | .error e => .error e

theorem settleWait_eq_ok_iff {name : String} {p : Poll} {found : Except Error (Option (Object k))}
    {o : Object k} : settleWait name p found = .ok o ↔ found = .ok (some o) := by
  rcases found with e | (_ | o') <;> simp [settleWait]

theorem settleWait_eq_request_iff {name : String} {p : Poll}
    {found : Except Error (Option (Object k))} {fault : Api.Error} :
    settleWait name p found = .error (.request fault) ↔ found = .error (.request fault) := by
  rcases found with e | (_ | o') <;> simp [settleWait]

/-- A wait fails for lack of time if nothing has been found, and not because its poll has. -/
theorem settleWait_eq_notProcessed_iff {name : String} {p : Poll}
    {found : Except Error (Option (Object k))}
    (h : found ≠ .error (.notProcessed name p.timeout)) :
    settleWait name p found = .error (.notProcessed name p.timeout) ↔ found = .ok none := by
  rcases found with e | (_ | o)
  · simpa [settleWait] using h
  · simp [settleWait]
  · simp [settleWait]

theorem run_waitProcessed (c : Instances k) (name : String) (p : Poll) :
    (c.waitProcessed name p).run =
      Program.log .info ("waiting for " ++ k.name ++ " " ++ name ++ " to be processed") >>= fun _ =>
        (p.untilSome fun _ => checkProcessed c name).run >>= fun found =>
          pure (settleWait name p found) := by
  rw [Demo.waitProcessed_eq, Program.run_lift_bind, ExceptT.run_bind]
  refine congrArg (_ >>= ·) (funext fun _ => congrArg (_ >>= ·) (funext fun found => ?_))
  rcases found with e | (_ | o) <;> rfl

/-- The reads of a wait that has begun at an instant, and what it comes to. The reads follow one
another, and all are sent before the deadline; they have an answer if it arrives before the deadline
too. All answers but the last show the instance as not processed. If the last one shows it as
processed, this is what the wait yields, and if it is an error, so is the result. The wait fails for
lack of time exactly if no answer is an error or shows the instance as processed. -/
structure Waited (c : Instances k) (name : String) (p : Poll) (start : Duration)
    (reads : List Exchange) (result : Except Error (Object k)) : Prop where
  asked : ∀ e ∈ reads, e.request = .read c.endpoint name
  inTime : ∀ e ∈ reads, start ≤ e.sent ∧ e.sent < start + p.timeout ∧
    (e.answer.isSome ↔ e.closed < start + p.timeout)
  oneByOne : reads.Pairwise fun e e' => e.closed ≤ e'.sent
  idle : p.timeout = .zero → reads = []
  earlier : ∀ e ∈ reads.dropLast, ∃ o,
    e.outcome (Answer.decode (Object.decode k)) = some (.ok o) ∧ o.state? ≠ some .processed
  found : ∀ o, result = .ok o ↔ ∃ e, reads.getLast? = some e ∧
    e.outcome (Answer.decode (Object.decode k)) = some (.ok o) ∧ o.state? = some .processed
  failed : ∀ fault, result = .error (.request fault) ↔ ∃ e, reads.getLast? = some e ∧
    e.outcome (Answer.decode (Object.decode k)) = some (.error fault)
  timedOut : result = .error (.notProcessed name p.timeout) ↔
    ∀ e ∈ reads, ∀ answered, e.outcome (Answer.decode (Object.decode k)) = some answered →
      ∃ o, answered = .ok o ∧ o.state? ≠ some .processed
  nothingElse : ∀ error, result = .error error →
    error = .notProcessed name p.timeout ∨ ∃ fault, error = .request fault

/-- What a poll finds settles a wait. -/
theorem Waited.of_polled {c : Instances k} {name : String}
    (hsendable : (Request.read c.endpoint name).check = .ok ()) {p : Poll} {start : Duration}
    {reads : List Exchange} {found : Except Error (Option (Object k))}
    (h : Poll.Polled (.read c.endpoint name) (Answer.decode (Object.decode k)) processed?
      (start + p.timeout).ceilMillis reads found)
    (horder : reads.Pairwise fun e e' => e.closed ≤ e'.sent) (hstart : ∀ e ∈ reads, start ≤ e.sent)
    (hwhole : ∀ e ∈ reads, e.sent.IsWhole ∧ e.closed.IsWhole) :
    Waited c name p start reads (settleWait name p found) where
  asked e he := (h.asked e he).1
  inTime e he := by
    have hasked := (h.asked e he).2
    rw [(hwhole e he).1.lt_ceilMillis_iff, (hwhole e he).2.lt_ceilMillis_iff] at hasked
    exact ⟨hstart e he, hasked⟩
  oneByOne := horder
  idle hzero := by
    refine List.eq_nil_iff_forall_not_mem.mpr fun e he => ?_
    have hsent := (hwhole e he).1.lt_ceilMillis_iff.mp (h.asked e he).2.1
    rw [hzero] at hsent
    exact Nat.not_lt.mpr (hstart e he) hsent
  earlier e he := by
    simpa only [processed?_eq_none_iff] using h.undecided_outcome e he
  found o := by
    rw [settleWait_eq_ok_iff, h.outcome_eq_found_iff hsendable]
    constructor
    · rintro ⟨e, o', hlast, houtcome, haccept⟩
      obtain ⟨rfl, hprocessed⟩ := processed?_eq_some_iff.mp haccept
      exact ⟨e, hlast, houtcome, hprocessed⟩
    · rintro ⟨e, hlast, houtcome, hprocessed⟩
      exact ⟨e, o, hlast, houtcome, processed?_eq_some_iff.mpr ⟨rfl, hprocessed⟩⟩
  failed fault := by
    rw [settleWait_eq_request_iff, h.outcome_eq_error_iff hsendable]
    simp
  timedOut := by
    have hnone := h.outcome_eq_none_iff hsendable
    simp only [processed?_eq_none_iff] at hnone
    rw [← hnone]
    refine settleWait_eq_notProcessed_iff fun hfailed => ?_
    obtain ⟨e, fault, -, -, hfault⟩ := (h.outcome_eq_error_iff hsendable).mp hfailed
    cases hfault
  nothingElse error herror := by
    rcases found with e | (_ | o)
    · obtain ⟨-, fault, -, -, rfl⟩ := (h.outcome_eq_error_iff hsendable).mp rfl
      exact .inr ⟨fault, (Except.error.inj herror).symm⟩
    · exact .inl (Except.error.inj herror).symm
    · cases herror

/-- **What a wait does**, in every world that keeps time. -/
theorem waited_waitProcessed (htimed : meaning.Timed clock) (h : meaning.Punctual clock)
    (hrounded : meaning.Rounded clock) (c : Instances k) {name : String}
    (hsendable : (Request.read c.endpoint name).check = .ok ()) (p : Poll) (s : σ) :
    Waited c name p (clock s) ((c.waitProcessed name p).run.exchanges clock meaning s)
      ((c.waitProcessed name p).run.run meaning s).1 := by
  rw [run_waitProcessed, Program.exchanges_bind, Program.exchanges_log, List.nil_append,
    Program.exchanges_bind, Program.exchanges_pure, List.append_nil, Program.run_bind,
    Program.run_bind, Program.run_pure]
  have hlogged : clock ((Program.log .info ("waiting for " ++ k.name ++ " " ++ name ++
      " to be processed")).run meaning s).2 = clock s := htimed.log _ _ s
  generalize ((Program.log .info ("waiting for " ++ k.name ++ " " ++ name ++
    " to be processed")).run meaning s).2 = logged at hlogged ⊢
  have hcalls := fun _ : Nat => Demo.calls_checkProcessed (k := k) c.scope name
  have hpolled := p.polled_untilSome htimed hcalls logged
  obtain ⟨horder, hstart⟩ :=
    Program.exchanges_oneByOne htimed (p.untilSome fun _ => checkProcessed c name).run logged
  rw [hlogged] at hpolled hstart
  exact .of_polled hsendable hpolled horder hstart
    (p.isWhole_untilSome htimed h hrounded hcalls hsendable logged)

/-- **A wait follows the answers to its reads.** For every script of answers, from whatever instant
on, the requests that a wait adds to the record of the world are reads of the instance, one after
the other and all before the deadline, and the answers that arrive before the deadline settle what
comes out. Names and namespaces that stand for themselves in a path can be asked for, unless they
are too long for one. -/
theorem wait_follows_reads (c : Instances k) {name : String}
    (hsendable : (Request.read c.endpoint name).check = .ok ()) (p : Poll) (w : World) :
    (w.execute (c.waitProcessed name p).run).2.requests = w.requests ++
        ((c.waitProcessed name p).run.exchanges World.clock World.perform w).map
          (fun e => (e.request, e.sent)) ∧
      Waited c name p w.clock ((c.waitProcessed name p).run.exchanges World.clock World.perform w)
        (w.execute (c.waitProcessed name p).run).1 :=
  ⟨w.requests_execute _,
    waited_waitProcessed World.timed World.punctual World.rounded c hsendable p w⟩

/-- The shortest text from which a sample in some state is read. -/
def shownIn (state : String) : Json :=
  .array [.object [], .array [.string "", .bool true], .array [.string state]]

/-- A world in which the instance is shown as processed to the second read, after a while. -/
def patience : World :=
  .start [Demo.prompt 200 (shownIn "Pending"),
    { Demo.prompt 200 (shownIn "Processed") with delay := .ofMillis 14 }]

theorem wait_follows_reads_patience :
    (Request.read samples.endpoint "x").check = .ok () ∧
      (patience.execute (samples.waitProcessed "x" .instanceProcessed).run).1.toOption.bind
        (·.state?) = some .processed ∧
      (patience.execute (samples.waitProcessed "x" .instanceProcessed).run).2.requests =
        patience.requests ++
          ((samples.waitProcessed "x" .instanceProcessed).run.exchanges World.clock World.perform
            patience).map (fun e => (e.request, e.sent)) ∧
      Waited samples "x" .instanceProcessed patience.clock
        ((samples.waitProcessed "x" .instanceProcessed).run.exchanges World.clock World.perform
          patience)
        (patience.execute (samples.waitProcessed "x" .instanceProcessed).run).1 := by
  have hsendable : (Request.read samples.endpoint "x").check = .ok () :=
    reaches_samples.check_item (.inr rfl) rfl
  have hfound :
      (patience.execute (samples.waitProcessed "x" .instanceProcessed).run).1.toOption.bind
        (·.state?) = some .processed := by
    decide +kernel
  exact ⟨hsendable, hfound, wait_follows_reads samples hsendable .instanceProcessed patience⟩

end CustomResource.Instances

import CustomResource.Proofs.Client.Registration
import CustomResource.Proofs.Simulation.World

/-!
# What comes of a registration

The ways in which a registration can go, read the other way round: from what was answered to the
creation, to the last read and to the deletion one can tell which requests have been sent and what
comes out. So no answer, however late or wrong, leads to a second deletion, to one of an established
definition, or to a cause that is lost.

## Main definitions

* `Definitions.Refused`, `Definitions.FoundEstablished`: the answers that settle a registration.
* `Definitions.waitFailure`: what made a cleanup necessary.
* `Definitions.Outcome`: what can be told from the answers.

## Main results

* `Definitions.Registration.outcome`: it can be told of every registration.
* `Definitions.register_follows_answers`: it can be told of the definition of every kind, whatever
  is answered.
-/

namespace CustomResource.Definitions

/-! ### The answers that count -/

/-- The creation has failed, and not because the definition exists. -/
def Refused (posted : Exchange) (e : Api.Error) : Prop :=
  posted.outcome (Answer.decode Definition.decode) = some (.error e) ∧
    (Error.request e).isAlreadyExists = false

/-- The answer to the last read came in time, and the definition in it is established. -/
def FoundEstablished (deadline : Duration) (reads : List Exchange) (c : Definition) : Prop :=
  ∃ read, reads.getLast? = some read ∧ read.closed < deadline ∧
    read.outcome (Answer.decode Definition.decode) = some (.ok c) ∧ c.readiness = .established

theorem FoundEstablished.ne_nil {deadline : Duration} {reads : List Exchange} {c : Definition}
    (h : FoundEstablished deadline reads c) : reads ≠ [] := by
  rintro rfl
  obtain ⟨read, hlast, -⟩ := h
  simp at hlast

/-- What made a cleanup necessary: the error of the last read, if it failed in time, or else that
the definition was not established in time. -/
def waitFailure (name : String) (timeout : Duration) (reads : List Exchange) : Error :=
  match reads.getLast?.bind (Exchange.outcome (Answer.decode Definition.decode)) with
  | some (.error e) => .request e
  | _ => .notEstablished name timeout

/-- What can be told from the answers of a registration: what has been requested, and what comes
out. A read has an answer if this came in time. -/
structure Outcome (d : Definition) (p : Poll) (posted : Exchange) (reads removal : List Exchange)
    (outcome : Except Error Definition) : Prop where
  creates : posted.request = .create .definitions d.encode
  waits : ∀ e ∈ reads, e.request = .read .definitions d.name ∧
    e.sent < (posted.closed + p.timeout).ceilMillis ∧
    (e.answer.isSome ↔ e.closed < (posted.closed + p.timeout).ceilMillis)
  stops : reads = [] ∧ removal = [] ↔ ∃ e, Refused posted e
  refused : ∀ e, Refused posted e → outcome = .error (.request e)
  established : (¬ ∃ e, Refused posted e) → ∀ c, outcome = .ok c ↔
    FoundEstablished (posted.closed + p.timeout).ceilMillis reads c
  kept : ∀ c, outcome = .ok c → removal = []
  removed : (¬ ∃ e, Refused posted e) → (¬ ∃ c, outcome = .ok c) → ∃ deleted result,
    removal = [deleted] ∧
    deleted.request = .delete .definitions d.name (DeleteParams.encode {}) ∧
    deleted.outcome (Deletion.decode Definition.decode) = some result ∧
    outcome = .error (match result with
      | .ok () => waitFailure d.name p.timeout reads
      | .error e =>
        if e.isNotFound then waitFailure d.name p.timeout reads
        else .cleanup d.name (waitFailure d.name p.timeout reads) e)

/-! ### Every registration -/

theorem Accepted.not_refused {d : Definition} {posted : Exchange} (h : Accepted d posted) :
    ¬ ∃ e, Refused posted e := by
  rintro ⟨e, hanswer, hother⟩
  obtain ⟨-, outcome, houtcome, hsettled⟩ := h
  obtain rfl : outcome = .error e := Option.some.inj (houtcome.symm.trans hanswer)
  simp [settleCreation, hother] at hsettled

theorem cleanupError_settleDeletion (name : String) (cause : Error)
    (result : Except Api.Error Unit) : cleanupError name cause (settleDeletion result) =
      match result with
      | .ok () => cause
      | .error e => if e.isNotFound then cause else .cleanup name cause e := by
  cases result with
  | ok u => rfl
  | error e =>
    simp only [settleDeletion]
    split <;> rfl

theorem established?_eq_some_iff {d c : Definition} :
    d.established? = some c ↔ d = c ∧ d.readiness = .established := by
  rw [Definition.established?]
  split <;> simp_all

theorem waitFailure?_judge {name : String} {p : Poll} {a : Answer} {cause : Error}
    (h : waitFailure? name p (Poll.judge (Answer.decode Definition.decode)
      Definition.established? a) = some cause) :
    cause = match some (Answer.decode Definition.decode a) with
      | some (.error e) => .request e
      | _ => .notEstablished name p.timeout := by
  rw [Poll.judge] at h
  cases hread : Answer.decode Definition.decode a with
  | error e => simpa [hread, Except.mapError, Except.map, waitFailure?] using h.symm
  | ok current =>
    simp only [hread, Except.mapError, Except.map] at h
    cases hready : Definition.established? current with
    | none => simpa [hready, waitFailure?] using h.symm
    | some c => simp [hready, waitFailure?] at h

section Waiting

variable {d : Definition} {p : Poll} {deadline : Duration} {reads : List Exchange}
  {found : Except Error (Option Definition)}

/-- A poll yields just what the last read has found established in time. -/
theorem foundEstablished_iff (hname : Definition.IsPlainName d.name)
    (h : Poll.Polled (.read .definitions d.name) (Answer.decode Definition.decode)
      Definition.established? deadline reads found) {c : Definition} :
    found = .ok (some c) ↔ FoundEstablished deadline reads c := by
  rw [h.outcome_eq_found_iff (Request.check_read_definition hname)]
  constructor
  · rintro ⟨last, b, hlast, houtcome, haccept⟩
    obtain ⟨rfl, hready⟩ := established?_eq_some_iff.mp haccept
    obtain ⟨a, hanswer, -⟩ := Option.map_eq_some_iff.mp houtcome
    have hclosed : last.closed < deadline :=
      (h.asked last (List.mem_of_getLast? hlast)).2.2.mp (by rw [hanswer]; rfl)
    exact ⟨last, hlast, hclosed, houtcome, hready⟩
  · rintro ⟨last, hlast, -, houtcome, hready⟩
    exact ⟨last, c, hlast, houtcome, established?_eq_some_iff.mpr ⟨rfl, hready⟩⟩

/-- What makes a cleanup necessary is told by the last read. -/
theorem eq_waitFailure (hname : Definition.IsPlainName d.name)
    (h : Poll.Polled (.read .definitions d.name) (Answer.decode Definition.decode)
      Definition.established? deadline reads found) {cause : Error}
    (hcause : waitFailure? d.name p found = some cause) :
    cause = waitFailure d.name p.timeout reads := by
  rw [h.decided (Request.check_read_definition hname), Poll.verdict] at hcause
  rw [waitFailure]
  cases hlast : reads.getLast? with
  | none => simpa [hlast, waitFailure?] using hcause.symm
  | some last =>
    cases hanswer : last.answer with
    | none => simpa [hlast, hanswer, waitFailure?, Exchange.outcome] using hcause.symm
    | some a =>
      simp only [hlast, hanswer, Option.bind_some, Exchange.outcome, Option.map_some] at hcause ⊢
      exact waitFailure?_judge hcause

end Waiting

variable {d : Definition} {p : Poll}

/-- **Every registration** can be told from its answers. -/
theorem Registration.outcome (hname : Definition.IsPlainName d.name) {exchanges : List Exchange}
    {outcome : Except Error Definition} (h : Registration d p exchanges outcome) :
    ∃ posted reads removal, exchanges = posted :: (reads ++ removal) ∧
      Outcome d p posted reads removal outcome := by
  cases h with
  | @refused posted e asked answered other =>
    have hrefused : Refused posted e := ⟨answered, other⟩
    refine ⟨posted, [], [], rfl, asked, by simp, ?_, ?_, ?_, ?_, ?_⟩
    · exact ⟨fun _ => ⟨e, hrefused⟩, fun _ => ⟨rfl, rfl⟩⟩
    · rintro e' ⟨hanswer, -⟩
      rw [Except.error.inj (Option.some.inj (hanswer.symm.trans answered))]
    · exact fun h => absurd ⟨e, hrefused⟩ h
    · exact fun _ _ => rfl
    · exact fun h => absurd ⟨e, hrefused⟩ h
  | @established posted reads c accepted polled =>
    have hfound := (foundEstablished_iff hname polled).mp rfl
    refine ⟨posted, reads, [], by simp, accepted.1, polled.asked, ?_, ?_, ?_, ?_, ?_⟩
    · simpa [hfound.ne_nil] using accepted.not_refused
    · exact fun e he => absurd ⟨e, he⟩ accepted.not_refused
    · intro _ c'
      rw [← foundEstablished_iff hname polled]
      simp
    · exact fun _ _ => rfl
    · exact fun _ h => absurd ⟨c, rfl⟩ h
  | @cleanedUp posted removal reads found cause result accepted polled failed asked answered =>
    refine ⟨posted, reads, [removal], rfl, accepted.1, polled.asked, ?_, ?_, ?_, ?_, ?_⟩
    · simpa using accepted.not_refused
    · exact fun e he => absurd ⟨e, he⟩ accepted.not_refused
    · intro _ c
      rw [← foundEstablished_iff hname polled]
      constructor
      · simp
      · rintro rfl
        simp [waitFailure?] at failed
    · simp
    · intro _ _
      refine ⟨removal, result, rfl, asked, answered, ?_⟩
      rw [cleanupError_settleDeletion, eq_waitFailure hname polled failed]

/-- **Registrations follow the answers.** -/
theorem register_follows_answers (k : Kind) (p : Poll) (w : World) :
    ∃ posted reads removal,
      (register k.definition p).run.exchanges World.clock World.perform w =
        posted :: (reads ++ removal) ∧
      (w.execute (register k.definition p).run).2.requests = w.requests ++
        (posted :: (reads ++ removal)).map (fun e => (e.request, e.sent)) ∧
      Outcome k.definition p posted reads removal
        (w.execute (register k.definition p).run).1 := by
  have hname : Definition.IsPlainName k.definition.name := k.isPlainName_definitionName
  obtain ⟨posted, reads, removal, hexchanges, houtcome⟩ :=
    (registration_register World.timed k.definition hname p w).outcome hname
  refine ⟨posted, reads, removal, hexchanges, ?_, houtcome⟩
  rw [← hexchanges]
  exact World.requests_execute _ w

end CustomResource.Definitions

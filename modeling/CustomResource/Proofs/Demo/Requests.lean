import CustomResource.Demo.Walkthrough
import CustomResource.Proofs.Client.Registration
import CustomResource.Proofs.Simulation.World

/-!
# What the demonstration asks

The demonstration registers a definition, walks an instance through, and removes the definition
again. Whatever is answered, and whatever the controller does beside it, the walkthrough is only
begun once the definition is registered, and the definition is then removed however the walkthrough
has gone, unless it is to be kept.

## Main definitions

* `Demo.Walked`: what a walkthrough exchanges and how it ends.
* `Demo.Course`: what the whole demonstration exchanges and how it ends.

## Main results

* `Demo.course_run`: this is what a demonstration does.
-/

namespace CustomResource.Demo

variable {k : Kind} {α β σ : Type} {clock : σ → Duration} {meaning : Meaning σ}

/-! ### Stages -/

theorem mapError_eq_ok {ε ε' : Type} {outcome : Except ε α} {f : ε → ε'} {value : α} :
    outcome.mapError f = .ok value ↔ outcome = .ok value := by
  cases outcome <;> simp [Except.mapError]

theorem Stage.run_attempt_bind (stage : Stage α) (next : Except Failure α → Stage β) :
    (stage.attempt >>= next).run = stage.run >>= fun outcome => (next outcome).run := by
  have hattempt : stage.attempt.run = stage.run >>= fun outcome => pure (Except.ok outcome) := rfl
  rw [ExceptT.run_bind, hattempt, bind_assoc]
  rfl

theorem Stage.exchanges_ofTask (doing : Option String) (task : Task α) (s : σ) :
    (Stage.ofTask doing task).run.exchanges clock meaning s =
      task.run.exchanges clock meaning s := by
  change (task.run >>= fun outcome =>
    (pure (outcome.mapError (Failure.error doing)) : Program _)).exchanges clock meaning s = _
  rw [Program.exchanges_bind, Program.exchanges_pure, List.append_nil]

theorem Stage.run_ofTask (doing : Option String) (task : Task α) (s : σ) :
    ((Stage.ofTask doing task).run.run meaning s).1 =
      (task.run.run meaning s).1.mapError (.error doing) := by
  change ((task.run >>= fun outcome =>
    (pure (outcome.mapError (Failure.error doing)) : Program _)).run meaning s).1 = _
  rw [Program.run_bind, Program.run_pure]

theorem Stage.meets_ofTask {doing : Option String} {task : Task α}
    {described : List Exchange → Except Error α → Prop}
    (h : task.run.Meets clock meaning described) :
    (Stage.ofTask doing task).run.Meets clock meaning fun exchanges outcome =>
      ∃ outcome', described exchanges outcome' ∧ outcome = outcome'.mapError (.error doing) := by
  intro s
  rw [exchanges_ofTask, run_ofTask]
  exact ⟨_, h s, rfl⟩

theorem Stage.meets_attempt {stage : Stage α}
    {described : List Exchange → Except Failure α → Prop}
    (h : stage.run.Meets clock meaning described) :
    stage.attempt.run.Meets clock meaning fun exchanges outcome =>
      ∃ outcome', described exchanges outcome' ∧ outcome = .ok outcome' :=
  h.bind (fun _ => Program.Meets.pure _) fun exchanges outcome _ _ hdescribed h => by
    obtain ⟨rfl, rfl⟩ := h
    exact ⟨outcome, (List.append_nil exchanges).symm ▸ hdescribed, rfl⟩

theorem Stage.calls_ofTask {doing : Option String} {task : Task α} {β : Type} {r : Request}
    {read : Answer → Except Api.Error β} {settle : Except Api.Error β → Except Error α}
    (h : task.run.Calls r read settle) : (Stage.ofTask doing task).run.Calls r read
      fun outcome => (settle outcome).mapError (.error doing) :=
  h.bind fun _ => .done _

/-! ### The instance -/

/-- What a creation of the instance is, after what was understood of the answer. -/
def settleInstance : Except Api.Error (Object k) → Except Failure Unit
  | .ok _ => .ok ()
  | .error e =>
    if (Error.request e).isAlreadyExists then .ok ()
    else .error (.error (some "creating instance") (.request e))

theorem calls_createInstance (scope : String) (o : Object k) :
    (createInstance ⟨scope⟩ o).run.Calls (.create (.instances k scope) o.encode)
      (Answer.decode (Object.decode k)) settleInstance := by
  rw [createInstance, ExceptT.run_bind]
  refine (Stage.calls_ofTask (Program.Calls.call _ _).attempt).bind fun outcome => ?_
  cases outcome with
  | ok created => exact .log (.done _)
  | error e =>
    by_cases hexists : (Error.request e).isAlreadyExists = true
    · simp only [settleInstance, Except.mapError, if_pos hexists]
      exact .log (.done _)
    · simp only [settleInstance, Except.mapError, if_neg hexists]
      exact .done _

/-- An instance that is read is accepted once it is processed. -/
def processed? (o : Object k) : Option (Object k) :=
  if o.state? = some .processed then some o else none

theorem processed?_eq_some_iff {o o' : Object k} :
    processed? o = some o' ↔ o = o' ∧ o.state? = some .processed := by
  rw [processed?]
  split <;> simp_all

theorem processed?_eq_none_iff {o : Object k} :
    processed? o = none ↔ o.state? ≠ some .processed := by
  simp [processed?]

/-- Reads an instance, and yields it if it is processed. -/
def checkProcessed (c : Instances k) (name : String) : Task (Option (Object k)) := do
  let o ← c.get name
  return processed? o

theorem waitProcessed_eq (c : Instances k) (name : String) (p : Poll) :
    c.waitProcessed name p = (do
      Program.log .info ("waiting for " ++ k.name ++ " " ++ name ++ " to be processed")
      let found ← p.untilSome fun _ => checkProcessed c name
      match found with
      | some o => return o
      | none => throw (.notProcessed name p.timeout)) := rfl

theorem calls_checkProcessed (scope name : String) :
    (checkProcessed (⟨scope⟩ : Instances k) name).run.Calls (.read (.instances k scope) name)
      (Answer.decode (Object.decode k))
      fun outcome => (outcome.mapError .request).map processed? := by
  rw [checkProcessed, ExceptT.run_bind]
  refine (Program.Calls.call _ _).bind fun outcome => ?_
  cases outcome with
  | error e => exact .done _
  | ok o => exact .done _

/-- The reads of an instance, one of which has found it processed if anything is found. -/
def Sought (k : Kind) (scope name : String) (reads : List Exchange)
    (found : Except Error (Option (Object k))) : Prop :=
  (∀ e ∈ reads, e.request = .read (.instances k scope) name) ∧
  ∀ o, found = .ok (some o) → ∃ e ∈ reads,
    e.outcome (Answer.decode (Object.decode k)) = some (.ok o) ∧ o.state? = some .processed

theorem meets_untilProcessed (h : meaning.Timed clock) (scope name : String) (p : Poll) :
    (p.untilSome fun _ => checkProcessed (⟨scope⟩ : Instances k) name).run.Meets clock meaning
      (Sought k scope name) := by
  intro s
  have hpolled := p.polled_untilSome h
    (fun _ => calls_checkProcessed (k := k) scope name) s
  refine ⟨fun e he => (hpolled.asked e he).1, fun o ho => ?_⟩
  rw [ho] at hpolled
  obtain ⟨e, o', hlast, houtcome, haccept⟩ := hpolled.exists_of_found
  obtain ⟨rfl, hprocessed⟩ := processed?_eq_some_iff.mp haccept
  exact ⟨e, List.mem_of_getLast? hlast, houtcome, hprocessed⟩

/-- What a wait for an instance exchanges, and what it yields: an instance that has been read and is
processed. -/
def Awaited {ε : Type} (k : Kind) (scope name : String) (reads : List Exchange)
    (outcome : Except ε (Object k)) : Prop :=
  (∀ e ∈ reads, e.request = .read (.instances k scope) name) ∧
  ∀ o, outcome = .ok o → ∃ e ∈ reads,
    e.outcome (Answer.decode (Object.decode k)) = some (.ok o) ∧ o.state? = some .processed

theorem meets_waitProcessed (h : meaning.Timed clock) (scope name : String) (p : Poll) :
    ((⟨scope⟩ : Instances k).waitProcessed name p).run.Meets clock meaning
      (Awaited k scope name) := by
  rw [waitProcessed_eq]
  refine Program.Meets.bind_silent (Program.silent_log _ _) fun _ => ?_
  refine Program.Meets.bind_except (meets_untilProcessed h scope name p)
    (fun found exchanges outcome => exchanges = [] ∧ ∀ o, outcome = .ok o → found = some o)
    (fun found => ?_) ?_ ?_
  · cases found with
    | none => exact fun s => ⟨rfl, fun o ho => by simp at ho⟩
    | some o' => exact fun s => ⟨rfl, fun o ho => congrArg some (Except.ok.inj ho)⟩
  · rintro reads e ⟨hasked, -⟩
    exact ⟨hasked, by simp⟩
  · rintro reads found _ outcome ⟨hasked, hfound⟩ ⟨rfl, hvalue⟩
    rw [List.append_nil]
    exact ⟨hasked, fun o ho => hfound o (congrArg Except.ok (hvalue o ho))⟩

theorem calls_list (scope : String) :
    (Stage.ofTask none ((⟨scope⟩ : Instances k).list {})).run.Calls
      (.list (.instances k scope) ({} : ListParams).query)
      (Answer.decode (ObjectList.decode (Object.decode k)))
      fun outcome => (outcome.mapError .request).mapError (.error none) :=
  Stage.calls_ofTask (Program.Calls.call _ _)

/-! ### The walkthrough -/

/-- What has been answered to a walkthrough that ends well. -/
structure Completed (scope : String) (o : Object k) (walked : List Exchange) : Prop where
  created : ∃ e ∈ walked, e.request = .create (.instances k scope) o.encode ∧
    ((∃ created, e.outcome (Answer.decode (Object.decode k)) = some (.ok created)) ∨
      ∃ refusal, e.outcome (Answer.decode (Object.decode k)) = some (.error refusal) ∧
        (Error.request refusal).isAlreadyExists = true)
  processed : ∃ e ∈ walked, e.request = .read (.instances k scope) o.name ∧ ∃ found,
    e.outcome (Answer.decode (Object.decode k)) = some (.ok found) ∧
      found.state? = some .processed
  listed : ∃ e ∈ walked, e.request = .list (.instances k scope) ({} : ListParams).query ∧ ∃ list,
    e.outcome (Answer.decode (ObjectList.decode (Object.decode k))) = some (.ok list)

/-- What a walkthrough exchanges, and how it ends. -/
structure Walked (scope : String) (o : Object k) (walked : List Exchange)
    (outcome : Except Failure Unit) : Prop where
  asked : ∃ m, walked.map (·.request) <+: .create (.instances k scope) o.encode ::
    (List.replicate m (.read (.instances k scope) o.name) ++
      [.list (.instances k scope) ({} : ListParams).query])
  completed : outcome = .ok () → Completed scope o walked

/-- What is exchanged once the instance is processed, and how it ends. -/
def Listed (k : Kind) (scope : String) (listed : List Exchange) (outcome : Except Failure Unit) :
    Prop :=
  (listed = [] ∨ ∃ e, listed = [e] ∧
    e.request = .list (.instances k scope) ({} : ListParams).query) ∧
  (outcome = .ok () → ∃ e ∈ listed, ∃ list,
    e.outcome (Answer.decode (ObjectList.decode (Object.decode k))) = some (.ok list))

/-- What is exchanged once the instance is created, and how it ends. -/
def Followed (scope : String) (o : Object k) (exchanges : List Exchange)
    (outcome : Except Failure Unit) : Prop :=
  ∃ reads listed, exchanges = reads ++ listed ∧
    (∀ e ∈ reads, e.request = .read (.instances k scope) o.name) ∧
    (outcome = .ok () → ∃ e ∈ reads, ∃ found,
      e.outcome (Answer.decode (Object.decode k)) = some (.ok found) ∧
        found.state? = some .processed) ∧
    Listed k scope listed outcome

/-! ### Its parts -/

theorem settled_of_created {posted : Exchange} {answered : Except Api.Error (Object k)}
    (hanswered : posted.outcome (Answer.decode (Object.decode k)) = some answered)
    (hcreated : settleInstance answered = .ok ()) :
    (∃ created, posted.outcome (Answer.decode (Object.decode k)) = some (.ok created)) ∨
      ∃ refusal, posted.outcome (Answer.decode (Object.decode k)) = some (.error refusal) ∧
        (Error.request refusal).isAlreadyExists = true := by
  cases answered with
  | ok created => exact Or.inl ⟨created, hanswered⟩
  | error refusal =>
    refine Or.inr ⟨refusal, hanswered, ?_⟩
    rw [settleInstance] at hcreated
    split at hcreated
    · assumption
    · simp at hcreated

theorem walked_of_followed {scope : String} {o : Object k} {posted : Exchange}
    (hasked : posted.request = .create (.instances k scope) o.encode)
    {answered : Except Api.Error (Object k)}
    (hanswered : posted.outcome (Answer.decode (Object.decode k)) = some answered)
    (hcreated : settleInstance answered = .ok ()) {exchanges : List Exchange}
    {outcome : Except Failure Unit} (h : Followed scope o exchanges outcome) :
    Walked scope o (posted :: exchanges) outcome := by
  obtain ⟨reads, listed, rfl, hreads, hprocessed, hlisted, hdone⟩ := h
  constructor
  · refine ⟨reads.length, ?_⟩
    rw [List.map_cons, List.map_append, hasked, Exchange.map_request_eq_replicate hreads,
      List.cons_prefix_cons, List.prefix_append_right_inj]
    obtain rfl | ⟨e, rfl, he⟩ := hlisted
    · exact ⟨rfl, List.nil_prefix⟩
    · exact ⟨rfl, by simp [he]⟩
  · intro hok
    obtain ⟨read, hread, found, hfound, hstate⟩ := hprocessed hok
    obtain ⟨e, he, list, hlist⟩ := hdone hok
    obtain rfl | ⟨e', rfl, hlistRequest⟩ := hlisted
    · simp at he
    obtain rfl := List.mem_singleton.mp he
    exact {
      created := ⟨posted, by simp, hasked, settled_of_created hanswered hcreated⟩
      processed := ⟨read, by simp [hread], hreads read hread, found, hfound, hstate⟩
      listed := ⟨e, by simp, hlistRequest, list, hlist⟩ }

section Parts

variable (h : meaning.Timed clock) (scope : String)

include h

/-- The list, before something that sends nothing. -/
theorem meets_list {rest : ObjectList (Object k) → Stage Unit}
    (hrest : ∀ list, (rest list).run.Performs Action.IsSilent) :
    (Stage.ofTask none ((⟨scope⟩ : Instances k).list {}) >>= rest).run.Meets clock meaning
      (Listed k scope) := by
  refine Program.Meets.bind_except ((calls_list scope).called h)
    (fun _ exchanges _ => exchanges = []) (fun list => .of_silent (hrest list)) ?_ ?_
  · rintro exchanges e (⟨-, -, rfl, -⟩ | ⟨listed, -, rfl, hasked, -, -⟩)
    · exact ⟨Or.inl rfl, by simp⟩
    · exact ⟨Or.inr ⟨listed, rfl, hasked⟩, by simp⟩
  · rintro exchanges list _ outcome hcalled rfl
    rw [List.append_nil]
    obtain ⟨fault, -, -, hvalue⟩ | ⟨listed, answered, rfl, hasked, hanswered, hvalue⟩ := hcalled
    · simp [Except.mapError] at hvalue
    · refine ⟨Or.inr ⟨listed, rfl, hasked⟩, fun _ => ⟨listed, List.mem_singleton_self _, list, ?_⟩⟩
      rw [hanswered, mapError_eq_ok.mp (mapError_eq_ok.mp hvalue.symm)]

/-- The wait, before something that lists. -/
theorem meets_wait (o : Object k) (p : Poll) {rest : Object k → Stage Unit}
    (hrest : ∀ found, (rest found).run.Meets clock meaning (Listed k scope)) :
    (Stage.ofTask none ((⟨scope⟩ : Instances k).waitProcessed o.name p) >>= rest).run.Meets
      clock meaning (Followed scope o) := by
  refine Program.Meets.bind_except (Stage.meets_ofTask (meets_waitProcessed h scope o.name p))
    (fun _ => Listed k scope) hrest ?_ ?_
  · rintro reads e ⟨outcome, hawaited, -⟩
    exact ⟨reads, [], (List.append_nil reads).symm, hawaited.1, by simp, Or.inl rfl, by simp⟩
  · rintro reads found listed outcome ⟨outcome', hawaited, hvalue⟩ hlisted
    obtain rfl := mapError_eq_ok.mp hvalue.symm
    obtain ⟨e, he, houtcome, hprocessed⟩ := hawaited.2 found rfl
    exact ⟨reads, listed, rfl, hawaited.1, fun _ => ⟨e, he, found, houtcome, hprocessed⟩, hlisted⟩

/-- The creation, before something that waits and lists. -/
theorem meets_create (o : Object k) {rest : Unit → Stage Unit}
    (hrest : ∀ u, (rest u).run.Meets clock meaning (Followed scope o)) :
    (createInstance ⟨scope⟩ o >>= rest).run.Meets clock meaning (Walked scope o) := by
  refine Program.Meets.bind_except ((calls_createInstance scope o).called h)
    (fun _ => Followed scope o) hrest ?_ ?_
  · rintro exchanges e (⟨-, -, rfl, -⟩ | ⟨posted, -, rfl, hasked, -, -⟩)
    · exact ⟨⟨0, List.nil_prefix⟩, by simp⟩
    · exact ⟨⟨0, by simp [hasked]⟩, by simp⟩
  · rintro exchanges ⟨⟩ _ outcome hcalled hfollowed
    obtain ⟨fault, hr, -, hvalue⟩ | ⟨posted, answered, rfl, hasked, hanswered, hvalue⟩ := hcalled
    · obtain ⟨fault, rfl⟩ := Request.exists_fault_of_check hr
      simp [settleInstance, Error.isAlreadyExists, Error.code?, Api.Error.code?] at hvalue
    · exact walked_of_followed hasked hanswered hvalue.symm hfollowed

end Parts

theorem meets_steps (h : meaning.Timed clock) (scope : String) (linger : Nat) (o : Object k) :
    (steps scope linger o).run.Meets clock meaning (Walked scope o) := by
  rw [steps]
  refine meets_create h scope o fun _ => meets_wait h scope o _ fun found => ?_
  refine Program.Meets.bind_silent (Program.silent_log _ _) fun _ => ?_
  refine meets_list h scope fun list => ?_
  -- what is left: the number of objects, messages, a sleep, and the end of the controller
  refine .bind_except (.lift (.ofAction trivial)) fun cached => ?_
  refine .bind_except (Program.silent_log _ _).lift fun _ => ?_
  refine .bind_except (.forIn (fun item _ => ?_) _ _) fun _ => ?_
  · exact .bind_except (Program.silent_log _ _).lift fun _ => .done _
  refine .bind_except (Program.silent_log _ _).lift fun _ => ?_
  refine .bind_except (.lift ?_) fun _ => ?_
  · exact (Program.Performs.ofAction trivial).bind fun _ => .ofAction trivial
  refine .bind_except (.lift (.ofAction trivial)) fun _ => ?_
  refine .bind_except (.lift (.ofAction trivial)) fun ended => ?_
  cases ended <;> exact .done _

theorem meets_ofOutcome (outcome : Except Failure α) : (Stage.ofOutcome outcome).run.Meets clock
    meaning fun exchanges outcome' => exchanges = [] ∧ outcome' = outcome := .pure outcome

theorem meets_walkthrough (h : meaning.Timed clock) (scope : String) (linger : Nat)
    (o : Object k) : (walkthrough scope linger o).run.Meets clock meaning (Walked scope o) := by
  rw [walkthrough]
  refine Program.Meets.bind_silent ?_ fun _ => ?_
  · exact .ofAction trivial
  refine Program.Meets.bind_except (Stage.meets_attempt (meets_steps h scope linger o))
    (fun outcome exchanges outcome' => exchanges = [] ∧ outcome' = outcome) (fun outcome => ?_)
    (by simp) ?_
  · refine Program.Meets.bind_silent ?_ fun _ => meets_ofOutcome outcome
    exact .ofAction trivial
  · rintro walked outcome _ _ ⟨outcome', hwalked, hvalue⟩ ⟨rfl, rfl⟩
    obtain rfl := Except.ok.inj hvalue
    rwa [List.append_nil]

/-! ### The whole -/

theorem calls_remove (name : String) : (Stage.ofTask none (Definitions.remove name)).run.Calls
    (.delete .definitions name (DeleteParams.encode {})) (Deletion.decode Definition.decode)
    fun outcome =>
      ((Definitions.settleDeletion outcome).mapError .request).mapError (.error none) :=
  Stage.calls_ofTask (Definitions.calls_remove name)

/-- What is done once the definition is registered. -/
def finish (scope : String) (options : CommandLine) (o : Object k) (c : Definition) :
    Stage Unit := do
  let outcome ← (walkthrough scope options.linger o).attempt
  if options.keepDefinition then do
    Program.log .info ("leaving CRD " ++ c.name ++ " installed")
    Stage.ofOutcome outcome
  else do
    Program.log .info ("exit and clean " ++ c.name)
    Stage.ofTask none (Definitions.remove c.name)
    Stage.ofOutcome outcome

theorem run_eq (scope : String) (options : CommandLine) (o : Object k) :
    Demo.run scope options o = Stage.ofTask (some "registering CRD")
      (Definitions.register k.definition .definitionEstablished) >>= finish scope options o := rfl

theorem run_finish (scope : String) (options : CommandLine) (o : Object k) (c : Definition) :
    (finish scope options o c).run = (walkthrough scope options.linger o).run >>= fun outcome =>
      (if options.keepDefinition then do
        Program.log .info ("leaving CRD " ++ c.name ++ " installed")
        Stage.ofOutcome outcome
      else do
        Program.log .info ("exit and clean " ++ c.name)
        Stage.ofTask none (Definitions.remove c.name)
        Stage.ofOutcome outcome : Stage Unit).run := by
  rw [finish, Stage.run_attempt_bind]

/-- The deletion of a definition, as far as it is to be removed. -/
structure Removed (options : CommandLine) (c : Definition) (removal : List Exchange)
    (outcome : Except Failure Unit) : Prop where
  asked : removal.map (·.request) = if options.keepDefinition then []
    else [.delete .definitions c.name (DeleteParams.encode {})]
  completed : outcome = .ok () → options.keepDefinition = false → ∃ e ∈ removal,
    e.outcome (Deletion.decode Definition.decode) = some (.ok ()) ∨
      ∃ refusal, e.outcome (Deletion.decode Definition.decode) = some (.error refusal) ∧
        refusal.isNotFound = true

/-- What is exchanged once the definition is registered, and how it ends. -/
def Finished (scope : String) (options : CommandLine) (o : Object k) (c : Definition)
    (exchanges : List Exchange) (outcome : Except Failure Unit) : Prop :=
  ∃ walked removal outcome', exchanges = walked ++ removal ∧ Walked scope o walked outcome' ∧
    Removed options c removal outcome ∧ (outcome = .ok () → outcome' = .ok ())

theorem meets_finish (h : meaning.Timed clock) (scope : String) (options : CommandLine)
    (o : Object k) {c : Definition}
    (hname : (Request.delete .definitions c.name (DeleteParams.encode {})).check = .ok ()) :
    (finish scope options o c).run.Meets clock meaning (Finished scope options o c) := by
  rw [finish]
  refine Program.Meets.bind_except
    (Stage.meets_attempt (meets_walkthrough h scope options.linger o))
    (fun outcome removal outcome' => Removed options c removal outcome' ∧
      (outcome' = .ok () → outcome = .ok ())) (fun outcome => ?_) (by simp) ?_
  · cases hkeep : options.keepDefinition with
    | true =>
      rw [if_pos rfl]
      refine Program.Meets.bind_silent (Program.silent_log _ _) fun _ => ?_
      refine (meets_ofOutcome outcome).mono ?_
      rintro _ _ ⟨rfl, rfl⟩
      exact ⟨⟨by simp [hkeep], by simp [hkeep]⟩, id⟩
    | false =>
      rw [if_neg (by simp)]
      refine Program.Meets.bind_silent (Program.silent_log _ _) fun _ => ?_
      refine Program.Meets.bind_except ((calls_remove c.name).called h)
        (fun _ exchanges outcome' => exchanges = [] ∧ outcome' = outcome)
        (fun _ => meets_ofOutcome outcome) ?_ ?_
      · intro removal e hcalled
        obtain ⟨deleted, answered, rfl, hasked, -, -⟩ := hcalled.of_sendable hname
        exact ⟨⟨by simp [hkeep, hasked], by simp⟩, by simp⟩
      · rintro removal ⟨⟩ _ _ hcalled ⟨rfl, rfl⟩
        obtain ⟨deleted, answered, rfl, hasked, hanswered, hvalue⟩ := hcalled.of_sendable hname
        rw [List.append_nil]
        refine ⟨⟨by simp [hkeep, hasked], fun _ _ => ⟨deleted, by simp, ?_⟩⟩, id⟩
        rw [hanswered]
        obtain rfl | ⟨refusal, rfl, hmissing⟩ := Definitions.settleDeletion_eq_ok
          (mapError_eq_ok.mp (mapError_eq_ok.mp hvalue.symm))
        · exact Or.inl rfl
        · exact Or.inr ⟨refusal, rfl, hmissing⟩
  · rintro walked outcome removal outcome' ⟨walkOutcome, hwalked, hvalue⟩ ⟨hremoved, hok⟩
    obtain rfl := Except.ok.inj hvalue
    exact ⟨walked, removal, _, rfl, hwalked, hremoved, hok⟩

/-- What a demonstration exchanges, and how it ends, as its registration has gone. After one that
has failed there is nothing more: the creation was refused, or the wait was in vain and the
registration itself has deleted the definition. -/
structure Course (scope : String) (options : CommandLine) (o : Object k)
    (registered : Except Error Definition) (exchanges : List Exchange)
    (outcome : Except Failure Unit) : Prop where
  failed : ∀ e, registered = .error e →
    outcome = .error (.error (some "registering CRD") e) ∧
    (exchanges.map (·.request) = [.create .definitions k.definition.encode] ∨
      ∃ n, exchanges.map (·.request) = .create .definitions k.definition.encode ::
        (List.replicate n (.read .definitions k.definitionName) ++
          [.delete .definitions k.definitionName (DeleteParams.encode {})]))
  finished : ∀ c, registered = .ok c → ∃ registering rest n,
    exchanges = registering ++ rest ∧
    registering.map (·.request) = .create .definitions k.definition.encode ::
      List.replicate n (.read .definitions k.definitionName) ∧
    Finished scope options o c rest outcome

/-- **What a demonstration does**, in every world with a clock. -/
theorem course_run (h : meaning.Timed clock) (scope : String) (options : CommandLine)
    (o : Object k) (s : σ)
    (hname : ∀ c, ((Definitions.register k.definition .definitionEstablished).run.run
      meaning s).1 = .ok c →
      (Request.delete .definitions c.name (DeleteParams.encode {})).check = .ok ()) :
    Course scope options o
      ((Definitions.register k.definition .definitionEstablished).run.run meaning s).1
      ((Demo.run scope options o).run.exchanges clock meaning s)
      ((Demo.run scope options o).run.run meaning s).1 := by
  have hplain : Definition.IsPlainName k.definition.name := k.isPlainName_definitionName
  have hregistration := Definitions.registration_register h k.definition hplain
    .definitionEstablished s
  rw [run_eq, ExceptT.run_bind, Program.exchanges_bind, Program.run_bind, Stage.exchanges_ofTask,
    Stage.run_ofTask]
  generalize (Definitions.register k.definition .definitionEstablished).run.exchanges clock
    meaning s = registering at hregistration ⊢
  generalize ((Definitions.register k.definition .definitionEstablished).run.run meaning s).1 =
    registered at hname hregistration ⊢
  cases registered with
  | error e =>
    refine ⟨?_, by simp⟩
    rintro e' ⟨⟩
    rw [Except.mapError, Program.exchanges_pure, List.append_nil]
    exact ⟨rfl, hregistration.requests_of_error⟩
  | ok c =>
    refine ⟨by simp, ?_⟩
    rintro c' ⟨⟩
    obtain ⟨n, hrequests⟩ := hregistration.requests_of_ok
    exact ⟨registering, _, n, rfl, hrequests, meets_finish h scope options o (hname c rfl) _⟩

/-! ### Two rehearsals -/

/-- An answer that comes at once. -/
def prompt (code : Nat) (body : Json) : PreparedAnswer :=
  ⟨.body code body.render.toUTF8, .ofMillis 0, some 1⟩

/-- A definition that is established. -/
def establishedBody : Json :=
  .object
    [ ("metadata", .object [("name", .string "tests")]),
      ("status", .object [("conditions", .array [.object
        [("type", .string "Established"), ("status", .string "True")]])]) ]

/-- A rehearsal in which the definition is created and established. -/
def establishedRehearsal : Rehearsal :=
  .start [prompt 201 (.object []), prompt 200 establishedBody] [] []

/-- A rehearsal in which the definition is created and may not be read. -/
def unreadableRehearsal : Rehearsal :=
  .start [prompt 201 (.object []), prompt 403 (.object []), prompt 200 (.object [])] [] []

theorem establishedRehearsal_registered :
    ((Definitions.register Kind.test.definition .definitionEstablished).run.run Rehearsal.perform
      establishedRehearsal).1.toOption.map (·.name) = some "tests" := by
  decide +kernel

/-- The definition that is registered there has a name that can be sent. -/
theorem course_run_established :
    (∃ c, ((Definitions.register Kind.test.definition .definitionEstablished).run.run
      Rehearsal.perform establishedRehearsal).1 = .ok c) ∧
    ∀ o : Object .test, Course "crd" {} o
      ((Definitions.register Kind.test.definition .definitionEstablished).run.run
        Rehearsal.perform establishedRehearsal).1
      ((Demo.run "crd" {} o).run.exchanges (fun r => r.main.clock) Rehearsal.perform
        establishedRehearsal)
      ((Demo.run "crd" {} o).run.run Rehearsal.perform establishedRehearsal).1 := by
  have hregistered := establishedRehearsal_registered
  have hname : ∀ c, ((Definitions.register Kind.test.definition .definitionEstablished).run.run
      Rehearsal.perform establishedRehearsal).1 = .ok c →
      (Request.delete .definitions c.name (DeleteParams.encode {})).check = .ok () := by
    intro c hc
    rw [hc] at hregistered
    have hc : c.name = "tests" := Option.some.inj hregistered
    rw [hc]
    exact Request.check_delete_definition ⟨rfl, by decide⟩ _
  refine ⟨?_, fun o => course_run Rehearsal.timed "crd" {} o establishedRehearsal hname⟩
  generalize ((Definitions.register Kind.test.definition .definitionEstablished).run.run
    Rehearsal.perform establishedRehearsal).1 = registered at hregistered
  cases registered with
  | error e => simp [Except.toOption] at hregistered
  | ok c => exact ⟨c, rfl⟩

/-- **After a registration that has failed** a definition that is to be kept is deleted all the
same: the walkthrough is not begun, but the registration cleans up. -/
theorem unreadableRehearsal_deletes :
    ((Definitions.register Kind.test.definition .definitionEstablished).run.run Rehearsal.perform
      unreadableRehearsal).1.isOk = false ∧
    ((Demo.run "crd" { keepDefinition := true } (.named "x" (Spec.sample .test))).run.exchanges
      (fun r => r.main.clock) Rehearsal.perform unreadableRehearsal).map
        (fun e => (e.request.method, e.request.path)) =
      [ (.post, Endpoint.definitions.path),
        (.get, Endpoint.definitions.item Kind.test.definitionName),
        (.delete, Endpoint.definitions.item Kind.test.definitionName) ] := by
  decide +kernel

end CustomResource.Demo

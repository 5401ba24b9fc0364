import CustomResource.Proofs.Demo.Requests

/-!
# What is told of a failure

The definition is removed also after a walkthrough that has failed, and the removal can fail in
turn. Then there are two errors and one report. A registration in the same place tells both of them
(`Error.cleanup`); the demonstration tells only the one of the removal.

## Main definitions

* `Demo.reported`: the failure that is told after a walkthrough that has failed.

## Main results

* `Demo.failure_after_walkthrough`: this failure is what the demonstration ends with.
* `Demo.refused_removal_hides_failure`: the failure of the walkthrough may not be told at all.
-/

namespace CustomResource.Demo

variable {k : Kind} {α σ : Type} {clock : σ → Duration} {meaning : Meaning σ}

/-! ### The end of a stage -/

theorem Stage.run_ofTask_snd (doing : Option String) (task : Task α) (s : σ) :
    ((Stage.ofTask doing task).run.run meaning s).2 = (task.run.run meaning s).2 := by
  change ((task.run >>= fun outcome =>
    (pure (outcome.mapError (Failure.error doing)) : Program _)).run meaning s).2 = _
  rw [Program.run_bind, Program.run_pure]

/-! ### After a walkthrough that has failed -/

/-- The failure that is told after a walkthrough that has failed, and after what was understood of
the answer to the removal. An error of the removal takes the place of the failure. -/
def reported (failure : Failure) (answered : Except Api.Error Unit) : Failure :=
  match Definitions.settleDeletion answered with
  | .ok () => failure
  | .error refusal => .error none (.request refusal)

/-- The removal of a definition, and then the failure from before. -/
theorem calls_remove_failing (name : String) (failure : Failure) :
    (Stage.ofTask none (Definitions.remove name) >>= fun _ =>
      (Stage.ofOutcome (.error failure) : Stage Unit)).run.Calls
      (.delete .definitions name (DeleteParams.encode {})) (Deletion.decode Definition.decode)
      fun answered => .error (reported failure answered) := by
  rw [ExceptT.run_bind]
  refine (calls_remove name).bind fun answered => ?_
  rw [reported]
  cases Definitions.settleDeletion answered with
  | ok u => exact .done _
  | error refusal => exact .done _

/-- What is done after a walkthrough that has failed: nothing, or the removal. -/
theorem finish_of_failed (h : meaning.Timed clock) {scope : String} {options : CommandLine}
    {o : Object k} (c : Definition) {failure : Failure} {s : σ}
    (hfailed : ((walkthrough scope options.linger o).run.run meaning s).1 = .error failure) :
    if options.keepDefinition then
      ((finish scope options o c).run.run meaning s).1 = .error failure
    else ∃ walked removal,
      (finish scope options o c).run.exchanges clock meaning s = walked ++ removal ∧
      Program.Called (.delete .definitions c.name (DeleteParams.encode {}))
        (Deletion.decode Definition.decode) (fun answered => .error (reported failure answered))
        removal ((finish scope options o c).run.run meaning s).1 := by
  rw [run_finish, Program.run_bind, Program.exchanges_bind, hfailed]
  cases options.keepDefinition with
  | true => rfl
  | false =>
    rw [if_neg Bool.false_ne_true, if_neg Bool.false_ne_true, Program.run_lift_bind,
      Program.run_bind, Program.exchanges_bind, Program.exchanges_log, List.nil_append]
    exact ⟨_, _, rfl, (calls_remove_failing c.name failure).called h _⟩

/-- A demonstration whose registration has succeeded goes on with what is done after it. -/
theorem run_of_registered (clock : σ → Duration) (scope : String) (options : CommandLine)
    (o : Object k) {s : σ} {c : Definition} (hregistered :
      ((Definitions.register k.definition .definitionEstablished).run.run meaning s).1 = .ok c) :
    let s' := ((Definitions.register k.definition .definitionEstablished).run.run meaning s).2
    (Demo.run scope options o).run.run meaning s =
      (finish scope options o c).run.run meaning s' ∧
    (Demo.run scope options o).run.exchanges clock meaning s =
      (Definitions.register k.definition .definitionEstablished).run.exchanges clock meaning s ++
        (finish scope options o c).run.exchanges clock meaning s' := by
  rw [run_eq, ExceptT.run_bind, Program.run_bind, Program.exchanges_bind, Stage.exchanges_ofTask,
    Stage.run_ofTask, Stage.run_ofTask_snd, hregistered, Except.mapError]
  exact ⟨rfl, rfl⟩

/-- **What is told of a walkthrough that has failed.** -/
theorem failure_after_walkthrough (h : meaning.Timed clock) (scope : String)
    (options : CommandLine) (o : Object k) (s : σ) {c : Definition} {failure : Failure}
    (hregistered : ((Definitions.register k.definition .definitionEstablished).run.run
      meaning s).1 = .ok c)
    (hfailed : ((walkthrough scope options.linger o).run.run meaning
      ((Definitions.register k.definition .definitionEstablished).run.run meaning s).2).1 =
        .error failure) :
    if options.keepDefinition then
      ((Demo.run scope options o).run.run meaning s).1 = .error failure
    else ∃ before removal,
      (Demo.run scope options o).run.exchanges clock meaning s = before ++ removal ∧
      Program.Called (.delete .definitions c.name (DeleteParams.encode {}))
        (Deletion.decode Definition.decode) (fun answered => .error (reported failure answered))
        removal ((Demo.run scope options o).run.run meaning s).1 := by
  have hfinished := finish_of_failed h c hfailed
  obtain ⟨hrun, hexchanges⟩ := run_of_registered clock scope options o hregistered
  rw [hrun, hexchanges]
  split at hfinished
  · next hkeep => rwa [if_pos hkeep]
  · next hkeep =>
    rw [if_neg hkeep]
    obtain ⟨walked, removal, hwalked, hcalled⟩ := hfinished
    exact ⟨_, removal, by rw [hwalked, List.append_assoc], hcalled⟩

/-! ### A removal that is refused -/

/-- What the apiserver says when it refuses a request. -/
def refusalBody (code : Nat) (message : String) : Json :=
  .object [("code", .nat code), ("message", .string message), ("status", .string "Failure")]

/-- A rehearsal in which the definition is established, and the creation of the instance and then
the removal of the definition are refused. -/
def refusedRehearsal : Rehearsal :=
  .start
    [ prompt 201 (.object []), prompt 200 establishedBody,
      prompt 422 (refusalBody 422 "no such field"),
      prompt 500 (refusalBody 500 "no storage") ] [] []

/-- The rehearsal once the definition is registered. -/
def refusedRegistered : Except Error Definition × Rehearsal :=
  (Definitions.register Kind.test.definition .definitionEstablished).run.run Rehearsal.perform
    refusedRehearsal

/-- The instance of the rehearsal. -/
def refusedInstance : Object .test := .named "x" (Spec.sample .test)

/-- The end of its walkthrough. -/
def refusedWalkthrough : Except Failure Unit :=
  ((walkthrough "crd" 5 refusedInstance).run.run Rehearsal.perform refusedRegistered.2).1

/-- The texts of an outcome: none if it is no failure. -/
def outcomeTexts : Except Failure Unit → List String
  | .ok () => []
  | .error failure => failure.texts

/-- The walkthrough as it is in a demonstration without options. -/
theorem refusedWalkthrough_eq : refusedWalkthrough =
    ((walkthrough "crd" ({} : CommandLine).linger refusedInstance).run.run Rehearsal.perform
      ((Definitions.register Kind.test.definition .definitionEstablished).run.run Rehearsal.perform
        refusedRehearsal).2).1 := by
  rw [show ({} : CommandLine).linger = 5 from rfl, refusedWalkthrough, refusedRegistered]

theorem exists_of_isOk {ε α : Type} {x : Except ε α} (h : x.isOk = true) : ∃ a, x = .ok a := by
  cases x with
  | error e => exact nomatch h
  | ok a => exact ⟨a, rfl⟩

theorem exists_of_not_isOk {ε α : Type} {x : Except ε α} (h : x.isOk = false) :
    ∃ e, x = .error e := by
  cases x with
  | error e => exact ⟨e, rfl⟩
  | ok a => exact nomatch h

theorem refusedRehearsal_fails :
    refusedRegistered.1.isOk = true ∧ refusedWalkthrough.isOk = false := by
  decide +kernel

theorem failure_after_walkthrough_refused : ∃ c failure,
    refusedRegistered.1 = .ok c ∧ refusedWalkthrough = .error failure ∧
    ∃ before removal, (Demo.run "crd" {} refusedInstance).run.exchanges (fun r => r.main.clock)
        Rehearsal.perform refusedRehearsal = before ++ removal ∧
      Program.Called (.delete .definitions c.name (DeleteParams.encode {}))
        (Deletion.decode Definition.decode) (fun answered => .error (reported failure answered))
        removal
        ((Demo.run "crd" {} refusedInstance).run.run Rehearsal.perform refusedRehearsal).1 := by
  obtain ⟨hregistered, hfailed⟩ := refusedRehearsal_fails
  obtain ⟨c, hc⟩ := exists_of_isOk hregistered
  obtain ⟨failure, hf⟩ := exists_of_not_isOk hfailed
  exact ⟨c, failure, hc, hf, failure_after_walkthrough Rehearsal.timed "crd" {} refusedInstance
    refusedRehearsal hc (refusedWalkthrough_eq.symm.trans hf)⟩

/-- **A removal that is refused hides why the walkthrough has failed**: nothing that is said of the
one is said of the other. -/
theorem refused_removal_hides_failure :
    let told := ((Demo.run "crd" {} refusedInstance).run.run Rehearsal.perform refusedRehearsal).1
    refusedWalkthrough.isOk = false ∧ told.isOk = false ∧
    (outcomeTexts refusedWalkthrough).all fun text => text ∉ outcomeTexts told := by
  decide +kernel

end CustomResource.Demo

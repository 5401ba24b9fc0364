import CustomResource.Proofs.Demo.Duo
import CustomResource.Proofs.Demo.Requests

/-!
# The end of the controller

A walkthrough that goes to its end fires the token of the controller and waits for it, so that
nothing is asked any more when the definition is removed. A walkthrough that fails on the way only
fires the token, and nobody waits: the controller may be in the middle of an item, of which it goes
through all the rest.

## Main definitions

* `Demo.Quiet`: the controller asks nothing after a deletion that the demonstration has issued.
* `Demo.BrokenOff`: the walkthrough has failed, before the controller was waited for.

## Main results

* `Demo.leads_deletion`: where in a demonstration a deletion stands.
* `Demo.quiet_or_brokenOff`: the controller asks nothing after the deletion, unless the walkthrough
  has been broken off.
* `Demo.patch_after_deletion`: if it has, the controller may ask something.
-/

namespace CustomResource

/-- The actions that send a deletion. -/
def Action.Deletes : Action → Prop
  | .send r _ => r.method = .delete
  | _ => False

/-- The actions that start a controller. -/
def Action.Starts : Action → Prop
  | .startController _ => True
  | _ => False

namespace Demo

open Program (Performed)

variable {k : Kind} {α β : Type}

/-! ### Where nothing is deleted, and nothing is started -/

section Performs

variable {P : Action → Prop}

theorem Stage.performs_ofTask {doing : Option String} {task : Task α} (h : task.run.Performs P) :
    (Stage.ofTask doing task).run.Performs P :=
  h.bind fun _ => .done _

theorem Stage.performs_attempt {stage : Stage α} (h : stage.run.Performs P) :
    stage.attempt.run.Performs P :=
  h.bind fun _ => .done _

end Performs

theorem performs_waitProcessed (c : Instances k) (name : String) (p : Poll) :
    (c.waitProcessed name p).run.Performs fun action => ¬ action.Deletes := by
  rw [waitProcessed_eq]
  refine .bind_except (.lift (.ofAction id)) fun _ => .bind_except ?_ fun found => ?_
  · refine Poll.performs_untilSome id (fun _ => id) (fun _ _ _ h => h) p fun _ => ?_
    exact (calls_checkProcessed c.scope name).performs nofun fun _ _ => id
  · cases found with
    | none => exact .done _
    | some o => exact .done _

/-- A walkthrough deletes nothing. -/
theorem performs_walkthrough (scope : String) (linger : Nat) (o : Object k) :
    (walkthrough scope linger o).run.Performs fun action => ¬ action.Deletes := by
  have hact : ∀ {action : Action}, ¬ action.Deletes → (Program.ofAction action).Performs
      fun action => ¬ action.Deletes := fun h => .ofAction h
  have hsteps : (steps scope linger o).run.Performs fun action => ¬ action.Deletes := by
    refine .bind_except ?_ fun _ => .bind_except ?_ fun found => ?_
    · exact (calls_createInstance scope o).performs nofun fun _ _ => id
    · exact Stage.performs_ofTask (performs_waitProcessed _ _ _)
    refine .bind_except (.lift (hact id)) fun _ => .bind_except ?_ fun list => ?_
    · exact (calls_list scope).performs nofun fun _ _ => id
    refine .bind_except (.lift (hact id)) fun cached => .bind_except (.lift (hact id)) fun _ => ?_
    refine .bind_except (.forIn (fun item _ => ?_) _ _) fun _ => ?_
    · exact .bind_except (.lift (hact id)) fun _ => .done _
    refine .bind_except (.lift (hact id)) fun _ => .bind_except (.lift ?_) fun _ => ?_
    · exact (hact id).bind fun _ => hact id
    refine .bind_except (.lift (hact id)) fun _ => .bind_except (.lift (hact id)) fun ended => ?_
    cases ended <;> exact .done _
  refine .bind_except (.lift (hact id)) fun _ => ?_
  refine .bind_except (Stage.performs_attempt hsteps) fun outcome => ?_
  exact .bind_except (.lift (hact id)) fun _ => .done _

/-- A registration starts no controller. -/
theorem performs_register (d : Definition) (p : Poll) :
    (Definitions.register d p).run.Performs fun action => ¬ action.Starts := by
  rw [Definitions.run_register]
  refine ((Definitions.calls_create d).performs id fun _ _ => id).bind fun created => ?_
  cases created with
  | error e => exact .done _
  | ok u =>
    refine Program.Performs.bind ?_ fun found => ?_
    · exact Poll.performs_untilSome id (fun _ => id) (fun _ _ _ h => h) p fun _ =>
        (Definitions.calls_checkEstablished d.name).performs id fun _ _ => id
    have hcleanUp : ∀ cause, (Definitions.cleanUp d.name cause).run.Performs
        fun action => ¬ action.Starts := by
      intro cause
      obtain ⟨rest, hrun, hcalls⟩ := Definitions.calls_cleanUp d.name cause
      rw [hrun]
      exact (Program.Performs.ofAction id).bind fun _ => hcalls.performs id fun _ _ => id
    rcases found with e | (_ | c)
    · exact hcleanUp e
    · exact hcleanUp _
    · exact .done _

/-! ### Where a deletion stands -/

/-- A registration that deletes what it has created fails. -/
theorem yields_of_deletion {d : Definition} {p : Poll} {path : List Performed} {r : Request}
    {deadline : Option Duration} {next : Option Answer → Program (Except Error Definition)}
    (h : (Definitions.register d p).run.Leads path (.perform (.send r deadline) next))
    (hr : r.method = .delete) :
    (Program.perform (.send r deadline) next).Yields fun outcome => ∃ e, outcome = .error e := by
  rw [Definitions.run_register] at h
  have hcreates : (Definitions.create d).run.Performs fun action => ¬ action.Deletes :=
    (Definitions.calls_create d).performs nofun fun _ _ => id
  have hpolls : (p.untilSome fun _ => Definitions.checkEstablished d.name).run.Performs
      fun action => ¬ action.Deletes :=
    Poll.performs_untilSome id (fun _ => id) (fun _ _ _ h => h) p fun _ =>
      (Definitions.calls_checkEstablished d.name).performs nofun fun _ _ => id
  have hcleanUp : ∀ cause, (Definitions.cleanUp d.name cause).run.Yields
      fun outcome => ∃ e, outcome = .error e := by
    intro cause
    obtain ⟨rest, hrun, hcalls⟩ := Definitions.calls_cleanUp d.name cause
    rw [hrun]
    exact (Program.Yields.any _).bind fun _ _ => hcalls.yields fun outcome => ⟨_, rfl⟩
  have hdeletes : ¬ ¬ (Action.send r deadline).Deletes := not_not.mpr hr
  obtain ⟨_, created, _, -, -, h⟩ := hcreates.past hdeletes h
  cases created with
  | error e => exact nomatch h.of_done.2
  | ok u =>
    obtain ⟨_, found, _, -, -, h⟩ := hpolls.past hdeletes h
    rcases found with e | (_ | c)
    · exact (hcleanUp e).of_leads h
    · exact (hcleanUp _).of_leads h
    · exact nomatch h.of_done.2

theorem run_registered (scope : String) (options : CommandLine) (o : Object k) :
    (Demo.run scope options o).run =
      (Definitions.register k.definition .definitionEstablished).run >>= fun
        | .ok c => (finish scope options o c).run
        | .error e => pure (.error (.error (some "registering CRD") e)) := by
  have hregister : (Stage.ofTask (some "registering CRD")
      (Definitions.register k.definition .definitionEstablished)).run =
    (Definitions.register k.definition .definitionEstablished).run >>= fun outcome =>
      pure (outcome.mapError (.error (some "registering CRD"))) := rfl
  rw [run_eq, ExceptT.run_bind, hregister, bind_assoc]
  refine congrArg _ (funext fun outcome => ?_)
  cases outcome <;> rfl

/-- **Where in a demonstration a deletion stands**: in its registration, and then no controller is
ever started, or after the walkthrough. -/
theorem leads_deletion {scope : String} {options : CommandLine} {o : Object k}
    {path : List Performed} {r : Request} {deadline : Option Duration}
    {next : Option Answer → Program (Except Failure Unit)}
    (h : (Demo.run scope options o).run.Leads path (.perform (.send r deadline) next))
    (hr : r.method = .delete) :
    ((∀ x ∈ path, ¬ x.action.Starts) ∧
      (Program.perform (.send r deadline) next).Performs fun action => ¬ action.Starts) ∨
    ∃ registering c walked outcome rest, path = registering ++ (walked ++ rest) ∧
      (Definitions.register k.definition .definitionEstablished).run.Leads registering
        (.done (.ok c)) ∧
      (walkthrough scope options.linger o).run.Leads walked (.done outcome) := by
  rw [run_registered] at h
  obtain ⟨action, next', hregistering, hleft⟩ | ⟨registering, outcome, path', rfl, hdone, h⟩ :=
    h.bind_cases
  · obtain ⟨rfl, -⟩ := Program.perform.inj hleft
    obtain ⟨hpath, hperforms⟩ := (performs_register _ _).of_leads hregistering
    rw [hleft]
    refine Or.inl ⟨hpath, (yields_of_deletion hregistering hr).performs_bind hperforms ?_⟩
    rintro _ ⟨e, rfl⟩
    exact .done _
  · cases outcome with
    | error e => exact nomatch h.of_done.2
    | ok c =>
      have hdeletes : ¬ ¬ (Action.send r deadline).Deletes := not_not.mpr hr
      simp only [run_finish] at h
      obtain ⟨walked, outcome, rest, rfl, hwalked, -⟩ :=
        (performs_walkthrough scope options.linger o).past hdeletes h
      exact Or.inr ⟨registering, c, walked, outcome, rest, rfl, hdone, hwalked⟩

/-! ### A walkthrough waits for its controller, or fails -/

/-- A stage that is over has waited for the controller, unless it has failed by an error. -/
def Stage.Joins (stage : Stage α) : Prop :=
  ∀ path outcome, stage.run.Leads path (.done outcome) →
    (∃ doing e, outcome = .error (.error doing e)) ∨ ∃ x ∈ path, x.action = .joinController

/-- The controller is not lost by this outcome. -/
def Unlost (outcome : Except Failure α) : Prop := outcome ≠ .error .controllerLost

theorem Unlost.cast {failure : Failure} (h : Unlost (.error failure : Except Failure α)) :
    Unlost (.error failure : Except Failure β) :=
  fun hlost => h (congrArg Except.error (Except.error.inj hlost))

theorem Unlost.ok (value : α) : Unlost (.ok value) := nofun

theorem Unlost.error (doing : Option String) (e : Error) :
    Unlost (.error (.error doing e) : Except Failure α) := nofun

theorem Stage.Joins.of_rest {stage : Stage α} (h : stage.run.Yields Unlost)
    {next : α → Stage β} (hnext : ∀ value, (next value).Joins) : (stage >>= next).Joins := by
  intro path outcome hpath
  obtain ⟨_, _, -, _, hleft⟩ | ⟨failure, hfailed, hleft⟩ |
    ⟨path₁, value, path₂, rfl, -, hrest⟩ := hpath.bind_except_cases
  · exact nomatch hleft
  · obtain rfl := Program.done.inj hleft
    cases failure with
    | error doing e => exact Or.inl ⟨doing, e, rfl⟩
    | controllerLost => exact absurd rfl (h.of_leads_done hfailed)
  · refine (hnext value path₂ outcome hrest).imp_right ?_
    rintro ⟨x, hx, hjoin⟩
    exact ⟨x, List.mem_append_right _ hx, hjoin⟩

theorem Stage.yields_lift (p : Program α) :
    (liftM p : Stage α).run.Yields Unlost :=
  (Program.Yields.any p).bind fun _ _ => .done (.ok _)

theorem Stage.yields_ofTask (doing : Option String) (task : Task α) :
    (Stage.ofTask doing task).run.Yields Unlost := by
  refine (Program.Yields.any task.run).bind fun outcome _ => .done ?_
  cases outcome with
  | error e => exact .error _ _
  | ok value => exact .ok _

theorem Stage.yields_forIn {ι : Type} {body : ι → PUnit → Stage (ForInStep PUnit)}
    (h : ∀ item state, (body item state).run.Yields Unlost) (items : List ι) (state : PUnit) :
    (forIn items state body : Stage PUnit).run.Yields Unlost := by
  induction items generalizing state with
  | nil => exact .done (.ok _)
  | cons item items ih =>
    rw [List.forIn_cons, ExceptT.run_bind]
    refine (h item state).bind fun outcome houtcome => ?_
    cases outcome with
    | error failure => exact .done houtcome.cast
    | ok step =>
      cases step with
      | done state => exact .done (.ok _)
      | yield state => exact ih state

/-- What is done at the end of a walkthrough that has not failed before. -/
theorem joins_end (next : Bool → Stage Unit) :
    (do
      Program.cancelController
      let ended ← Program.joinController
      next ended : Stage Unit).Joins := by
  intro path outcome h
  cases h with
  | step h =>
    cases h with
    | @step _ _ ended =>
      exact Or.inr ⟨⟨.joinController, ended⟩, List.mem_cons_of_mem _ List.mem_cons_self, rfl⟩

theorem joins_steps (scope : String) (linger : Nat) (o : Object k) :
    (steps scope linger o).Joins := by
  rw [steps]
  refine .of_rest ?_ fun _ => ?_
  · refine (calls_createInstance scope o).yields fun answered => ?_
    rcases answered with refusal | created
    · rw [settleInstance]
      split
      · exact .ok _
      · exact .error _ _
    · exact .ok _
  refine .of_rest (Stage.yields_ofTask _ _) fun processed => ?_
  refine .of_rest (Stage.yields_lift _) fun _ => ?_
  refine .of_rest (Stage.yields_ofTask _ _) fun list => ?_
  refine .of_rest (Stage.yields_lift _) fun cached => ?_
  refine .of_rest (Stage.yields_lift _) fun _ => ?_
  refine .of_rest (Stage.yields_forIn (fun item _ => ?_) _ _) fun _ => ?_
  · rw [ExceptT.run_bind]
    refine (Stage.yields_lift _).bind fun outcome houtcome => ?_
    cases outcome with
    | error failure => exact .done houtcome.cast
    | ok u => exact .done (.ok _)
  refine .of_rest (Stage.yields_lift _) fun _ => .of_rest (Stage.yields_lift _) fun _ => ?_
  exact joins_end _

/-- **A walkthrough that is over** has waited for its controller, or has failed by an error. -/
theorem joins_walkthrough (scope : String) (linger : Nat) (o : Object k) :
    (walkthrough scope linger o).Joins := by
  rw [walkthrough]
  refine .of_rest (Stage.yields_lift _) fun _ => ?_
  intro path outcome h
  rw [Stage.run_attempt_bind] at h
  obtain ⟨path₁, outcome', path₂, rfl, hsteps, hrest⟩ := h.bind_done
  cases hrest with
  | step hrest =>
    obtain ⟨rfl, hvalue⟩ := hrest.of_done
    obtain rfl := Program.done.inj hvalue
    refine (joins_steps scope linger o path₁ outcome hsteps).imp_right ?_
    rintro ⟨x, hx, hjoin⟩
    exact ⟨x, List.mem_append_left _ hx, hjoin⟩

/-! ### What is asked after the deletion -/

/-- Whether the demonstration has issued a deletion. -/
def Event.isDeletion : Event → Bool
  | .issued .demonstration r => r.method = .delete
  | _ => false

/-- Whether the controller has issued a request. -/
def Event.isAsking : Event → Bool
  | .issued .controller _ => true
  | _ => false

/-- After a deletion that the demonstration has issued the controller asks nothing. -/
def Quiet (log : List Event) : Prop :=
  log.Pairwise fun earlier later => earlier.isDeletion → ¬ later.isAsking

instance (log : List Event) : Decidable (Quiet log) :=
  inferInstanceAs (Decidable (log.Pairwise _))

/-- The walkthrough of a demonstration has failed by an error. It has then fired the token of its
controller, but not waited for it. -/
def BrokenOff (scope : String) (options : CommandLine) (o : Object k)
    (path : List Performed) : Prop :=
  ∃ registering c walked rest doing e, path = registering ++ (walked ++ rest) ∧
    (Definitions.register k.definition .definitionEstablished).run.Leads registering
      (.done (.ok c)) ∧
    (walkthrough scope options.linger o).run.Leads walked (.done (.error (.error doing e)))

theorem quiet_iff {log : List Event} : Quiet log ↔
    ∀ before event after, log = before ++ event :: after → event.isDeletion →
      ∀ later ∈ after, ¬ later.isAsking := by
  constructor
  · rintro h before event after rfl hdeletion later hlater
    have hafter := (List.pairwise_append.mp h).2.1
    exact (List.pairwise_cons.mp hafter).1 later hlater hdeletion
  · intro h
    induction log with
    | nil => exact .nil
    | cons event log ih =>
      refine .cons (fun later hlater hdeletion => h [] event log rfl hdeletion later hlater) ?_
      exact ih fun before event' after hlog => h (event :: before) event' after (hlog ▸ rfl)

/-- An action that is over stands in the log. -/
theorem exists_of_mem_performed {log : List Event} {x : Performed} (hx : x ∈ performed log) :
    ∃ before after, log = before ++ .performed x :: after := by
  obtain ⟨event, hevent, hperformed⟩ := List.mem_filterMap.mp hx
  cases event with
  | issued party r => simp at hperformed
  | performed y =>
    obtain rfl := Option.some.inj hperformed
    exact List.append_of_mem hevent

/-- **The controller asks nothing after the definition is deleted**, unless the walkthrough has
failed by an error. This holds for all answers, all delays and all turns of the two. -/
theorem quiet_or_brokenOff {scope : String} {options : CommandLine} {o : Object k} {m : Duo k}
    (h : Duo.Reaches (.start (Demo.run scope options o).run) m) :
    Quiet m.log ∨ BrokenOff scope options o (performed m.log) := by
  have hsound := h.sound
  by_cases hbroken : BrokenOff scope options o (performed m.log)
  · exact Or.inr hbroken
  refine Or.inl (quiet_iff.mpr fun before event after hlog hdeletion later hlater hasking => ?_)
  obtain ⟨r, rfl, hr⟩ : ∃ r, event = .issued .demonstration r ∧ r.method = .delete := by
    rcases event with ⟨_ | _, r⟩ | _
    · exact ⟨r, rfl, of_decide_eq_true hdeletion⟩
    · exact nomatch hdeletion
    · exact nomatch hdeletion
  obtain ⟨r', rfl⟩ : ∃ r', later = .issued .controller r' := by
    rcases later with ⟨_ | _, r'⟩ | _
    · exact nomatch hasking
    · exact ⟨r', rfl⟩
    · exact nomatch hasking
  have hperformed : performed m.log = performed before ++ performed after := by
    rw [hlog, Duo.performed_append]
    rfl
  obtain ⟨deadline, next, hpath⟩ := hsound.issued hlog
  obtain ⟨hunstarted, hperforms⟩ | ⟨registering, c, walked, outcome, rest, hbefore, hdone, hover⟩ :=
    leads_deletion hpath hr
  · -- the controller has asked something, so it has been started, before the deletion or after it
    obtain ⟨x, hx, k', hstart⟩ := hsound.started (Or.inr ⟨r', by simp [hlog, hlater]⟩)
    have hafter := (hperforms.of_leads (hpath.of_append (hperformed ▸ hsound.path))).1
    have hnot : ¬ x.action.Starts := by
      obtain hx | hx := List.mem_append.mp (hperformed ▸ hx)
      · exact hunstarted x hx
      · exact hafter x hx
    exact hnot (hstart ▸ trivial)
  · obtain ⟨doing, e, rfl⟩ | ⟨⟨action, ended⟩, hx, hjoin⟩ :=
      joins_walkthrough scope options.linger o walked outcome hover
    · refine hbroken ⟨registering, c, walked, rest ++ performed after, doing, e, ?_, hdone, hover⟩
      rw [hperformed, hbefore]
      simp only [List.append_assoc]
    · obtain rfl : action = .joinController := hjoin
      have hjoined : ⟨.joinController, ended⟩ ∈ performed before :=
        hbefore ▸ List.mem_append_right _ (List.mem_append_left _ hx)
      obtain ⟨before', after', hsplit⟩ := exists_of_mem_performed hjoined
      have hlog' : m.log = before' ++ .performed ⟨.joinController, ended⟩ ::
          (after' ++ .issued .demonstration r :: after) := by
        rw [hlog, hsplit, List.append_assoc, List.cons_append]
      exact (hsound.joined hlog').2 r' (by simp [hlater])

/-! ### Two runs -/

section Runs

/-- The instance of the runs. -/
def sampleInstance : Object .test := .named "x" (Spec.sample .test)

/-- A demonstration with that instance, at its start. -/
def sampleStart : Duo .test := .start (Demo.run "crd" {} sampleInstance).run

/-- The demonstration issues a request, which is answered in its next turn. -/
def asking (code : Nat) (body : Json) : List Duo.Turn :=
  [.main .issue, .main (.receive (some (.response code body.render.toUTF8)))]

/-- The demonstration passes some actions. -/
def passing (n : Nat) : List Duo.Turn := List.replicate n (.main (.pass (.ofMillis 0)))

/-- The definition is registered, the controller is started and issues its first list. -/
def beginning : List Duo.Turn :=
  asking 201 (.object []) ++ passing 4 ++ asking 200 establishedBody ++ [.meet, .controller .ask]

/-- An object as its fields in order, which is the shortest way to write one. -/
def shortBody (metadata status : Json) : Json :=
  .array [metadata, .array [.string "", .bool true], status]

/-- An object that has been processed. -/
def processedBody : Json := shortBody (.object []) (.array [.string "Processed"])

/-- An object of the namespace that has not been processed. -/
def freshBody (name : String) : Json :=
  shortBody (.object [("name", .string name), ("namespace", .string "crd")]) .null

/-- A list of objects as it is answered. -/
def listBody (items : List Json) : Json :=
  .object [("items", .array items), ("metadata", .object [("resourceVersion", .string "1")])]

/-- The controller is answered a list. -/
def hearing (items : List Json) : Duo.Turn :=
  .controller (.hear (.response 200 (listBody items).render.toUTF8))

/-- The walkthrough goes to its end, and the definition is removed. -/
def completedTurns : List Duo.Turn :=
  beginning ++ [hearing []] ++ asking 201 processedBody ++ passing 5 ++ asking 200 processedBody ++
    passing 1 ++ asking 200 (listBody []) ++ [.meet] ++ passing 4 ++
    [.meet, .controller .heed, .meet, .meet] ++ passing 1 ++ asking 200 (.object []) ++ passing 1

/-- The controller is told of two objects and issues the patch of the first one. Meanwhile the
creation of the instance is refused, and the deletion is issued. The controller is answered and goes
on to the second object. -/
def brokenOffTurns : List Duo.Turn :=
  let patching : List Duo.Turn :=
    [.controller .proceed, .controller (.act (.pass (.ofMillis 0))), .controller (.act .issue)]
  beginning ++
    [hearing [freshBody "y", freshBody "z"], .controller .take] ++ patching ++
    asking 422 (.object []) ++ [.meet] ++ passing 1 ++ [.main .issue] ++
    [.controller (.act (.receive (some (.response 500 .empty)))),
      .controller (.act (.pass (.ofMillis 0))), .controller .proceed] ++ patching

/-- A state that some turns lead to, as far as it can be told by a computation. -/
theorem exists_reached {turns : List Duo.Turn} {told : Duo .test → Bool}
    (h : (sampleStart.steps? turns).any told = true) :
    ∃ m, Duo.Reaches sampleStart m ∧ told m = true := by
  obtain ⟨m, hm, htold⟩ := (Option.any_eq_true _ _).mp h
  exact ⟨m, Duo.reaches_of_steps? hm, htold⟩

/-- In the run that goes to its end, the controller has asked something and the definition has been
deleted. -/
theorem quiet_or_brokenOff_completed : ∃ m, Duo.Reaches sampleStart m ∧
    m.log.any Event.isDeletion ∧ m.log.any Event.isAsking ∧
    (Quiet m.log ∨ BrokenOff "crd" {} sampleInstance (performed m.log)) := by
  have hrun : (sampleStart.steps? completedTurns).any
      (fun m => m.log.any Event.isDeletion && m.log.any Event.isAsking) = true := by
    decide +kernel
  obtain ⟨m, hreaches, htold⟩ := exists_reached hrun
  obtain ⟨hdeleted, hasked⟩ := Bool.and_eq_true_iff.mp htold
  exact ⟨m, hreaches, hdeleted, hasked, quiet_or_brokenOff hreaches⟩

/-- **After a walkthrough that has been broken off the controller goes on asking**: it patches one
more object when the deletion of the definition has been issued. -/
theorem patch_after_deletion : ∃ m, Duo.Reaches sampleStart m ∧ ¬ Quiet m.log := by
  have hrun : (sampleStart.steps? brokenOffTurns).any (fun m => !decide (Quiet m.log)) = true := by
    decide +kernel
  obtain ⟨m, hreaches, htold⟩ := exists_reached hrun
  exact ⟨m, hreaches, by simpa using htold⟩

end Runs

end Demo

end CustomResource

import CustomResource.Client.Definitions
import CustomResource.Proofs.Api.Paths
import CustomResource.Proofs.Program.Polling

/-!
# How a registration goes

A registration is one creation, then reads, and then perhaps one deletion. Which of them are made,
and what comes out, follows from the answers alone: a refused creation is the end of it, a
definition that is established in time is yielded, and everything else is cleaned up after.

## Main definitions

* `Registration`: the ways in which a registration can go.

## Main results

* `Definitions.registration_register`: it goes in one of these ways, in every world with a clock.
-/

namespace CustomResource

/-- The definition, if it is established. -/
def Definition.established? (d : Definition) : Option Definition :=
  if d.readiness = .established then some d else none

namespace Definitions

/-! ### What is made of the answers -/

/-- What a creation is, after what was understood of the answer. That the definition exists is as
good as that it has been created. -/
def settleCreation : Except Api.Error Definition → Except Error Unit
  | .ok _ => .ok ()
  | .error e => if (Error.request e).isAlreadyExists then .ok () else .error (.request e)

/-- What a deletion is, after what was understood of the answer. That the definition does not exist
is as good as that it has been deleted. -/
def settleDeletion : Except Api.Error Unit → Except Api.Error Unit
  | .ok () => .ok ()
  | .error e => if e.isNotFound then .ok () else .error e

/-- The error that is told after a cleanup: what made it necessary, and also why it has failed, if
it has. -/
def cleanupError (name : String) (cause : Error) : Except Api.Error Unit → Error
  | .ok () => cause
  | .error e => .cleanup name cause e

theorem settleCreation_eq_error {outcome : Except Api.Error Definition} {e : Error}
    (h : settleCreation outcome = .error e) : ∃ e', outcome = .error e' ∧
      (Error.request e').isAlreadyExists = false ∧ e = .request e' := by
  cases outcome with
  | ok c => simp [settleCreation] at h
  | error e' =>
    rw [settleCreation] at h
    split at h
    · simp at h
    · next hother => exact ⟨e', rfl, by simpa using hother, (Except.error.inj h).symm⟩

theorem settleDeletion_eq_ok {result : Except Api.Error Unit} (h : settleDeletion result = .ok ()) :
    result = .ok () ∨ ∃ refusal, result = .error refusal ∧ refusal.isNotFound = true := by
  cases result with
  | ok u => exact Or.inl rfl
  | error refusal =>
    rw [settleDeletion] at h
    split at h
    · next hmissing => exact Or.inr ⟨refusal, rfl, hmissing⟩
    · simp at h

theorem calls_create (d : Definition) :
    (create d).run.Calls (.create .definitions d.encode) (Answer.decode Definition.decode)
      settleCreation := by
  rw [create, ExceptT.run_bind]
  refine (Program.Calls.call _ _).attempt.bind fun outcome => ?_
  cases outcome with
  | ok c => exact .log (.done _)
  | error e =>
    by_cases hexists : (Error.request e).isAlreadyExists = true
    · simp only [settleCreation, Except.mapError, if_pos hexists]
      exact .log (.done _)
    · simp only [settleCreation, Except.mapError, if_neg hexists]
      exact .log (.done _)

theorem calls_checkEstablished (name : String) :
    (checkEstablished name).run.Calls (.read .definitions name) (Answer.decode Definition.decode)
      fun outcome => (outcome.mapError .request).map Definition.established? := by
  rw [checkEstablished, ExceptT.run_bind]
  refine (Program.Calls.exchange _ _).lift.bind fun outcome => ?_
  cases outcome with
  | error e => exact .log (.done _)
  | ok c =>
    simp only [Except.mapError, Except.map, Definition.established?]
    cases c.readiness with
    | established => exact .done _
    | namesConflict reason => exact .log (.done _)
    | pending => exact .done _

theorem calls_delete (name : String) :
    (Definitions.delete name).Calls (.delete .definitions name (DeleteParams.encode {}))
      (Deletion.decode Definition.decode) settleDeletion := by
  refine ⟨_, rfl, fun outcome => ?_⟩
  cases outcome with
  | ok u => exact .done _
  | error e =>
    simp only [settleDeletion]
    split <;> exact .done _

theorem calls_remove (name : String) :
    (remove name).run.Calls (.delete .definitions name (DeleteParams.encode {}))
      (Deletion.decode Definition.decode)
      fun outcome => (settleDeletion outcome).mapError .request := by
  rw [remove, Program.run_lift_bind]
  refine (calls_delete name).bind fun outcome => ?_
  cases settleDeletion outcome with
  | ok u => exact .log (.done _)
  | error e => exact .done _

/-- Whether a creation lets the registration go on. -/
def Accepted (d : Definition) (posted : Exchange) : Prop :=
  posted.request = .create .definitions d.encode ∧ ∃ outcome,
    posted.outcome (Answer.decode Definition.decode) = some outcome ∧
      settleCreation outcome = .ok ()

/-- What makes a cleanup necessary after a poll: an error, or that nothing has been yielded. -/
def waitFailure? (name : String) (p : Poll) : Except Error (Option Definition) → Option Error
  | .ok (some _) => none
  | .ok none => some (.notEstablished name p.timeout)
  | .error e => some e

/-- The ways in which a registration can go: what is exchanged, and what comes out. -/
inductive Registration (d : Definition) (p : Poll) :
    List Exchange → Except Error Definition → Prop
  | refused {posted : Exchange} {e : Api.Error}
      (asked : posted.request = .create .definitions d.encode)
      (answered : posted.outcome (Answer.decode Definition.decode) = some (.error e))
      (other : (Error.request e).isAlreadyExists = false) :
      Registration d p [posted] (.error (.request e))
  | established {posted : Exchange} {reads : List Exchange} {c : Definition}
      (accepted : Accepted d posted)
      (polled : Poll.Polled (.read .definitions d.name) (Answer.decode Definition.decode)
        Definition.established? (posted.closed + p.timeout).ceilMillis reads (.ok (some c))) :
      Registration d p (posted :: reads) (.ok c)
  | cleanedUp {posted removal : Exchange} {reads : List Exchange}
      {found : Except Error (Option Definition)} {cause : Error} {outcome : Except Api.Error Unit}
      (accepted : Accepted d posted)
      (polled : Poll.Polled (.read .definitions d.name) (Answer.decode Definition.decode)
        Definition.established? (posted.closed + p.timeout).ceilMillis reads found)
      (failed : waitFailure? d.name p found = some cause)
      (asked : removal.request = .delete .definitions d.name (DeleteParams.encode {}))
      (answered : removal.outcome (Deletion.decode Definition.decode) = some outcome) :
      Registration d p (posted :: (reads ++ [removal]))
        (.error (cleanupError d.name cause (settleDeletion outcome)))

theorem Registration.requests_of_ok {d : Definition} {p : Poll} {exchanges : List Exchange}
    {c : Definition} (h : Registration d p exchanges (.ok c)) :
    ∃ n, exchanges.map (·.request) = .create .definitions d.encode ::
      List.replicate n (.read .definitions d.name) := by
  cases h with
  | @established posted reads c accepted polled =>
    refine ⟨reads.length, ?_⟩
    rw [List.map_cons, accepted.1,
      Exchange.map_request_eq_replicate fun e he => (polled.asked e he).1]

/-- A registration that fails is refused, or ends with its cleanup. -/
theorem Registration.requests_of_error {d : Definition} {p : Poll} {exchanges : List Exchange}
    {e : Error} (h : Registration d p exchanges (.error e)) :
    exchanges.map (·.request) = [.create .definitions d.encode] ∨
      ∃ n, exchanges.map (·.request) = .create .definitions d.encode ::
        (List.replicate n (.read .definitions d.name) ++
          [.delete .definitions d.name (DeleteParams.encode {})]) := by
  cases h with
  | refused asked answered other => exact Or.inl (by rw [List.map_singleton, asked])
  | @cleanedUp posted removal reads found cause outcome accepted polled failed asked answered =>
    refine Or.inr ⟨reads.length, ?_⟩
    rw [List.map_cons, List.map_append, List.map_singleton, accepted.1, asked,
      Exchange.map_request_eq_replicate fun e he => (polled.asked e he).1]

variable {σ : Type} {clock : σ → Duration} {meaning : Meaning σ}

theorem calls_cleanUp (name : String) (cause : Error) :
    ∃ rest : Program (Except Error Definition), (cleanUp name cause).run =
        Program.log .info ("cleaning up CRD " ++ name) >>= (fun _ => rest) ∧
      rest.Calls (.delete .definitions name (DeleteParams.encode {}))
        (Deletion.decode Definition.decode)
        fun outcome => .error (cleanupError name cause (settleDeletion outcome)) := by
  rw [cleanUp, Program.run_lift_bind]
  refine ⟨_, rfl, ?_⟩
  rw [Program.run_lift_bind]
  refine (calls_delete name).bind fun outcome => ?_
  cases settleDeletion outcome with
  | ok u => exact .done _
  | error e => exact .log (.done _)

/-- What a registration does once its poll is over. -/
def conclude (name : String) (p : Poll) :
    Except Error (Option Definition) → Program (Except Error Definition)
  | .ok (some established) => pure (.ok established)
  | .ok none => (cleanUp name (.notEstablished name p.timeout)).run
  | .error e => (cleanUp name e).run

theorem run_register (d : Definition) (p : Poll) : (register d p).run = (create d).run >>= fun
    | .ok () => (p.untilSome fun _ => checkEstablished d.name).run >>= conclude d.name p
    | .error e => pure (.error e) := by
  rw [register, ExceptT.run_bind]
  refine congrArg ((create d).run >>= ·) (funext fun created => ?_)
  cases created with
  | error e => rfl
  | ok u =>
    simp only [Task.run_attempt_bind]
    refine congrArg ((p.untilSome fun _ => checkEstablished d.name).run >>= ·)
      (funext fun waited => ?_)
    cases waited with
    | error e => rfl
    | ok found => cases found <;> rfl

/-- A cleanup is one deletion, and always ends in an error. -/
theorem exchange_cleanUp (h : meaning.Timed clock) {name : String}
    (hname : Definition.IsPlainName name) (cause : Error) (s : σ) :
    ∃ removal outcome, (cleanUp name cause).run.exchanges clock meaning s = [removal] ∧
      removal.request = .delete .definitions name (DeleteParams.encode {}) ∧
      removal.outcome (Deletion.decode Definition.decode) = some outcome ∧
      ((cleanUp name cause).run.run meaning s).1 =
        .error (cleanupError name cause (settleDeletion outcome)) := by
  obtain ⟨rest, hrun, hcalls⟩ := calls_cleanUp name cause
  obtain ⟨removal, hsent, hasked, ⟨outcome, houtcome, hvalue⟩, -⟩ :=
    hcalls.exists_exchange (Request.check_delete_definition hname _) h
      ((Program.log .info ("cleaning up CRD " ++ name)).run meaning s).2
  refine ⟨removal, outcome, ?_, hasked, houtcome, ?_⟩
  · rw [hrun, Program.exchanges_bind, Program.exchanges_log, List.nil_append, hsent]
  · rw [hrun, Program.run_bind, hvalue]

/-- What a poll has found decides how the registration ends. -/
theorem registration_conclude (h : meaning.Timed clock) {d : Definition}
    (hname : Definition.IsPlainName d.name) {p : Poll} {posted : Exchange} {reads : List Exchange}
    {found : Except Error (Option Definition)} (haccepted : Accepted d posted)
    (hpolled : Poll.Polled (.read .definitions d.name) (Answer.decode Definition.decode)
      Definition.established? (posted.closed + p.timeout).ceilMillis reads found) (s : σ) :
    Registration d p ([posted] ++ (reads ++ (conclude d.name p found).exchanges clock meaning s))
      ((conclude d.name p found).run meaning s).1 := by
  have hcleaned : ∀ cause, waitFailure? d.name p found = some cause →
      Registration d p
        ([posted] ++ (reads ++ (cleanUp d.name cause).run.exchanges clock meaning s))
        ((cleanUp d.name cause).run.run meaning s).1 := by
    intro cause hcause
    obtain ⟨removal, outcome, hremoval, hasked, houtcome, hvalue⟩ :=
      exchange_cleanUp h hname cause s
    rw [hremoval, hvalue]
    exact .cleanedUp haccepted hpolled hcause hasked houtcome
  cases found with
  | error e => exact hcleaned e rfl
  | ok found =>
    cases found with
    | none => exact hcleaned _ rfl
    | some c =>
      rw [conclude, Program.exchanges_pure, List.append_nil]
      exact .established haccepted hpolled

/-- **How a registration goes.** -/
theorem registration_register (h : meaning.Timed clock) (d : Definition)
    (hname : Definition.IsPlainName d.name) (p : Poll) (s : σ) :
    Registration d p ((register d p).run.exchanges clock meaning s)
      ((register d p).run.run meaning s).1 := by
  obtain ⟨posted, hsent, hasked, ⟨outcome, houtcome, hcreated⟩, hclosed⟩ :=
    (calls_create d).exists_exchange (Request.check_create_definition _) h s
  rw [run_register, Program.exchanges_bind, Program.run_bind, hsent, hcreated]
  generalize ((create d).run.run meaning s).2 = s at hclosed
  cases hsettled : settleCreation outcome with
  | error e =>
    obtain ⟨e, rfl, hother, rfl⟩ := settleCreation_eq_error hsettled
    exact .refused hasked houtcome hother
  | ok u =>
    have hpolled := Poll.polled_untilSome h p (fun _ => calls_checkEstablished d.name) s
    rw [hclosed] at hpolled
    simp only [Program.exchanges_bind, Program.run_bind]
    exact registration_conclude h hname ⟨hasked, outcome, houtcome, hsettled⟩ hpolled _

end Definitions

end CustomResource

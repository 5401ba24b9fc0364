import CustomResource.Proofs.Api.Refusals
import CustomResource.Proofs.Demo.Requests

/-!
# Refusals that are tolerated

A definition, the namespace and the instance are created unless they exist, and a definition is
deleted unless there is none. In all of these a request is made, and one refusal of it is as good as
success, while everything else is told as it is. So each of them can be read from the outcome of the
bare request, in any world, and the refusal in question can be read from the answer.

## Main definitions

* `Error.excuse`: an outcome, if some errors are as good as success.
* `Program.Excuses`: a program makes a request and excuses some of its errors.

## Main results

* `Demo.excuses_create`, `excuses_ensureNamespace`, `excuses_createInstance`, `excuses_delete`,
  `excuses_remove`: what the creations and the deletions excuse.
* `Demo.refusals_tolerated`: which answers are tolerated, and where.
-/

namespace CustomResource

variable {α ε : Type}

/-- An outcome, if some errors are as good as success. Others are told in some way. -/
def Error.excuse (excused : Error → Bool) (tell : Error → ε) : Except Error α → Except ε Unit
  | .ok _ => .ok ()
  | .error e => if excused e then .ok () else .error (tell e)

namespace Program

/-- In every world a program sends what a task sends, and its outcome is that of the task, where
some errors are as good as success. -/
def Excuses (p : Program (Except ε Unit)) (t : Task α) (excused : Error → Bool)
    (tell : Error → ε) : Prop :=
  ∀ (σ : Type) (meaning : Meaning σ) (state : σ),
    p.sent meaning state = t.run.sent meaning state ∧
      (p.run meaning state).1 = Error.excuse excused tell (t.run.run meaning state).1

/-- A call that is settled with some errors excused excuses them. -/
theorem Calls.excuses {r : Request} {read : Answer → Except Api.Error α}
    {settle : Except Api.Error α → Except ε Unit} {p : Program (Except ε Unit)}
    (h : Calls r read settle p) {excused : Error → Bool} {tell : Error → ε}
    (hsettle : ∀ outcome, settle outcome = Error.excuse excused tell (outcome.mapError .request)) :
    p.Excuses (Task.call r read) excused tell := by
  intro σ meaning state
  refine ⟨h.sent_eq state, ?_⟩
  rw [h.run_fst_eq, (Calls.call r read).run_fst_eq, hsettle]

end Program

/-! ### Creations and deletions -/

namespace Demo

variable {k : Kind}

theorem excuses_create (d : Definition) : (Definitions.create d).run.Excuses
    (Task.request Definition.decode (.create .definitions d.encode)) Error.isAlreadyExists id := by
  refine (Definitions.calls_create d).excuses fun outcome => ?_
  cases outcome <;> rfl

theorem excuses_ensureNamespace (name : String) : (ensureNamespace name).run.Excuses
    (Task.request Namespace.decode (.create .namespaces (Namespace.named name).encode))
    Error.isAlreadyExists (.error (some "creating namespace")) := by
  have hcalls : (ensureNamespace name).run.Calls
      (.create .namespaces (Namespace.named name).encode) (Answer.decode Namespace.decode)
      fun outcome => Error.excuse Error.isAlreadyExists (.error (some "creating namespace"))
        (outcome.mapError .request) := by
    rw [ensureNamespace, ExceptT.run_bind]
    refine (Stage.calls_ofTask (Program.Calls.call _ _).attempt).bind fun outcome => ?_
    cases outcome with
    | ok created => exact .log (.done _)
    | error e =>
      by_cases hexists : (Error.request e).isAlreadyExists = true
      · simp only [Error.excuse, Except.mapError, if_pos hexists]
        exact .done _
      · simp only [Error.excuse, Except.mapError, if_neg hexists]
        exact .done _
  exact hcalls.excuses fun _ => rfl

theorem excuses_createInstance (c : Instances k) (o : Object k) : (createInstance c o).run.Excuses
    (c.create o) Error.isAlreadyExists (.error (some "creating instance")) := by
  refine (calls_createInstance c.scope o).excuses fun outcome => ?_
  cases outcome <;> rfl

/-- What is made of a deletion is what is made of the bare request, if a missing definition is
excused. -/
theorem mapError_settleDeletion (outcome : Except Api.Error Unit) :
    (Definitions.settleDeletion outcome).mapError .request =
      Error.excuse Error.isNotFound id (outcome.mapError .request) := by
  cases outcome with
  | ok u => rfl
  | error e =>
    exact apply_ite (Except.mapError Error.request) (e.isNotFound = true) (.ok ()) (.error e)

theorem excuses_delete (name : String) :
    ((fun outcome => outcome.mapError Error.request) <$> Definitions.delete name).Excuses
      (Task.call (.delete .definitions name (DeleteParams.encode {}))
        (Deletion.decode Definition.decode)) Error.isNotFound id := by
  have hcalls : Program.Calls (.delete .definitions name (DeleteParams.encode {}))
      (Deletion.decode Definition.decode)
      (fun outcome => (Definitions.settleDeletion outcome).mapError Error.request)
      ((fun outcome => outcome.mapError Error.request) <$> Definitions.delete name) :=
    (Definitions.calls_delete name).bind fun _ => .done _
  exact hcalls.excuses mapError_settleDeletion

theorem excuses_remove (name : String) : (Definitions.remove name).run.Excuses
    (Task.call (.delete .definitions name (DeleteParams.encode {}))
      (Deletion.decode Definition.decode)) Error.isNotFound id :=
  (Definitions.calls_remove name).excuses mapError_settleDeletion

/-! ### Which answers are tolerated -/

/-- **Which refusals are told apart, and where they are tolerated.** A request fails because
something exists, or because there is no such thing, exactly if it can be sent and is answered with
a refusal of that code, however the answer is read. No other error is one of these, and none is
both. Creating a definition, the namespace or an instance succeeds exactly if the request does or
fails because the object exists, and deleting a definition exactly if the request does or fails
because there is none; every other error is told. -/
theorem refusals_tolerated :
    (∀ (α : Type) (read : Answer → Except Api.Error α), Answer.IsReader read →
      ∀ (r : Request) (σ : Type) (meaning : Meaning σ) (state : σ),
        ((∃ e, ((Task.call r read).run.run meaning state).1 = .error e ∧
            e.isAlreadyExists = true) ↔
          r.check = .ok () ∧ ∃ a, (meaning (.send r none) state).1 = some a ∧ a.Refuses 409) ∧
        ((∃ e, ((Task.call r read).run.run meaning state).1 = .error e ∧ e.isNotFound = true) ↔
          r.check = .ok () ∧ ∃ a, (meaning (.send r none) state).1 = some a ∧ a.Refuses 404)) ∧
    (∀ e : Error,
      (e.isAlreadyExists = true ↔ ∃ r, e = .request (.refused r) ∧ r.code = 409) ∧
      (e.isNotFound = true ↔ ∃ r, e = .request (.refused r) ∧ r.code = 404) ∧
      ¬ (e.isAlreadyExists = true ∧ e.isNotFound = true)) ∧
    (∀ d : Definition, (Definitions.create d).run.Excuses
      (Task.request Definition.decode (.create .definitions d.encode)) Error.isAlreadyExists id) ∧
    (∀ name : String, (ensureNamespace name).run.Excuses
      (Task.request Namespace.decode (.create .namespaces (Namespace.named name).encode))
      Error.isAlreadyExists (.error (some "creating namespace"))) ∧
    (∀ (k : Kind) (c : Instances k) (o : Object k), (createInstance c o).run.Excuses (c.create o)
      Error.isAlreadyExists (.error (some "creating instance"))) ∧
    ∀ name : String,
      ((fun outcome => outcome.mapError Error.request) <$> Definitions.delete name).Excuses
        (Task.call (.delete .definitions name (DeleteParams.encode {}))
          (Deletion.decode Definition.decode)) Error.isNotFound id ∧
      (Definitions.remove name).run.Excuses
        (Task.call (.delete .definitions name (DeleteParams.encode {}))
          (Deletion.decode Definition.decode)) Error.isNotFound id := by
  refine ⟨fun α read hread r σ meaning state => ?_, fun e => ?_, excuses_create,
    excuses_ensureNamespace, fun k c o => excuses_createInstance c o,
    fun name => ⟨excuses_delete name, excuses_remove name⟩⟩
  · simp only [Error.isAlreadyExists_iff, Error.isNotFound_iff]
    exact ⟨Task.exists_code_call_iff hread r 409 meaning state,
      Task.exists_code_call_iff hread r 404 meaning state⟩
  · simp only [Error.isAlreadyExists_iff, Error.isNotFound_iff]
    refine ⟨Error.code?_eq_some_iff, Error.code?_eq_some_iff, fun ⟨hexists, hmissing⟩ => ?_⟩
    exact absurd (hexists.symm.trans hmissing) (by decide)

/-- A world in which each request is answered in one way. -/
def answering (a : Answer) : Meaning Unit
  | .log _ _, _ => ((), ())
  | .now, _ => (.ofMillis 0, ())
  | .sleepUntil _, _ => ((), ())
  | .connect _, _ => ((), ())
  | .send _ _, _ => (some a, ())
  | .startController _, _ => ((), ())
  | .cancelController, _ => ((), ())
  | .joinController, _ => (true, ())
  | .countCached, _ => ((0 : Nat), ())

/-- The least that a refusal has to say. -/
def conflictText : String := "\x7b\"status\":\"Failure\",\"code\":409\x7d"

theorem decode_conflictText :
    Decoder.ofText ErrorResponse.decode conflictText = .ok ⟨"Failure", "", "", 409⟩ := by
  decide +kernel

/-- A creation is accepted even if the server says with its status that it has failed itself, as
long as the body says that the definition exists. -/
theorem conflict_in_body_tolerated :
    (∃ e, ((Task.request Definition.decode
        (.create .definitions Kind.test.definition.encode)).run.run
          (answering (.response 500 conflictText.toUTF8)) ()).1 = .error e ∧
        e.isAlreadyExists = true) ∧
      ((Definitions.create Kind.test.definition).run.run
        (answering (.response 500 conflictText.toUTF8)) ()).1 = .ok () := by
  obtain ⟨hcalls, -, hcreate, -⟩ := refusals_tolerated
  have hrefuses : (Answer.response 500 conflictText.toUTF8).Refuses 409 :=
    .described (by decide) decode_conflictText rfl
  have hposted := (hcalls _ _ (.value Definition.decode)
    (.create .definitions Kind.test.definition.encode) Unit
    (answering (.response 500 conflictText.toUTF8)) ()).1.mpr
      ⟨Request.check_create_definition _, _, rfl, hrefuses⟩
  refine ⟨hposted, ?_⟩
  obtain ⟨e, he, hexists⟩ := hposted
  rw [(hcreate Kind.test.definition Unit _ ()).2, Task.request, he, Error.excuse, if_pos hexists]

end Demo

end CustomResource

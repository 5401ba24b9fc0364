import CustomResource.Proofs.Client.Registration
import Mathlib.Order.BooleanAlgebra.Set

/-!
# What a registration leaves behind

Against a server that stores definitions faithfully one can say what a registration changes there.
One that succeeds leaves the definition stored. One that fails, and can clean up, leaves it deleted:
the cleanup does not ask whether it was this registration that has created the definition, so one
that was stored before is deleted as well.

## Main definitions

* `Action.OnlyLooks`: the actions that change nothing on a server.
* `Definitions.Stores`: a server stores a definition faithfully.

## Main results

* `Definitions.stored_register`: what a registration leaves stored.
* `Definitions.stored_definition_deleted`: a definition that was stored before can be deleted.
-/

namespace CustomResource

/-- The actions that change nothing on a server: messages, the clock, and requests that read. -/
def Action.OnlyLooks : Action → Prop
  | .log _ _ => True
  | .now => True
  | .sleepUntil _ => True
  | .send r _ => r.method = .get
  | _ => False

namespace Definitions

variable {σ : Type}

/-! ### Faithful servers -/

/-- A world in which a server stores a definition faithfully: the definition can be created unless
it is stored, it is not stored any more once it has been deleted, and looking changes nothing. What
is read may be anything, and a deletion may fail. -/
structure Stores (d : Definition) (meaning : Meaning σ) (stored : σ → Set String) : Prop where
  creates (s : σ) (hnew : d.name ∉ stored s) :
    (∃ c, Task.understood (Answer.decode Definition.decode)
      (meaning (.send (.create .definitions d.encode) none) s).1 = .ok c) ∧
    stored (meaning (.send (.create .definitions d.encode) none) s).2 = insert d.name (stored s)
  conflicts (s : σ) (hold : d.name ∈ stored s) :
    (∃ e, Task.understood (Answer.decode Definition.decode)
      (meaning (.send (.create .definitions d.encode) none) s).1 = .error e ∧
      (Error.request e).isAlreadyExists = true) ∧
    stored (meaning (.send (.create .definitions d.encode) none) s).2 = stored s
  deletes (s : σ) (hdeleted : settleDeletion (Task.understood (Deletion.decode Definition.decode)
      (meaning (.send (.delete .definitions d.name (DeleteParams.encode {})) none) s).1) = .ok ()) :
    stored (meaning (.send (.delete .definitions d.name (DeleteParams.encode {})) none) s).2 =
      stored s \ {d.name}
  looks (action : Action) (h : action.OnlyLooks) (s : σ) :
    stored (meaning action s).2 = stored s

variable {d : Definition} {meaning : Meaning σ} {stored : σ → Set String}

/-! ### The three parts of a registration -/

/-- After the creation the definition is stored, whether it was before or not. -/
theorem Stores.run_create (h : Stores d meaning stored) (s : σ) :
    ((create d).run.run meaning s).1 = .ok () ∧
      stored ((create d).run.run meaning s).2 = insert d.name (stored s) := by
  have hlog := fun level message s => h.looks (.log level message) trivial s
  have hr := Request.check_create_definition d.encode
  rw [(calls_create d).run_fst hr, (calls_create d).run_snd hr hlog]
  by_cases hold : d.name ∈ stored s
  · obtain ⟨⟨e, hanswer, hexists⟩, hstored⟩ := h.conflicts s hold
    rw [hanswer, hstored, Set.insert_eq_of_mem hold, settleCreation, if_pos hexists]
    exact ⟨rfl, rfl⟩
  · obtain ⟨⟨c, hanswer⟩, hstored⟩ := h.creates s hold
    rw [hanswer, hstored]
    exact ⟨rfl, rfl⟩

/-- Waiting for a definition changes nothing. -/
theorem performs_wait (name : String) (p : Poll) :
    (p.untilSome fun _ => checkEstablished name).run.Performs Action.OnlyLooks :=
  p.performs_untilSome trivial (fun _ => trivial) (fun _ _ _ hr => hr) fun _ =>
    (calls_checkEstablished name).performs rfl fun _ _ => trivial

/-- A cleanup that can be sent fails as its deletion settles it. -/
theorem run_cleanUp {name : String}
    (hr : (Request.delete .definitions name (DeleteParams.encode {})).check = .ok ())
    {τ : Type} (view : σ → τ)
    (hlog : ∀ level message s, view (meaning (.log level message) s).2 = view s)
    (cause : Error) (s : σ) : ∃ told, view told = view s ∧
      ((cleanUp name cause).run.run meaning s).1 = .error (cleanupError name cause
        (settleDeletion (Task.understood (Deletion.decode Definition.decode)
          (meaning (.send (.delete .definitions name (DeleteParams.encode {})) none) told).1))) ∧
      view ((cleanUp name cause).run.run meaning s).2 =
        view (meaning (.send (.delete .definitions name (DeleteParams.encode {})) none)
          told).2 := by
  obtain ⟨rest, hrun, hcalls⟩ := calls_cleanUp name cause
  refine ⟨((Program.log .info ("cleaning up CRD " ++ name)).run meaning s).2, hlog _ _ s, ?_⟩
  rw [hrun, Program.run_bind]
  exact ⟨hcalls.run_fst hr _, hcalls.run_snd hr hlog _⟩

/-- A cleanup that cannot be sent fails with both errors. -/
theorem run_cleanUp_of_fault {name : String} {failure : Api.Error}
    (hr : (Request.delete .definitions name (DeleteParams.encode {})).check = .error failure)
    (cause : Error) (s : σ) :
    ((cleanUp name cause).run.run meaning s).1 = .error (.cleanup name cause failure) := by
  obtain ⟨rest, hrun, hcalls⟩ := calls_cleanUp name cause
  obtain ⟨fault, rfl⟩ := Request.exists_fault_of_check hr
  rw [hrun, Program.run_bind]
  exact hcalls.run_fst_of_fault hr _

/-- A cleanup always fails; if only with its cause, the definition is not stored any more. -/
theorem Stores.stored_cleanUp (h : Stores d meaning stored) (cause : Error) (s : σ) :
    ∃ e, ((cleanUp d.name cause).run.run meaning s).1 = .error e ∧
      ((∀ name cause failure, e ≠ .cleanup name cause failure) →
        stored ((cleanUp d.name cause).run.run meaning s).2 = stored s \ {d.name}) := by
  cases hr : (Request.delete .definitions d.name (DeleteParams.encode {})).check with
  | error failure =>
    exact ⟨_, run_cleanUp_of_fault hr cause s, fun hother => absurd rfl (hother _ _ _)⟩
  | ok =>
    obtain ⟨told, htold, hvalue, hafter⟩ :=
      run_cleanUp hr stored (fun level message => h.looks (.log level message) trivial) cause s
    refine ⟨_, hvalue, fun hother => ?_⟩
    rw [hafter, ← htold]
    refine h.deletes told ?_
    generalize settleDeletion _ = result at hother ⊢
    cases result with
    | error failure => exact absurd rfl (hother _ _ _)
    | ok u => rfl

/-- What a registration has to do once the definition is stored. -/
theorem Stores.run_register (h : Stores d meaning stored) (p : Poll) (s : σ) :
    ∃ before after, stored after = insert d.name (stored s) ∧
      (register d p).run.run meaning s = (conclude d.name p
        ((p.untilSome fun _ => checkEstablished d.name).run.run meaning before).1).run meaning
          after := by
  obtain ⟨hcreated, hstored⟩ := h.run_create s
  rw [Definitions.run_register, Program.run_bind, hcreated]
  generalize ((create d).run.run meaning s).2 = before at hstored ⊢
  exact ⟨before, _, ((performs_wait d.name p).run_snd meaning h.looks before).trans hstored,
    Program.run_bind meaning _ _ before⟩

/-! ### A server that nobody may read -/

/-- The name of the object that a request sends. -/
def namedIn? (r : Request) : Option String :=
  match r.body with
  | some (_, doc) =>
    match (doc.get? "metadata").bind (·.get? "name") with
    | some (.string name) => some name
    | _ => none
  | none => none

/-- A server that knows its definitions by their names. They can be created and deleted, but nobody
is allowed to read them. -/
def unreadable : Meaning (List String)
  | .log _ _, names => ((), names)
  | .now, names => (.ofMillis 0, names)
  | .sleepUntil _, names => ((), names)
  | .connect _, names => ((), names)
  | .send r _, names =>
    match r.method, namedIn? r with
    | .post, some name =>
      if name ∈ names then (some (.response 409 .empty), names)
      else (some (.response 201 "\x7b\x7d".toUTF8), name :: names)
    | .delete, _ =>
      (some (.response 200 "\x7b\x7d".toUTF8),
        names.filter fun name => Endpoint.definitions.item name ≠ r.path)
    | _, _ => (some (.response 403 .empty), names)
  | .startController _, names => ((), names)
  | .cancelController, names => ((), names)
  | .joinController, names => (true, names)
  | .countCached, names => ((0 : Nat), names)

theorem unreadable_create_of_notMem {names : List String}
    (h : Kind.test.definitionName ∉ names) :
    unreadable (.send (.create .definitions Kind.test.definition.encode) none) names =
      (some (.response 201 "\x7b\x7d".toUTF8), Kind.test.definitionName :: names) := if_neg h

theorem unreadable_create_of_mem {names : List String} (h : Kind.test.definitionName ∈ names) :
    unreadable (.send (.create .definitions Kind.test.definition.encode) none) names =
      (some (.response 409 .empty), names) := if_pos h

theorem unreadable_delete (name : String) (names : List String) :
    unreadable (.send (.delete .definitions name (DeleteParams.encode {})) none) names =
      (some (.response 200 "\x7b\x7d".toUTF8),
        names.filter fun name' => Endpoint.definitions.item name' ≠
          Endpoint.definitions.item name) := rfl

theorem unreadable_of_get {r : Request} (hr : r.method = .get) (deadline : Option Duration)
    (names : List String) :
    unreadable (.send r deadline) names = (some (.response 403 .empty), names) := by
  obtain ⟨method, path, query, body⟩ := r
  obtain rfl : method = .get := hr
  rfl

theorem mem_filter_item {name name' : String} {names : List String} :
    name' ∈ names.filter (fun name' => Endpoint.definitions.item name' ≠
      Endpoint.definitions.item name) ↔ name' ∈ names ∧ name' ≠ name := by
  simp [Endpoint.item_inj]

theorem stores_unreadable :
    Stores Kind.test.definition unreadable (fun names => {name | name ∈ names}) where
  creates names hnew := by
    rw [unreadable_create_of_notMem hnew]
    exact ⟨⟨_, rfl⟩, Set.ext fun _ => List.mem_cons⟩
  conflicts names hold := by
    rw [unreadable_create_of_mem hold]
    exact ⟨⟨_, rfl, rfl⟩, rfl⟩
  deletes names _ := Set.ext fun _ => mem_filter_item
  looks action h names := by
    cases action with
    | send r deadline => rw [unreadable_of_get h]
    | _ => rfl

theorem unreadable_wait (p : Poll) (names : List String) :
    let found := ((p.untilSome fun _ => checkEstablished Kind.test.definition.name).run.run
      unreadable names).1
    found = .ok none ∨ ∃ e, found = .error (.request e) := by
  have hr := Request.check_read_definition Kind.test.isPlainName_definitionName
  intro found
  refine p.untilSome_of_answers (Q := fun found => found = .ok none ∨ ∃ e, found =
    .error (.request e)) (fun _ => calls_checkEstablished Kind.test.definition.name) hr
    (Or.inl rfl) ?_ names
  intro deadline s a ha
  rw [unreadable_of_get rfl] at ha
  obtain rfl := Option.some.inj ha
  exact Or.inr ⟨_, rfl⟩

theorem unreadable_cleanUp (cause : Error) (names : List String) :
    ((cleanUp Kind.test.definitionName cause).run.run unreadable names).1 = .error cause ∧
      Kind.test.definitionName ∉
        ((cleanUp Kind.test.definitionName cause).run.run unreadable names).2 := by
  have hr := Request.check_delete_definition Kind.test.isPlainName_definitionName
    (DeleteParams.encode {})
  have hlog : ∀ level message names, (unreadable (.log level message) names).2 = names :=
    fun _ _ _ => rfl
  obtain ⟨told, -, hvalue, hafter⟩ := run_cleanUp hr id hlog cause names
  rw [unreadable_delete] at hvalue hafter
  refine ⟨hvalue, fun hmem => ?_⟩
  rw [id_eq, id_eq] at hafter
  rw [hafter] at hmem
  exact (mem_filter_item.mp hmem).2 rfl

/-- A registration there fails with what its wait fails with, and leaves no definition. -/
theorem unreadable_register (names : List String) :
    (∃ e, ((register Kind.test.definition .definitionEstablished).run.run unreadable names).1 =
      .error e ∧ ∀ name cause failure, e ≠ .cleanup name cause failure) ∧
    Kind.test.definitionName ∉
      ((register Kind.test.definition .definitionEstablished).run.run unreadable names).2 := by
  obtain ⟨before, after, -, hrun⟩ := stores_unreadable.run_register .definitionEstablished names
  have hfound := unreadable_wait .definitionEstablished before
  rw [hrun]
  revert hfound
  generalize ((Poll.definitionEstablished.untilSome fun _ =>
    checkEstablished Kind.test.definition.name).run.run unreadable before).1 = found
  rintro (rfl | ⟨e, rfl⟩)
  · obtain ⟨hvalue, hdeleted⟩ := unreadable_cleanUp (.notEstablished Kind.test.definitionName
      Poll.definitionEstablished.timeout) after
    exact ⟨⟨_, hvalue, by simp⟩, hdeleted⟩
  · obtain ⟨hvalue, hdeleted⟩ := unreadable_cleanUp (.request e) after
    exact ⟨⟨_, hvalue, by simp⟩, hdeleted⟩

/-! ### The whole -/

/-- **What a registration leaves stored.** -/
theorem stored_register (h : Stores d meaning stored) (p : Poll) (s : σ) :
    (∀ c, ((register d p).run.run meaning s).1 = .ok c →
      stored ((register d p).run.run meaning s).2 = insert d.name (stored s)) ∧
    ∀ e, ((register d p).run.run meaning s).1 = .error e →
      (∀ name cause failure, e ≠ .cleanup name cause failure) →
      stored ((register d p).run.run meaning s).2 = stored s \ {d.name} := by
  obtain ⟨before, after, hstored, hrun⟩ := h.run_register p s
  rw [hrun]
  have hcleaned : ∀ cause,
    (∀ c, ((cleanUp d.name cause).run.run meaning after).1 = .ok c →
      stored ((cleanUp d.name cause).run.run meaning after).2 = insert d.name (stored s)) ∧
    ∀ e, ((cleanUp d.name cause).run.run meaning after).1 = .error e →
      (∀ name cause failure, e ≠ .cleanup name cause failure) →
      stored ((cleanUp d.name cause).run.run meaning after).2 = stored s \ {d.name} := by
    intro cause
    obtain ⟨e', hvalue, hdeleted⟩ := h.stored_cleanUp cause after
    rw [hvalue]
    refine ⟨fun c hc => by simp at hc, fun e he hother => ?_⟩
    obtain rfl := Except.error.inj he
    rw [hdeleted hother, hstored, Set.insert_sdiff_of_mem _ (Set.mem_singleton d.name)]
  rcases ((p.untilSome fun _ => checkEstablished d.name).run.run meaning before).1 with
    e | (_ | c)
  · exact hcleaned e
  · exact hcleaned _
  · exact ⟨fun _ _ => hstored, fun e he => by simp [conclude] at he⟩

/-- The other definitions of such a server are left as they are. -/
theorem stored_register_unreadable :
    Stores Kind.test.definition unreadable (fun names => {name | name ∈ names}) ∧
    ∃ e, ((register Kind.test.definition .definitionEstablished).run.run unreadable
        [Kind.example.definitionName]).1 = .error e ∧
      (∀ name cause failure, e ≠ .cleanup name cause failure) ∧
      {name | name ∈ ((register Kind.test.definition .definitionEstablished).run.run unreadable
        [Kind.example.definitionName]).2} =
        {name | name ∈ [Kind.example.definitionName]} \ {Kind.test.definitionName} := by
  obtain ⟨⟨e, he, hother⟩, -⟩ := unreadable_register [Kind.example.definitionName]
  exact ⟨stores_unreadable, e, he, hother, (stored_register stores_unreadable
    .definitionEstablished [Kind.example.definitionName]).2 e he hother⟩

/-- **A definition that was stored before** is deleted by a registration that has only found it. -/
theorem stored_definition_deleted :
    Stores Kind.test.definition unreadable (fun names => {name | name ∈ names}) ∧
    Kind.test.definitionName ∈ [Kind.test.definitionName] ∧
    (∃ e, ((register Kind.test.definition .definitionEstablished).run.run unreadable
        [Kind.test.definitionName]).1 = .error e ∧
      ∀ name cause failure, e ≠ .cleanup name cause failure) ∧
    Kind.test.definitionName ∉ ((register Kind.test.definition .definitionEstablished).run.run
      unreadable [Kind.test.definitionName]).2 := by
  obtain ⟨hfailed, hdeleted⟩ := unreadable_register [Kind.test.definitionName]
  exact ⟨stores_unreadable, List.mem_singleton_self _, hfailed, hdeleted⟩

end Definitions

end CustomResource

import CustomResource.Proofs.Watch.History

/-!
# Observations take effect as a whole or not at all

`Informer.step?` says at once what comes of an observation. The informer itself takes one step after
the other: it reads the store, gives every object its key, which breaks it off at an object without
a name, and writes. The three sorts of observations do this in three different orders: a written
object needs its key for the comparison and once more for the store, a deleted one only when its
notification is already there, and a new list is compared object by object before it is filed. Here
these steps are spelt out. Whatever was written before a step that breaks off would stay written and
be seen by all readers, so it matters that nothing is: every write stands behind the last key.

## Scope

Readers take no part in this. They see what is current in the shared store at some moment, so what
can be said of all of them at all moments is said of `Shared.current` and `Shared.past`.

## Main definitions

* `Shared`: the store that the informer shares with its readers, with all that was seen in it.
* `Work`: a part of the informer's work, which may break off.
* `Informer.tell`, `Informer.enter`, `Informer.perform`: the work on an observation.
* `Shared.afterAll`: the shared store after some observations, with those that broke off.

## Main results

* `Informer.runOn_tell`, `runOn_enter`: what is read is not written, and what is written comes last.
* `Informer.runOn_perform`: the work comes to what `step?` says.
* `Informer.perform_all_or_nothing`: the statement for all reachable stores.
-/

namespace CustomResource

variable {k : Kind}

/-! ### The shared store -/

/-- The store that the informer shares with its readers: what is to be seen in it, and what was to
be seen before, the latest first. -/
structure Shared (k : Kind) where
  current : Store k
  past : List (Store k)

namespace Shared

/-- The shared store at the beginning. -/
def start : Shared k := ⟨.empty, []⟩

/-- The shared store after a write. -/
def write (sh : Shared k) (s : Store k) : Shared k := ⟨s, sh.current :: sh.past⟩

end Shared

/-! ### Work

The store lies below the layer of failure, so a part that breaks off leaves the store as it is at
that moment. Nothing is taken back. -/

/-- A part of the informer's work: it reads and writes the shared store, and may break off. -/
abbrev Work (k : Kind) (α : Type) : Type := OptionT (StateM (Shared k)) α

namespace Work

variable {α β : Type}

/-- What work yields, unless it breaks off, and the shared store after it. -/
def runOn (w : Work k α) (sh : Shared k) : Option α × Shared k := (OptionT.run w).run sh

/-- What is to be seen in the store. -/
def store : Work k (Store k) := do return (← get).current

/-- Writes the store. -/
def write (s : Store k) : Work k Unit := modify (·.write s)

/-- The key of an object. Work breaks off at an object without a name. -/
def keyOf (o : Object k) : Work k Key := OptionT.mk (pure o.key?)

/-- Goes on with what a part has yielded. -/
def andThen (next : α → Work k β) : Option α × Shared k → Option β × Shared k
  | (some a, sh) => (next a).runOn sh
  | (none, sh) => (none, sh)

@[simp] theorem runOn_pure (a : α) (sh : Shared k) : (pure a : Work k α).runOn sh = (some a, sh) :=
  rfl

theorem runOn_bind (w : Work k α) (next : α → Work k β) (sh : Shared k) :
    (w >>= next).runOn sh = andThen next (w.runOn sh) := by
  have hrun : (w >>= next).runOn sh = (fun r : Option α × Shared k =>
      StateT.run (match r.1 with | some a => OptionT.run (next a) | none => pure none) r.2)
        (w.runOn sh) := rfl
  rw [hrun]
  obtain ⟨outcome, sh'⟩ := w.runOn sh
  cases outcome <;> rfl

@[simp] theorem runOn_store (sh : Shared k) : store.runOn sh = (some sh.current, sh) := rfl

@[simp] theorem runOn_write (s : Store k) (sh : Shared k) :
    (write s).runOn sh = (some (), sh.write s) := rfl

@[simp] theorem runOn_keyOf (o : Object k) (sh : Shared k) : (keyOf o).runOn sh = (o.key?, sh) :=
  rfl

/-- Work that yields what can be said beforehand, and then something that is made of it. -/
theorem runOn_bind_pure {w : Work k α} {sh sh' : Shared k} {outcome : Option α}
    (h : w.runOn sh = (outcome, sh')) (f : α → β) :
    (w >>= fun a => pure (f a)).runOn sh = (outcome.map f, sh') := by
  rw [runOn_bind, h]
  cases outcome <;> rfl

end Work

namespace Informer

open Work

/-! ### The work on an observation -/

/-- Gives every object its key. -/
def fileAll : List (Object k) → Work k (List (Key × Object k))
  | [] => return []
  | o :: os => do
    let key ← keyOf o
    let rest ← fileAll os
    return (key, o) :: rest

/-- Compares the objects of a new list, one after the other, with what is left of the entries that
were known before. -/
def compareAll : List (Key × Object k) → List (Object k) → Work k (List (Notification k))
  | previous, [] => return previous.map fun e => .deleted e.2
  | previous, o :: os => do
    let key ← keyOf o
    let rest ← compareAll (previous.filter fun e => e.1 ≠ key) os
    return notice o (previous.lookup key) ++ rest

/-- Works out the notifications of an observation against the store as it is. The objects in the
store are given their keys anew. -/
def tell : Observation k → Work k (List (Notification k))
  | .applied o => do
    let s ← store
    let key ← keyOf o
    return [match s.find? key with | none => .added o | some old => .updated old o]
  | .deleted o => return [.deleted o]
  | .restarted os => do
    let s ← store
    let previous ← fileAll s.objects
    compareAll previous os

/-- Puts an observation into the store. -/
def enter : Observation k → Work k Unit
  | .applied o => do
    let key ← keyOf o
    let s ← store
    write (s.put key o)
  | .deleted o => do
    let key ← keyOf o
    let s ← store
    write (s.erase key)
  | .restarted os => do
    let entries ← fileAll os
    write (.ofList entries)

/-- The work on an observation: first the notifications, then the store. -/
def perform (e : Observation k) : Work k (List (Notification k)) := do
  let ns ← tell e
  enter e
  return ns

theorem runOn_fileAll (os : List (Object k)) (sh : Shared k) :
    (fileAll os).runOn sh = (keyed? os, sh) := by
  induction os with
  | nil => rfl
  | cons o os ih =>
    rw [fileAll, runOn_bind, runOn_keyOf, keyed?]
    cases hkey : o.key? with
    | none => rfl
    | some key =>
      rw [andThen, runOn_bind_pure ih]
      cases keyed? os <;> rfl

theorem runOn_compareAll (previous : List (Key × Object k)) (os : List (Object k)) (sh : Shared k) :
    (compareAll previous os).runOn sh = ((keyed? os).map (diff previous), sh) := by
  induction os generalizing previous with
  | nil => rfl
  | cons o os ih =>
    rw [compareAll, runOn_bind, runOn_keyOf, keyed?]
    cases hkey : o.key? with
    | none => rfl
    | some key =>
      rw [andThen, runOn_bind_pure (ih _)]
      cases keyed? os with
      | none => rfl
      | some entries => simp [diff_cons]

/-- The keys that the objects of a store are given are those under which they stand. -/
theorem keyed?_objects {s : Store k} (h : s.Filed) : keyed? s.objects = some s.entries := by
  obtain ⟨entries⟩ := s
  induction entries with
  | nil => rfl
  | cons e rest ih =>
    obtain ⟨hhead, hrest⟩ := List.forall_mem_cons.mp h
    have hkeyed : keyed? (rest.map (·.2)) = some rest := ih hrest
    simp [Store.objects, keyed?, hhead, hkeyed]

/-- **Working out the notifications** writes nothing, and yields those of `step?` where there is a
step. Where there is none it need not have broken off: a deletion is told before its key is looked
at. -/
theorem runOn_tell {sh : Shared k} (h : sh.current.Filed) (e : Observation k) :
    ∃ outcome, (tell e).runOn sh = (outcome, sh) ∧
      ∀ ns after, step? sh.current e = some (ns, after) → outcome = some ns := by
  cases e with
  | applied o =>
    rw [tell, runOn_bind, runOn_store, andThen, runOn_bind_pure (runOn_keyOf o sh)]
    refine ⟨_, rfl, fun ns after hstep => ?_⟩
    cases step?_eq_some_iff.mp hstep with
    | added hkey hfind => rw [hkey, Option.map_some, hfind]
    | updated hkey hfind => rw [hkey, Option.map_some, hfind]
  | deleted o =>
    refine ⟨_, rfl, fun ns after hstep => ?_⟩
    cases step?_eq_some_iff.mp hstep
    rfl
  | restarted os =>
    rw [tell, runOn_bind, runOn_store, andThen, runOn_bind, runOn_fileAll, keyed?_objects h,
      andThen, runOn_compareAll]
    refine ⟨_, rfl, fun ns after hstep => ?_⟩
    cases step?_eq_some_iff.mp hstep with
    | restarted hkeyed => rw [hkeyed, Option.map_some]

/-- **Putting an observation into the store** is one write, the last thing that is done, or none. -/
theorem runOn_enter (e : Observation k) (sh : Shared k) :
    (enter e).runOn sh = match step? sh.current e with
      | some (_, after) => (some (), sh.write after)
      | none => (none, sh) := by
  cases e with
  | applied o =>
    rw [enter, runOn_bind, runOn_keyOf, step?]
    cases hkey : o.key? with
    | none => rfl
    | some key =>
      rw [andThen, runOn_bind, runOn_store, andThen, runOn_write, Option.map_some]
      cases sh.current.find? key <;> rfl
  | deleted o =>
    rw [enter, runOn_bind, runOn_keyOf, step?]
    cases hkey : o.key? with
    | none => rfl
    | some key => rw [andThen, runOn_bind, runOn_store, andThen, runOn_write, Option.map_some]
  | restarted os =>
    rw [enter, runOn_bind, runOn_fileAll, step?]
    cases keyed? os with
    | none => rfl
    | some entries => rw [andThen, runOn_write, Option.map_some]

/-- **The work comes to what `step?` says.** Where this says that there is no step, the work breaks
off and has written nothing. -/
theorem runOn_perform {sh : Shared k} (h : sh.current.Filed) (e : Observation k) :
    (perform e).runOn sh = match step? sh.current e with
      | some (ns, after) => (some ns, sh.write after)
      | none => (none, sh) := by
  obtain ⟨outcome, htell, htold⟩ := runOn_tell h e
  rw [perform, runOn_bind, htell]
  cases hstep : step? sh.current e with
  | some result =>
    obtain ⟨ns, after⟩ := result
    rw [htold ns after hstep, andThen, runOn_bind, runOn_enter, hstep]
    rfl
  | none =>
    cases outcome with
    | none => rfl
    | some ns =>
      rw [andThen, runOn_bind, runOn_enter, hstep]
      rfl

/-! ### What breaks the work off -/

instance (e : Observation k) : Decidable e.Named :=
  inferInstanceAs (Decidable (∀ o ∈ e.objects, o.metadata.name.isSome = true))

theorem Step.named {s s' : Store k} {e : Observation k} {ns : List (Notification k)}
    (h : Step s e ns s') : e.Named := by
  have hname : ∀ {o : Object k} {key : Key}, o.key? = some key → o.metadata.name.isSome :=
    fun hkey => Option.isSome_of_eq_some (Object.key?_eq_some_iff.mp hkey).1
  cases h with
  | added hkey => exact List.forall_mem_singleton.mpr (hname hkey)
  | updated hkey => exact List.forall_mem_singleton.mpr (hname hkey)
  | deleted hkey => exact List.forall_mem_singleton.mpr (hname hkey)
  | restarted hkeyed =>
    obtain ⟨rfl, hfiled⟩ := keyed?_eq_some hkeyed
    exact List.forall_mem_map.mpr fun e he => hname (hfiled e he)

/-- There is no step exactly if some object has no name, wherever it stands. -/
theorem step?_eq_none_iff {s : Store k} {e : Observation k} :
    step? s e = none ↔ ∃ o ∈ e.objects, o.metadata.name = none := by
  constructor
  · intro hnone
    by_contra hall
    obtain ⟨ns, s', hstep⟩ := exists_step s (e := e) fun o ho =>
      Option.isSome_iff_ne_none.mpr fun hname => hall ⟨o, ho, hname⟩
    simp [hstep] at hnone
  · rintro ⟨o, ho, hname⟩
    refine Option.eq_none_iff_forall_ne_some.mpr fun ⟨ns, s'⟩ hstep => ?_
    simpa [hname] using (step?_eq_some_iff.mp hstep).named o ho

end Informer

/-! ### Reachable stores -/

namespace Shared

open Informer

/-- The shared store after some observations, some of which may have broken the work off. -/
def afterAll (history : List (Observation k)) : Shared k :=
  history.foldl (fun sh e => ((perform e).runOn sh).2) start

theorem afterAll_append_singleton (history : List (Observation k)) (e : Observation k) :
    afterAll (history ++ [e]) = ((perform e).runOn (afterAll history)).2 := by
  rw [afterAll, List.foldl_append]
  rfl

/-- **What has broken off** might as well not have been observed: the store is that of a run over
all other observations. -/
theorem exists_run_afterAll (history : List (Observation k)) :
    ∃ ns, run? .empty (history.filter fun e => e.Named) =
      some (ns, (afterAll history).current) := by
  induction history using List.reverseRecOn with
  | nil => exact ⟨[], rfl⟩
  | append_singleton history e ih =>
    obtain ⟨told, hrun⟩ := ih
    rw [afterAll_append_singleton, runOn_perform (run_filed hrun), List.filter_append]
    cases hstep : step? (afterAll history).current e with
    | none =>
      have hnot : ¬ e.Named := fun hnamed => by
        obtain ⟨o, ho, hname⟩ := step?_eq_none_iff.mp hstep
        simpa [hname] using hnamed o ho
      refine ⟨told, ?_⟩
      rwa [List.filter_cons_of_neg (by simpa using hnot), List.filter_nil, List.append_nil]
    | some result =>
      obtain ⟨ns, after⟩ := result
      have hmade := step?_eq_some_iff.mp hstep
      refine ⟨told ++ ns, ?_⟩
      rw [List.filter_cons_of_pos (by simpa using hmade.named), List.filter_nil]
      exact run?_append.mpr ⟨told, _, ns, hrun, run?_singleton_eq_some_iff.mpr hmade, rfl⟩

/-- In a shared store that can be reached every object stands under its own key. -/
theorem filed_afterAll (history : List (Observation k)) : (afterAll history).current.Filed := by
  obtain ⟨ns, hrun⟩ := exists_run_afterAll history
  exact run_filed hrun

end Shared

/-! ### All or nothing -/

namespace Informer

/-- **All or nothing.** Whatever has been observed so far, and whether or not the work on it broke
off, the work on an observation breaks off exactly if one of its objects has no name. Then the
shared store is what it was, and nothing else was to be seen in it in between. Otherwise the store
has been written once, and holds what the observation has left under each key that it concerns, and
what it held before under all others. -/
theorem perform_all_or_nothing (history : List (Observation k)) (e : Observation k) :
    let before := Shared.afterAll history
    let outcome := ((perform e).runOn before).1
    let after := ((perform e).runOn before).2
    (outcome = none ↔ ∃ o ∈ e.objects, o.metadata.name = none) ∧
    (outcome = none → step? before.current e = none ∧ after = before) ∧
    ∀ ns, outcome = some ns → ∃ s, step? before.current e = some (ns, s) ∧
      after = before.write s ∧
      ∀ key, s.get? key = if e.concerns key then e.leaves? key else before.current.get? key := by
  intro before outcome after
  have hperform := runOn_perform (Shared.filed_afterAll history) e
  rw [← step?_eq_none_iff (s := before.current)]
  cases hstep : step? before.current e with
  | none =>
    rw [hstep] at hperform
    have houtcome : outcome = none := congrArg Prod.fst hperform
    exact ⟨by simp [houtcome], fun _ => ⟨rfl, congrArg Prod.snd hperform⟩, by simp [houtcome]⟩
  | some result =>
    obtain ⟨ns, s⟩ := result
    rw [hstep] at hperform
    have houtcome : outcome = some ns := congrArg Prod.fst hperform
    refine ⟨by simp [houtcome], by simp [houtcome], fun ns' hns => ?_⟩
    obtain rfl : ns = ns' := Option.some.inj (houtcome.symm.trans hns)
    exact ⟨s, rfl, congrArg Prod.snd hperform, (step?_eq_some_iff.mp hstep).get?⟩

/-- An object that has lost its name. -/
def nameless : Object .test := { spec := Spec.sample .test, metadata := {} }

/-- A new list with an object without a name behind two others, one of which has changed. -/
def spoiltList : Observation .test :=
  .restarted [.sample "crd" "x" "2" "a", .sample "crd" "y" "3" "b", nameless]

/-- The two good objects of a spoilt list are not in the store, although they stand before the one
without a name; a list of them alone is, also after the spoilt one. -/
theorem spoiltList_all_or_nothing :
    let before := Shared.afterAll [.applied (.sample "crd" "x" "1" "a"), spoiltList]
    ((perform spoiltList).runOn before).2 = before ∧
    before.current.get? ⟨some "crd", "x"⟩ = some (.sample "crd" "x" "1" "a") ∧
    ∃ s, ((perform (.restarted [.sample "crd" "y" "3" "b"])).runOn before).2 = before.write s ∧
      s.get? ⟨some "crd", "x"⟩ = none ∧
      s.get? ⟨some "crd", "y"⟩ = some (.sample "crd" "y" "3" "b") := by
  obtain ⟨hspoilt, hnothing, -⟩ :=
    perform_all_or_nothing [.applied (.sample "crd" "x" "1" "a"), spoiltList] spoiltList
  obtain ⟨hgood, -, hall⟩ := perform_all_or_nothing
    [.applied (.sample "crd" "x" "1" "a"), spoiltList] (.restarted [.sample "crd" "y" "3" "b"])
  have hbroken := hspoilt.mpr ⟨nameless, by simp [spoiltList, Observation.objects], rfl⟩
  refine ⟨(hnothing hbroken).2, rfl, ?_⟩
  obtain ⟨ns, hns⟩ := Option.ne_none_iff_exists'.mp
    (mt hgood.mp (by simp [Observation.objects, Object.sample]))
  obtain ⟨s, -, hwritten, hfound⟩ := hall ns hns
  exact ⟨s, hwritten, hfound _, hfound _⟩

end Informer

end CustomResource

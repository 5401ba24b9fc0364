import CustomResource.Proofs.Watch.Increments

/-!
# Which objects are taken for the same

An object is known by its name and its namespace. A new list is compared with the store by exactly
that. A single object that has been written is looked up by `Store.find?`, which takes an object of
the same name without a namespace if there is nothing under the key itself. So an object that is new
is told as an update of another one, if its namesake without a namespace is known.

## Main definitions

* `Object.SameAs`, `NamesakeOf`: the same name and namespace, and the same name without a namespace.
* `Informer.ToldByIdentity`: a notification of an object goes by its name and namespace.

## Main results

* `Informer.mem_diff_iff`: a new list is compared by identity.
* `Informer.toldByIdentity_iff_no_namesake`: exactly when an object that has been written is told by
  its identity.
-/

namespace CustomResource

variable {k : Kind}

namespace Object

/-- Two objects have the same name and the same namespace. -/
def SameAs (c o : Object k) : Prop :=
  c.metadata.name = o.metadata.name ∧ c.metadata.namespaceName = o.metadata.namespaceName

/-- An object has the name of another one, and no namespace. -/
def NamesakeOf (c o : Object k) : Prop :=
  c.metadata.name = o.metadata.name ∧ c.metadata.namespaceName = none

theorem key?_eq_some_iff_sameAs {o c : Object k} {key : Key} (hkey : o.key? = some key) :
    c.key? = some key ↔ c.SameAs o := by
  obtain ⟨hname, hscope⟩ := key?_eq_some_iff.mp hkey
  rw [key?_eq_some_iff, SameAs, hname, hscope]

theorem key?_eq_some_iff_namesakeOf {o c : Object k} {key : Key} (hkey : o.key? = some key) :
    c.key? = some key.withoutScope ↔ c.NamesakeOf o := by
  obtain ⟨hname, -⟩ := key?_eq_some_iff.mp hkey
  rw [key?_eq_some_iff, NamesakeOf, hname]
  rfl

end Object

namespace Store

variable {s : Store k} (hordered : s.Ordered) (hfiled : s.Filed) {o c : Object k} {key : Key}

include hordered hfiled

/-- Under the key of an object stands the known object of its name and namespace. -/
theorem get?_eq_some_iff_sameAs (hkey : o.key? = some key) :
    s.get? key = some c ↔ c ∈ s.objects ∧ c.SameAs o := by
  rw [get?_eq_some_iff_of_filed hordered hfiled, Object.key?_eq_some_iff_sameAs hkey]

/-- Under its key without the namespace stands the known namesake of an object. -/
theorem get?_withoutScope_eq_some_iff_namesakeOf (hkey : o.key? = some key) :
    s.get? key.withoutScope = some c ↔ c ∈ s.objects ∧ c.NamesakeOf o := by
  rw [get?_eq_some_iff_of_filed hordered hfiled, Object.key?_eq_some_iff_namesakeOf hkey]

end Store

namespace Informer

/-! ### New lists -/

theorem mem_notice_added_iff {o listed : Object k} {old : Option (Object k)} :
    .added o ∈ notice listed old ↔ listed = o ∧ old = none := by
  cases old with
  | none => simp [notice, eq_comm]
  | some old => simp [notice_eq_ite, announce]

theorem mem_notice_updated_iff {o c listed : Object k} {old : Option (Object k)} :
    .updated c o ∈ notice listed old ↔
      listed = o ∧ old = some c ∧ c.metadata.resourceVersion ≠ o.metadata.resourceVersion := by
  cases old with
  | none => simp [notice]
  | some old =>
    rw [notice]
    split
    · next hmoved =>
      rw [List.mem_singleton, Notification.updated.injEq, Option.some.injEq]
      constructor
      · rintro ⟨rfl, rfl⟩
        exact ⟨rfl, rfl, hmoved⟩
      · rintro ⟨rfl, rfl, -⟩
        exact ⟨rfl, rfl⟩
    · next hsame =>
      refine iff_of_false List.not_mem_nil ?_
      rintro ⟨rfl, hold, hmoved⟩
      exact hsame (Option.some.inj hold ▸ hmoved)

/-- **A new list is compared by identity.** In the comparison with a list in which no key occurs
twice, a listed object is told as added if no known object has its name and namespace. It is told as
an update of the one that has, if that has another version. -/
theorem mem_diff_iff {s : Store k} (hordered : s.Ordered) (hfiled : s.Filed)
    {os : List (Object k)} {entries : List (Key × Object k)} (h : keyed? os = some entries)
    (hnodup : (entries.map (·.1)).Nodup) {o : Object k} (ho : o ∈ os) :
    (.added o ∈ diff s.entries entries ↔ ∀ c ∈ s.objects, ¬ c.SameAs o) ∧
      ∀ c, .updated c o ∈ diff s.entries entries ↔ c ∈ s.objects ∧ c.SameAs o ∧
        c.metadata.resourceVersion ≠ o.metadata.resourceVersion := by
  have hfound : ∀ c, o.key?.bind s.get? = some c ↔ c ∈ s.objects ∧ c.SameAs o := by
    obtain ⟨hmap, hkeys⟩ := keyed?_eq_some h
    obtain ⟨e, he, rfl⟩ := List.mem_map.mp (hmap ▸ ho)
    intro c
    rw [hkeys e he, Option.bind_some, Store.get?_eq_some_iff_sameAs hordered hfiled (hkeys e he)]
  rw [diff_of_keyed? hfiled h hnodup]
  constructor
  · calc .added o ∈ (os.flatMap fun o => notice o (o.key?.bind s.get?)) ++
          (vanished s os).map .deleted
      _ ↔ o.key?.bind s.get? = none := by simp [mem_notice_added_iff, ho]
      _ ↔ ∀ c ∈ s.objects, ¬ c.SameAs o := by
        simp [Option.eq_none_iff_forall_ne_some, hfound]
  · intro c
    calc .updated c o ∈ (os.flatMap fun o => notice o (o.key?.bind s.get?)) ++
          (vanished s os).map .deleted
      _ ↔ o.key?.bind s.get? = some c ∧
          c.metadata.resourceVersion ≠ o.metadata.resourceVersion := by
        simp [mem_notice_updated_iff, ho]
      _ ↔ c ∈ s.objects ∧ c.SameAs o ∧
          c.metadata.resourceVersion ≠ o.metadata.resourceVersion := by
        rw [hfound, and_assoc]

/-! ### Single objects -/

/-- A notification of an object goes by its name and its namespace: it says that the object has been
added if no known object has both, and else that the one which has them has been updated. -/
structure ToldByIdentity (s : Store k) (o : Object k) (n : Notification k) : Prop where
  added : n = .added o ↔ ∀ c ∈ s.objects, ¬ c.SameAs o
  updated : ∀ c ∈ s.objects, c.SameAs o → n = .updated c o

theorem toldByIdentity_announce_iff {s : Store k} {o : Object k} {exact found : Option (Object k)}
    (hexact : ∀ c, exact = some c ↔ c ∈ s.objects ∧ c.SameAs o) :
    ToldByIdentity s o (announce o found) ↔ found = exact := by
  cases exact with
  | none =>
    have hnone : ∀ c ∈ s.objects, ¬ c.SameAs o := fun c hc hsame =>
      nomatch (hexact c).mpr ⟨hc, hsame⟩
    cases found with
    | none =>
      exact iff_of_true ⟨iff_of_true rfl hnone, fun c hc hsame => absurd hsame (hnone c hc)⟩ rfl
    | some old => exact iff_of_false (fun h => by cases h.added.mpr hnone) (by simp)
  | some c =>
    obtain ⟨hc, hsame⟩ := (hexact c).mp rfl
    cases found with
    | none => exact iff_of_false (fun h => by cases h.updated c hc hsame) (by simp)
    | some old =>
      constructor
      · intro h
        cases h.updated c hc hsame
        rfl
      · intro heq
        obtain rfl : old = c := Option.some.inj heq
        have honly : ∀ c' ∈ s.objects, c'.SameAs o → old = c' := fun c' hc' hsame' =>
          Option.some.inj ((hexact c').mpr ⟨hc', hsame'⟩)
        exact ⟨iff_of_false (fun h => by cases h) fun hnone => hnone old hc hsame,
          fun c' hc' hsame' => by rw [← honly c' hc' hsame']; rfl⟩

/-- **When an object that has been written goes by its identity.** In any store that can be
reached, a named object is told by its name and namespace exactly if a known object has both, or no
known object has the name alone. Otherwise it is told as an update of that namesake. A new list, in
contrast, is always compared by name and namespace. -/
theorem toldByIdentity_iff_no_namesake {history : List (Observation k)}
    {told : List (Notification k)} {s : Store k} (hrun : run? .empty history = some (told, s))
    {o : Object k} (hnamed : o.metadata.name.isSome) :
    (∃ n after, step? s (.applied o) = some ([n], after) ∧
      (ToldByIdentity s o n ↔
        (∃ c ∈ s.objects, c.SameAs o) ∨ ∀ c ∈ s.objects, ¬ c.NamesakeOf o) ∧
      (¬ ToldByIdentity s o n → ∃ c ∈ s.objects, c.NamesakeOf o ∧ n = .updated c o)) ∧
    ∀ os, o ∈ os → (∀ o ∈ os, o.metadata.name.isSome) → (os.map Object.key?).Nodup →
      ∃ ns after, step? s (.restarted os) = some (ns, after) ∧
        (.added o ∈ ns ↔ ∀ c ∈ s.objects, ¬ c.SameAs o) ∧
        ∀ c, .updated c o ∈ ns ↔ c ∈ s.objects ∧ c.SameAs o ∧
          c.metadata.resourceVersion ≠ o.metadata.resourceVersion := by
  have hordered := run_ordered hrun
  have hfiled := run_filed hrun
  obtain ⟨key, hkey⟩ := Option.isSome_iff_exists.mp (o.isSome_key?.trans hnamed)
  have hexact : ∀ c, s.get? key = some c ↔ c ∈ s.objects ∧ c.SameAs o := fun _ =>
    Store.get?_eq_some_iff_sameAs hordered hfiled hkey
  have hnamesake : ∀ c, s.get? key.withoutScope = some c ↔ c ∈ s.objects ∧ c.NamesakeOf o :=
    fun _ => Store.get?_withoutScope_eq_some_iff_namesakeOf hordered hfiled hkey
  constructor
  · refine ⟨_, _, step?_applied s hkey, ?_, fun hnot => ?_⟩
    · rw [toldByIdentity_announce_iff hexact, Store.find?_eq_get?_iff, Option.isSome_iff_exists,
        Option.eq_none_iff_forall_ne_some]
      simp [hexact, hnamesake]
    · rw [toldByIdentity_announce_iff hexact, Store.find?_eq_get?_iff, not_or] at hnot
      obtain ⟨hmissing, hother⟩ := hnot
      obtain ⟨c, hc⟩ := Option.ne_none_iff_exists'.mp hother
      obtain ⟨hmem, hsame⟩ := (hnamesake c).mp hc
      refine ⟨c, hmem, hsame, ?_⟩
      rw [Store.find?, Option.not_isSome_iff_eq_none.mp hmissing, Option.none_or, hc]
      rfl
  · intro os ho hnames hdistinct
    obtain ⟨entries, hkeyed⟩ := exists_keyed hnames
    have hstep := step?_eq_some_iff.mpr (Step.restarted (s := s) hkeyed)
    exact ⟨_, _, hstep, mem_diff_iff hordered hfiled hkeyed (nodup_of_keyed? hkeyed hdistinct) ho⟩

/-- An object without a namespace. -/
def stray : Object .test where
  metadata := { name := some "x", resourceVersion := some "1" }
  spec := Spec.sample .test

/-- A store of an object without a namespace. -/
def strayKnown : Store .test where
  entries := [(⟨none, "x"⟩, stray)]

/-- An object of the same name in a namespace. -/
def newcomer : Object .test := .sample "crd" "x" "2" "a"

theorem newcomer_beside_stray :
    (∃ told, run? .empty [.applied stray] = some (told, strayKnown)) ∧
      newcomer.metadata.name.isSome ∧
      (∃ n after, step? strayKnown (.applied newcomer) = some ([n], after) ∧
        (ToldByIdentity strayKnown newcomer n ↔ (∃ c ∈ strayKnown.objects, c.SameAs newcomer) ∨
          ∀ c ∈ strayKnown.objects, ¬ c.NamesakeOf newcomer) ∧
        (¬ ToldByIdentity strayKnown newcomer n →
          ∃ c ∈ strayKnown.objects, c.NamesakeOf newcomer ∧ n = .updated c newcomer)) ∧
      ∀ os, newcomer ∈ os → (∀ o ∈ os, o.metadata.name.isSome) → (os.map Object.key?).Nodup →
        ∃ ns after, step? strayKnown (.restarted os) = some (ns, after) ∧
          (.added newcomer ∈ ns ↔ ∀ c ∈ strayKnown.objects, ¬ c.SameAs newcomer) ∧
          ∀ c, .updated c newcomer ∈ ns ↔ c ∈ strayKnown.objects ∧ c.SameAs newcomer ∧
            c.metadata.resourceVersion ≠ newcomer.metadata.resourceVersion := by
  have hrun : run? .empty [.applied stray] = some ([.added stray], strayKnown) := rfl
  exact ⟨⟨_, hrun⟩, rfl, toldByIdentity_iff_no_namesake hrun rfl⟩

/-- No known object has the name and the namespace of the one that is written, and still it is told
as an update. The same object in a new list is told as added. -/
theorem newcomer_told_as_update :
    run? .empty [.applied stray] = some ([.added stray], strayKnown) ∧
      (∀ c ∈ strayKnown.objects, ¬ c.SameAs newcomer) ∧
      (∃ after, step? strayKnown (.applied newcomer) = some ([.updated stray newcomer], after)) ∧
      ¬ ToldByIdentity strayKnown newcomer (.updated stray newcomer) ∧
      ∃ after, step? strayKnown (.restarted [newcomer]) =
        some ([.added newcomer, .deleted stray], after) := by
  have hother : ∀ c ∈ strayKnown.objects, ¬ c.SameAs newcomer := by
    simp [strayKnown, Store.objects, Object.SameAs, stray, newcomer, Object.sample]
  refine ⟨rfl, hother, ⟨_, rfl⟩, fun h => ?_, _, rfl⟩
  cases h.added.mpr hother

end Informer

end CustomResource

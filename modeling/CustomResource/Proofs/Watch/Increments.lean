import CustomResource.Proofs.Watch.Relist

/-!
# A new list as the changes it consists of

A new list could have been observed as single changes: the objects in it that are new or have
another version are written, in order, and the objects that are missing from it are deleted. Both
ways tell the same, and afterwards the stores have the same keys with the same versions. They need
not have the same objects, since a listed object whose version is known already replaces the known
one, and is no change.

A single change is looked up in the store as the changes before it have left it, while a list is
compared with the store as it was at the beginning. What makes up for this is that the listed
objects which are still to be written have other keys than those that have been.

## Main definitions

* `Informer.announce`: how an object that has been written is told.
* `Informer.isNews`, `vanished`: what a new list changes, and what is missing from it.
* `Informer.increments`: the changes that a new list consists of.

## Main results

* `Informer.run_applied_news`, `run_deletions`: what the changes tell and leave behind.
* `Informer.relist_eq_increments`: a new list does what its changes do.
-/

namespace CustomResource.Informer

variable {k : Kind}

/-! ### Single changes -/

/-- How an object that has been written is told, by what is found under its key. -/
def announce (o : Object k) : Option (Object k) → Notification k
  | none => .added o
  | some old => .updated old o

theorem step?_applied (s : Store k) {o : Object k} {key : Key} (hkey : o.key? = some key) :
    step? s (.applied o) = some ([announce o (s.find? key)], s.put key o) := by
  rw [step?, hkey, Option.map_some]
  cases s.find? key <;> rfl

/-- A listed object is told like one that has been written, unless its version is known. -/
theorem notice_eq_ite (o : Object k) (old : Option (Object k)) :
    notice o old =
      if old.map (·.metadata.resourceVersion) ≠ some o.metadata.resourceVersion then
        [announce o old]
      else [] := by
  cases old with
  | none => rfl
  | some old => simp [notice, announce]

/-! ### The changes of a list -/

/-- Whether a listed object is new, or has another version than the known one. -/
def isNews (s : Store k) (o : Object k) : Bool :=
  (o.key?.bind s.get?).map (·.metadata.resourceVersion) ≠ some o.metadata.resourceVersion

/-- The known objects that are missing from a list. -/
def vanished (s : Store k) (os : List (Object k)) : List (Object k) :=
  s.objects.filter fun c => c.key? ∉ os.map Object.key?

/-- The changes that a new list consists of: what is news is written, and then the objects that have
gone are deleted. -/
def increments (s : Store k) (os gone : List (Object k)) : List (Observation k) :=
  (os.filter (isNews s)).map .applied ++ gone.map .deleted

theorem vanished_eq {s : Store k} (hfiled : s.Filed) {os : List (Object k)}
    {entries : List (Key × Object k)} (h : keyed? os = some entries) :
    (s.entries.filter fun e => e.1 ∉ entries.map (·.1)).map (·.2) = vanished s os := by
  obtain ⟨rfl, hkeys⟩ := keyed?_eq_some h
  have hlisted : (entries.map (·.2)).map Object.key? = (entries.map (·.1)).map some := by
    rw [List.map_map, List.map_map]
    exact List.map_congr_left fun e he => hkeys e he
  rw [vanished, Store.objects, List.filter_map, hlisted]
  refine congrArg _ (List.filter_congr fun e he => ?_)
  simp [hfiled e he]

theorem mem_keyed?_iff {os : List (Object k)} {entries : List (Key × Object k)}
    (h : keyed? os = some entries) {key : Key} {o : Object k} :
    (key, o) ∈ entries ↔ o ∈ os ∧ o.key? = some key := by
  rw [keyed?_eq_filterMap h]
  simp [List.mem_filterMap, Option.map_eq_some_iff, and_comm]

theorem lookup_keyed?_eq_none {os : List (Object k)} {entries : List (Key × Object k)}
    (h : keyed? os = some entries) {key : Key} (hkey : some key ∉ os.map Object.key?) :
    entries.lookup key = none := by
  refine List.lookup_eq_none_iff.mpr fun e he => ?_
  obtain ⟨ho, hown⟩ := (mem_keyed?_iff h).mp he
  have hne : key ≠ e.1 := fun heq => hkey (heq ▸ List.mem_map.mpr ⟨e.2, ho, hown⟩)
  simpa using hne

/-- What is known under a key that is not listed is missing from the list. -/
theorem mem_vanished_of_get? {s : Store k} (hordered : s.Ordered) (hfiled : s.Filed)
    {os : List (Object k)} {key : Key} (hkey : some key ∉ os.map Object.key?) {c : Object k}
    (hc : s.get? key = some c) : c ∈ vanished s os ∧ c.key? = some key := by
  obtain ⟨hmem, hown⟩ := (Store.get?_eq_some_iff_of_filed hordered hfiled).mp hc
  exact ⟨List.mem_filter.mpr ⟨hmem, decide_eq_true (hown.symm ▸ hkey)⟩, hown⟩

/-- The comparison with a list in which no key occurs twice, told by the objects. -/
theorem diff_of_keyed? {s : Store k} (hfiled : s.Filed) {os : List (Object k)}
    {entries : List (Key × Object k)} (h : keyed? os = some entries)
    (hnodup : (entries.map (·.1)).Nodup) :
    diff s.entries entries =
      (os.flatMap fun o => notice o (o.key?.bind s.get?)) ++ (vanished s os).map .deleted := by
  have hvanished := vanished_eq hfiled h
  obtain ⟨rfl, hkeys⟩ := keyed?_eq_some h
  rw [diff_eq_of_nodup _ hnodup, List.flatMap_map, ← hvanished, List.map_map]
  refine congrArg (· ++ _) (List.flatMap_congr fun e he => ?_)
  rw [hkeys e he]
  rfl

theorem ne_deleted_of_mem_notice {o c : Object k} {old : Option (Object k)} {n : Notification k}
    (h : n ∈ notice o old) : n ≠ .deleted c := by
  rintro rfl
  cases old <;> simp [notice_eq_ite, announce] at h

/-- **Writing what is news.** As long as the store has under the keys of a list what another store
has there, this tells what the comparison with that one tells of the list. Afterwards the listed
objects are known by their versions, and nothing else has changed.

The induction is on the list, while the other store stays as it is. What carries it is that the
objects which are left have other keys than the one that is written. -/
theorem run_applied_news {s t : Store k} {os : List (Object k)}
    (hplaced : ∀ o ∈ os, o.metadata.name.isSome ∧ o.metadata.namespaceName.isSome)
    (hdistinct : (os.map Object.key?).Nodup) (hscoped : ∀ e ∈ t.entries, e.1.scope.isSome)
    (hsame : ∀ o ∈ os, ∀ key, o.key? = some key → t.get? key = s.get? key) :
    ∃ after, run? t ((os.filter (isNews s)).map .applied) =
        some (os.flatMap fun o => notice o (o.key?.bind s.get?), after) ∧
      (∀ o ∈ os, ∀ key, o.key? = some key →
        (after.get? key).map (·.metadata.resourceVersion) = some o.metadata.resourceVersion) ∧
      ∀ key, some key ∉ os.map Object.key? → after.get? key = t.get? key := by
  induction os generalizing t with
  | nil => exact ⟨t, rfl, by simp, fun _ _ => rfl⟩
  | cons o os ih =>
    obtain ⟨⟨hname, hscope⟩, hplaced⟩ := List.forall_mem_cons.mp hplaced
    obtain ⟨hhead, hdistinct⟩ := List.nodup_cons.mp hdistinct
    obtain ⟨hown, hsame⟩ := List.forall_mem_cons.mp hsame
    obtain ⟨key, hkey⟩ := Option.isSome_iff_exists.mp (o.isSome_key?.trans hname)
    have hown := hown key hkey
    rw [hkey] at hhead
    rw [List.flatMap_cons, hkey, Option.bind_some, notice_eq_ite]
    by_cases hnews : isNews s o = true
    · -- the object is written, and those that are left have other keys
      have hchanged : (s.get? key).map (·.metadata.resourceVersion) ≠
          some o.metadata.resourceVersion := by simpa [isNews, hkey] using hnews
      have hput : ∀ e ∈ (t.put key o).entries, e.1.scope.isSome :=
        Store.forall_mem_put hscoped ((Object.key?_eq_some_iff.mp hkey).2 ▸ hscope)
      have hsame' : ∀ o' ∈ os, ∀ key', o'.key? = some key' →
          (t.put key o).get? key' = s.get? key' := by
        intro o' ho' key' hkey'
        have hne : key' ≠ key := fun heq =>
          hhead (List.mem_map.mpr ⟨o', ho', hkey'.trans (congrArg some heq)⟩)
        rw [Store.get?_put, if_neg hne, hsame o' ho' key' hkey']
      obtain ⟨after, hrun, hversions, hothers⟩ := ih hplaced hdistinct hput hsame'
      have hstep := step?_applied t hkey
      rw [Store.find?_of_scoped hscoped, hown] at hstep
      refine ⟨after, ?_, List.forall_mem_cons.mpr ⟨fun key' hkey' => ?_, hversions⟩,
        fun key' hkey' => ?_⟩
      · rw [List.filter_cons_of_pos hnews, List.map_cons, if_pos hchanged]
        exact run?_cons_eq_some_iff.mpr ⟨_, _, _, step?_eq_some_iff.mp hstep, hrun, rfl⟩
      · obtain rfl : key = key' := Option.some.inj (hkey.symm.trans hkey')
        rw [hothers key hhead, Store.get?_put, if_pos rfl]
        rfl
      · rw [List.map_cons, hkey, List.mem_cons, not_or] at hkey'
        rw [hothers key' hkey'.2, Store.get?_put, if_neg fun heq => hkey'.1 (congrArg some heq)]
    · -- the object is known by its version already
      have hknown : (s.get? key).map (·.metadata.resourceVersion) =
          some o.metadata.resourceVersion := by simpa [isNews, hkey] using hnews
      obtain ⟨after, hrun, hversions, hothers⟩ := ih hplaced hdistinct hscoped hsame
      refine ⟨after, ?_, List.forall_mem_cons.mpr ⟨fun key' hkey' => ?_, hversions⟩,
        fun key' hkey' => hothers key' fun hmem => hkey' (List.mem_cons_of_mem _ hmem)⟩
      · rw [List.filter_cons_of_neg hnews, if_neg (not_not.mpr hknown), List.nil_append, hrun]
      · obtain rfl : key = key' := Option.some.inj (hkey.symm.trans hkey')
        rw [hothers key hhead, hown, hknown]

/-- **Deleting objects** tells every deletion, and leaves nothing under their keys. -/
theorem run_deletions (t : Store k) {gone : List (Object k)}
    (hnamed : ∀ o ∈ gone, o.metadata.name.isSome) :
    ∃ after, run? t (gone.map .deleted) = some (gone.map .deleted, after) ∧
      ∀ key, after.get? key = if some key ∈ gone.map Object.key? then none else t.get? key := by
  induction gone generalizing t with
  | nil => exact ⟨t, rfl, by simp⟩
  | cons o gone ih =>
    obtain ⟨hname, hnamed⟩ := List.forall_mem_cons.mp hnamed
    obtain ⟨head, hhead⟩ := Option.isSome_iff_exists.mp (o.isSome_key?.trans hname)
    obtain ⟨after, hrun, hfound⟩ := ih (t.erase head) hnamed
    refine ⟨after, run?_cons_eq_some_iff.mpr ⟨_, _, _, .deleted hhead, hrun, rfl⟩, fun key => ?_⟩
    rw [hfound, Store.get?_erase, List.map_cons, hhead]
    by_cases heq : key = head <;> simp [heq]

/-! ### The list and its changes -/

/-- **A new list does what its changes do.** In any store that can be reached, where all objects
have a namespace, a list of objects with names and namespaces, no two of which have one key, tells
the same as its changes, whichever of the vanished objects are deleted first: the same news, and
then the same deletions. Afterwards the same keys are known, with the same versions. -/
theorem relist_eq_increments {history : List (Observation k)} {told : List (Notification k)}
    {s : Store k} (hrun : run? .empty history = some (told, s))
    (hcached : ∀ c ∈ s.objects, c.metadata.namespaceName.isSome) {os : List (Object k)}
    (hplaced : ∀ o ∈ os, o.metadata.name.isSome ∧ o.metadata.namespaceName.isSome)
    (hdistinct : (os.map Object.key?).Nodup) {gone : List (Object k)}
    (hgone : gone.Perm (vanished s os)) :
    ∃ news relisted folded,
      step? s (.restarted os) = some (news ++ (vanished s os).map .deleted, relisted) ∧
      run? s (increments s os gone) = some (news ++ gone.map .deleted, folded) ∧
      (∀ n ∈ news, ∀ c, n ≠ .deleted c) ∧
      ∀ key, (folded.get? key).map (·.metadata.resourceVersion) =
        (relisted.get? key).map (·.metadata.resourceVersion) := by
  have hfiled := run_filed hrun
  have hordered := run_ordered hrun
  have hscoped : ∀ e ∈ s.entries, e.1.scope.isSome := fun e he =>
    (Object.key?_eq_some_iff.mp (hfiled e he)).2 ▸ hcached e.2 (List.mem_map_of_mem he)
  obtain ⟨entries, hkeyed⟩ := exists_keyed fun o ho => (hplaced o ho).1
  have hnodup := nodup_of_keyed? hkeyed hdistinct
  have hgoneNamed : ∀ c ∈ gone, c.metadata.name.isSome := by
    intro c hc
    obtain ⟨e, he, rfl⟩ := List.mem_map.mp (List.mem_filter.mp (hgone.mem_iff.mp hc)).1
    rw [← Object.isSome_key?, hfiled e he]
    rfl
  obtain ⟨middle, hnews, hversions, hothers⟩ :=
    run_applied_news (s := s) hplaced hdistinct hscoped fun _ _ _ _ => rfl
  obtain ⟨folded, hdeleted, hfound⟩ := run_deletions middle hgoneNamed
  refine ⟨_, .ofList entries, folded, ?_, run?_append.mpr ⟨_, middle, _, hnews, hdeleted, rfl⟩,
    fun n hn => ?_, fun key => ?_⟩
  · rw [← diff_of_keyed? hfiled hkeyed hnodup]
    exact step?_eq_some_iff.mpr (.restarted hkeyed)
  · obtain ⟨o, -, hn⟩ := List.mem_flatMap.mp hn
    exact fun c => ne_deleted_of_mem_notice hn
  · rw [hfound, Store.get?_ofList_of_nodup hnodup]
    by_cases hlisted : some key ∈ os.map Object.key?
    · -- the key is listed, so that nothing under it is missing from the list
      have hstays : some key ∉ gone.map Object.key? := by
        rintro hmem
        obtain ⟨c, hc, hkey⟩ := List.mem_map.mp hmem
        have hmissing := (List.mem_filter.mp (hgone.mem_iff.mp hc)).2
        exact absurd (hkey ▸ hlisted) (of_decide_eq_true hmissing)
      obtain ⟨o, ho, hkey⟩ := List.mem_map.mp hlisted
      have hrelisted : entries.lookup key = some o :=
        (Store.lookup_eq_some_iff_mem hnodup).mpr ((mem_keyed?_iff hkeyed).mpr ⟨ho, hkey⟩)
      rw [if_neg hstays, hversions o ho key hkey, hrelisted]
      rfl
    · -- the key is not listed, so that whatever is known under it is missing from the list
      rw [lookup_keyed?_eq_none hkeyed hlisted, hothers key hlisted]
      cases hlookup : s.get? key with
      | none => rw [ite_self]
      | some c =>
        obtain ⟨hmissing, hown⟩ := mem_vanished_of_get? hordered hfiled hlisted hlookup
        rw [if_pos (List.mem_map.mpr ⟨c, hgone.mem_iff.mpr hmissing, hown⟩)]

/-- A store of four objects. -/
def fourKnown : Store .test where
  entries :=
    [(⟨some "crd", "w"⟩, .sample "crd" "w" "1" "a"), (⟨some "crd", "x"⟩, .sample "crd" "x" "2" "b"),
      (⟨some "crd", "y"⟩, .sample "crd" "y" "3" "c"), (⟨some "crd", "z"⟩, .sample "crd" "z" "4" "d")]

/-- A list that has a fifth object, changes the third, keeps the second and misses the others. -/
def threeListed : List (Object .test) :=
  [.sample "crd" "v" "5" "e", .sample "crd" "y" "6" "c", .sample "crd" "x" "2" "b"]

/-- What the list misses, in another order than it is stored. -/
def twoMissed : List (Object .test) := [.sample "crd" "z" "4" "d", .sample "crd" "w" "1" "a"]

theorem relist_eq_increments_threeListed :
    (∃ told, run? .empty [.restarted fourKnown.objects.reverse] = some (told, fourKnown)) ∧
      (∀ c ∈ fourKnown.objects, c.metadata.namespaceName.isSome) ∧
      (∀ o ∈ threeListed, o.metadata.name.isSome ∧ o.metadata.namespaceName.isSome) ∧
      (threeListed.map Object.key?).Nodup ∧ twoMissed.Perm (vanished fourKnown threeListed) ∧
      increments fourKnown threeListed twoMissed =
        [.applied (.sample "crd" "v" "5" "e"), .applied (.sample "crd" "y" "6" "c"),
          .deleted (.sample "crd" "z" "4" "d"), .deleted (.sample "crd" "w" "1" "a")] ∧
      ∃ news relisted folded,
        step? fourKnown (.restarted threeListed) =
          some (news ++ (vanished fourKnown threeListed).map .deleted, relisted) ∧
        run? fourKnown (increments fourKnown threeListed twoMissed) =
          some (news ++ twoMissed.map .deleted, folded) ∧
        (∀ n ∈ news, ∀ c, n ≠ .deleted c) ∧
        ∀ key, (folded.get? key).map (·.metadata.resourceVersion) =
          (relisted.get? key).map (·.metadata.resourceVersion) := by
  have hrun : run? .empty [.restarted fourKnown.objects.reverse] =
      some (fourKnown.objects.reverse.map .added, fourKnown) := rfl
  have hcached : ∀ c ∈ fourKnown.objects, c.metadata.namespaceName.isSome := by
    simp [fourKnown, Store.objects, Object.sample]
  have hplaced : ∀ o ∈ threeListed, o.metadata.name.isSome ∧ o.metadata.namespaceName.isSome := by
    simp [threeListed, Object.sample]
  have hdistinct : (threeListed.map Object.key?).Nodup := by decide
  have hgone : twoMissed.Perm (vanished fourKnown threeListed) := .swap ..
  exact ⟨⟨_, hrun⟩, hcached, hplaced, hdistinct, hgone, rfl,
    relist_eq_increments hrun hcached hplaced hdistinct hgone⟩

end CustomResource.Informer

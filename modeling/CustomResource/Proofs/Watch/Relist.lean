import CustomResource.Proofs.Watch.History

/-!
# New lists in any order

The order of a new list says nothing, and neither does the order in which the known objects are gone
through in the comparison with it. As long as no key is listed twice, another order changes at most
the order of what is told, and a list that has just been compared tells nothing when it comes again.

The comparison drops what it meets from the entries that are left, so its steps are not independent
of each other. `Informer.diff_eq_of_nodup` takes the dependence out: every listed object is compared
with what stood under its key at the beginning, and then only permutations of lists remain.

## Main definitions

* `Informer.relist?`: what a new list leads to, if the known entries are gone through in some order.

## Main results

* `Informer.diff_perm`: what is told depends on the orders only by its own.
* `Informer.diff_eq_nil_of_known`: what has just been listed is not told again.
* `Informer.relists_agree_in_any_order`: both statements for all stores that can be reached.
-/

namespace CustomResource.Informer

variable {k : Kind}

/-! ### Orders of the comparison -/

/-- What a new list leads to if the entries that were known before are gone through in some order.
None if an object has no name. -/
def relist? (previous : List (Key × Object k)) (os : List (Object k)) :
    Option (List (Notification k) × Store k) :=
  (keyed? os).map fun entries => (diff previous entries, .ofList entries)

/-- The informer goes through the known entries in the order in which they are stored. -/
theorem step?_restarted (s : Store k) (os : List (Object k)) :
    step? s (.restarted os) = relist? s.entries os := rfl

theorem keyed?_eq_filterMap {os : List (Object k)} {entries : List (Key × Object k)}
    (h : keyed? os = some entries) :
    entries = os.filterMap fun o => o.key?.map fun key => (key, o) := by
  obtain ⟨rfl, hfiled⟩ := keyed?_eq_some h
  have hself : ∀ e ∈ entries, ((fun o : Object k => o.key?.map fun key => (key, o)) ∘ (·.2)) e =
      some e := fun e he => by simp [hfiled e he]
  rw [List.filterMap_map, List.filterMap_congr hself, List.filterMap_some]

theorem keyed?_of_perm {os os' : List (Object k)} {entries : List (Key × Object k)}
    (h : keyed? os = some entries) (hperm : os.Perm os') :
    ∃ entries', keyed? os' = some entries' ∧ entries.Perm entries' := by
  obtain ⟨hmap, hfiled⟩ := keyed?_eq_some h
  have hnamed : ∀ o ∈ os', o.metadata.name.isSome := by
    intro o ho
    obtain ⟨e, he, rfl⟩ := List.mem_map.mp (hmap ▸ hperm.mem_iff.mpr ho)
    rw [← Object.isSome_key?, hfiled e he]
    rfl
  obtain ⟨entries', hkeyed⟩ := exists_keyed hnamed
  refine ⟨entries', hkeyed, ?_⟩
  rw [keyed?_eq_filterMap h, keyed?_eq_filterMap hkeyed]
  exact hperm.filterMap _

/-- **What is told depends on the orders only by its own**: neither the order of the known entries
nor that of the listed ones changes what there is to tell. -/
theorem diff_perm {previous previous' entries entries' : List (Key × Object k)}
    (hprevious : previous.Perm previous') (hknown : (previous.map (·.1)).Nodup)
    (hentries : entries.Perm entries') (hnodup : (entries.map (·.1)).Nodup) :
    (diff previous entries).Perm (diff previous' entries') := by
  have hkeys := hentries.map (·.1)
  rw [diff_eq_of_nodup previous hnodup, diff_eq_of_nodup previous' (hkeys.nodup_iff.mp hnodup)]
  refine List.Perm.append ?_ ?_
  · simp only [Store.lookup_eq_of_perm hprevious hknown]
    exact hentries.flatMap_right _
  · simp only [hkeys.mem_iff]
    exact (hprevious.filter _).map _

/-- An object is not told again. -/
@[simp] theorem notice_self (o : Object k) : notice o (some o) = [] := by simp [notice]

/-- **What has just been listed is not told again.** -/
theorem diff_eq_nil_of_known {previous entries : List (Key × Object k)}
    (hnodup : (entries.map (·.1)).Nodup) (hprevious : previous.Perm (Store.ofList entries).entries) :
    diff previous entries = [] := by
  have hordered := Store.ordered_ofList entries
  have hknown : (previous.map (·.1)).Nodup := (hprevious.map (·.1)).nodup_iff.mpr hordered.nodup
  have hlookup : ∀ key, previous.lookup key = entries.lookup key := fun key =>
    (Store.lookup_eq_of_perm hprevious hknown key).trans (Store.get?_ofList_of_nodup hnodup key)
  have hsame : ∀ e ∈ entries, notice e.2 (previous.lookup e.1) = [] := by
    intro e he
    rw [hlookup, (Store.lookup_eq_some_iff_mem hnodup).mpr he, notice_self]
  have hlisted : ∀ e ∈ previous, e ∈ entries := by
    intro e he
    have hfound := (Store.lookup_eq_some_iff_mem hknown).mpr he
    rw [hlookup] at hfound
    exact (Store.lookup_eq_some_iff_mem hnodup).mp hfound
  have hgone : (previous.filter fun e => e.1 ∉ entries.map (·.1)) = [] := by
    refine List.filter_eq_nil_iff.mpr fun e he => ?_
    simpa using ⟨e.2, hlisted e he⟩
  rw [diff_eq_of_nodup previous hnodup, List.flatMap_eq_nil_iff.mpr hsame, hgone]
  rfl

/-! ### All stores that can be reached -/

/-- **New lists in any order.** Take any store that can be reached, a list of named objects no two
of which have one key, and the same list in another order. In whatever order the known objects are
gone through, both lists are told by the same notifications, up to their order, and lead to the same
store. Whichever of the two comes next tells nothing, and leaves the store as it is. -/
theorem relists_agree_in_any_order {history : List (Observation k)}
    {told : List (Notification k)} {s : Store k} (hrun : run? .empty history = some (told, s))
    {os os' : List (Object k)} (hnamed : ∀ o ∈ os, o.metadata.name.isSome)
    (hdistinct : (os.map Object.key?).Nodup) (hperm : os.Perm os') :
    ∃ ns after, step? s (.restarted os) = some (ns, after) ∧
      (∀ previous, previous.Perm s.entries →
        ∃ ns', relist? previous os' = some (ns', after) ∧ ns'.Perm ns) ∧
      ∀ previous, previous.Perm after.entries → relist? previous os' = some ([], after) := by
  obtain ⟨entries, hkeyed⟩ := exists_keyed hnamed
  have hnodup := nodup_of_keyed? hkeyed hdistinct
  obtain ⟨entries', hkeyed', hentries⟩ := keyed?_of_perm hkeyed hperm
  have hstore := Store.ofList_eq_of_perm hentries hnodup
  refine ⟨diff s.entries entries, .ofList entries, ?_, fun previous hprevious => ?_,
    fun previous hprevious => ?_⟩
  · rw [step?_restarted, relist?, hkeyed]
    rfl
  · have hknown := (hprevious.map (·.1)).nodup_iff.mpr (run_ordered hrun).nodup
    refine ⟨diff previous entries', ?_, (diff_perm hprevious.symm ?_ hentries hnodup).symm⟩
    · rw [relist?, hkeyed', hstore]
      rfl
    · exact (run_ordered hrun).nodup
  · have hnodup' := (hentries.map (·.1)).nodup_iff.mp hnodup
    rw [relist?, hkeyed', hstore, Option.map_some,
      diff_eq_nil_of_known hnodup' (hstore ▸ hprevious)]

/-- A store of two objects. -/
def twoKnown : Store .test where
  entries :=
    [(⟨some "crd", "x"⟩, .sample "crd" "x" "1" "a"), (⟨some "crd", "y"⟩, .sample "crd" "y" "2" "b")]

/-- A list that changes the first of the two objects, misses the second, and has a third. -/
def twoListed : List (Object .test) := [.sample "crd" "z" "9" "c", .sample "crd" "x" "3" "a"]

theorem relists_agree_of_twoListed :
    (∃ told, run? .empty (twoKnown.objects.reverse.map .applied) = some (told, twoKnown)) ∧
      (∀ o ∈ twoListed, o.metadata.name.isSome) ∧ (twoListed.map Object.key?).Nodup ∧
      twoListed.Perm twoListed.reverse ∧
      ∃ ns after, step? twoKnown (.restarted twoListed) = some (ns, after) ∧
        (∀ previous, previous.Perm twoKnown.entries →
          ∃ ns', relist? previous twoListed.reverse = some (ns', after) ∧ ns'.Perm ns) ∧
        ∀ previous, previous.Perm after.entries →
          relist? previous twoListed.reverse = some ([], after) := by
  have hrun : run? .empty (twoKnown.objects.reverse.map .applied) =
      some (twoKnown.objects.reverse.map .added, twoKnown) := rfl
  have hnamed : ∀ o ∈ twoListed, o.metadata.name.isSome := by simp [twoListed, Object.sample]
  have hdistinct : (twoListed.map Object.key?).Nodup := by decide
  have hperm : twoListed.Perm twoListed.reverse := (List.reverse_perm twoListed).symm
  exact ⟨⟨_, hrun⟩, hnamed, hdistinct, hperm,
    relists_agree_in_any_order hrun hnamed hdistinct hperm⟩

end CustomResource.Informer

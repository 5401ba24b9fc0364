import CustomResource.Proofs.Watch.Announcements

/-!
# Which objects are told as added

An object is told as added by what stands under its key, not by who it is. So it is enough to know
what the last observation that concerns the key has left there: if that is nothing, an object that
is observed under the key is added; if it is an object, be it the same or another one, it is not.

This is exact for every observation of objects in namespaces as long as no list holds a key twice.

## Main definitions

* `Notification.added?`: the object that a notification tells as added.
* `Observation.delivered`: the objects that an observation says are there.
* `Observation.isNew`: whether nothing is known under the key of an object.

## Main results

* `Informer.Step.mem_objects_of_added`: only observed objects are added.
* `Informer.Step.filterMap_added?`: the added objects are the delivered ones under free keys.
* `Informer.filterMap_added?_of_run`: the same, from the observations so far.
-/

namespace CustomResource

variable {k : Kind}

/-- The object that a notification tells as added. -/
def Notification.added? : Notification k → Option (Object k)
  | .added o => some o
  | .updated _ _ => none
  | .deleted _ => none

namespace Observation

/-- The objects that an observation says are there. -/
def delivered : Observation k → List (Object k)
  | .applied o => [o]
  | .deleted _ => []
  | .restarted os => os

/-- Whether some observations have left nothing under the key of an object. -/
def isNew (past : List (Observation k)) (o : Object k) : Bool :=
  (o.key?.bind (known? past)).isNone

theorem Named.of_delivered {e : Observation k} (h : e.Named) {o : Object k}
    (ho : o ∈ e.delivered) : o.metadata.name.isSome := by
  cases e with
  | applied => exact h o ho
  | deleted => exact nomatch ho
  | restarted => exact h o ho

theorem isNew_eq_true_iff {past : List (Observation k)} {o : Object k} :
    isNew past o = true ↔ ∀ key, o.key? = some key → known? past key = none := by
  simp [isNew, Option.bind_eq_none_iff]

end Observation

namespace Informer

/-! ### Added objects have been observed -/

theorem filterMap_added?_notice (o : Object k) (old : Option (Object k)) :
    (notice o old).filterMap Notification.added? = if old.isNone then [o] else [] := by
  cases old with
  | none => rfl
  | some old =>
    rw [notice]
    split <;> rfl

theorem filterMap_added?_deletions (es : List (Key × Object k)) :
    (es.map fun e => Notification.deleted e.2).filterMap Notification.added? = [] := by
  simp [Notification.added?]

theorem mem_of_added_mem_diff {previous entries : List (Key × Object k)} {o : Object k}
    (h : .added o ∈ diff previous entries) : o ∈ entries.map (·.2) := by
  induction entries generalizing previous with
  | nil => simp [diff] at h
  | cons e rest ih =>
    obtain ⟨key, head⟩ := e
    rw [diff_cons, List.mem_append] at h
    rcases h with h | h
    · have hmem : o ∈ (notice head (previous.lookup key)).filterMap Notification.added? :=
        List.mem_filterMap.mpr ⟨_, h, rfl⟩
      rw [filterMap_added?_notice] at hmem
      split at hmem
      · exact List.mem_cons.mpr (Or.inl (List.mem_singleton.mp hmem))
      · simp at hmem
    · exact List.mem_cons_of_mem _ (ih h)

/-- Only objects that have been observed are added. -/
theorem Step.mem_objects_of_added {s s' : Store k} {e : Observation k}
    {ns : List (Notification k)} (h : Step s e ns s') {o : Object k} (ho : .added o ∈ ns) :
    o ∈ e.objects := by
  cases h with
  | added => simpa [Observation.objects] using ho
  | updated => simp at ho
  | deleted => simp at ho
  | restarted hkeyed => exact (keyed?_eq_some hkeyed).1 ▸ mem_of_added_mem_diff ho

theorem exists_mem_objects_of_added {s : Store k} {history : List (Observation k)}
    {ns : List (Notification k)} (hrun : run? .empty history = some (ns, s)) {o : Object k}
    (ho : .added o ∈ ns) : ∃ e ∈ history, o ∈ e.objects := by
  revert ho
  refine run_induction (motive := fun past ns _ => .added o ∈ ns → ∃ e ∈ past, o ∈ e.objects)
    hrun (by simp) fun past before mid e now after _ _ ih hstep ho => ?_
  rcases List.mem_append.mp ho with ho | ho
  · obtain ⟨e', he', hmem⟩ := ih ho
    exact ⟨e', List.mem_append_left _ he', hmem⟩
  · exact ⟨e, by simp, hstep.mem_objects_of_added ho⟩

/-! ### Which of them are added -/

theorem filterMap_added?_notices (previous : List (Key × Object k))
    {entries : List (Key × Object k)} (hentries : ∀ e ∈ entries, e.2.key? = some e.1) :
    (entries.flatMap fun e => notice e.2 (previous.lookup e.1)).filterMap Notification.added? =
      (entries.map (·.2)).filter fun o => (o.key?.bind fun key => previous.lookup key).isNone := by
  induction entries with
  | nil => rfl
  | cons e rest ih =>
    obtain ⟨he, hrest⟩ := List.forall_mem_cons.mp hentries
    rw [List.flatMap_cons, List.filterMap_append, filterMap_added?_notice, ih hrest, List.map_cons,
      List.filter_cons, he, Option.bind_some]
    split <;> rfl

/-- **What a step adds**: the objects that it says are there, in order, if nothing stands under
their keys. -/
theorem Step.filterMap_added? {s s' : Store k} {e : Observation k} {ns : List (Notification k)}
    (h : Step s e ns s') (hscoped : ∀ e ∈ s.entries, e.1.scope.isSome)
    (hdistinct : ∀ os, e = .restarted os → (os.map Object.key?).Nodup) :
    ns.filterMap Notification.added? =
      e.delivered.filter fun o => (o.key?.bind s.get?).isNone := by
  cases h with
  | added hkey hfind =>
    rw [Store.find?_of_scoped hscoped] at hfind
    simp [Notification.added?, Observation.delivered, hkey, hfind]
  | updated hkey hfind =>
    rw [Store.find?_of_scoped hscoped] at hfind
    simp [Notification.added?, Observation.delivered, hkey, hfind]
  | deleted => rfl
  | @restarted os entries hkeyed =>
    obtain ⟨rfl, hentries⟩ := keyed?_eq_some hkeyed
    rw [diff_eq_of_nodup _ (nodup_of_keyed? hkeyed (hdistinct _ rfl)), List.filterMap_append,
      filterMap_added?_deletions, List.append_nil]
    exact filterMap_added?_notices _ hentries

theorem filterMap_added?_of_run {past : List (Observation k)} {s s' : Store k}
    {e : Observation k} {ns now : List (Notification k)}
    (hscoped : ∀ e ∈ past, ∀ o ∈ e.objects, o.metadata.namespaceName.isSome)
    (hdistinct : ∀ os, e = .restarted os → (os.map Object.key?).Nodup)
    (hrun : run? .empty past = some (ns, s)) (h : Step s e now s') :
    now.filterMap Notification.added? = e.delivered.filter (Observation.isNew past) := by
  have hknown : s.get? = Observation.known? past := funext (get?_of_run hrun)
  rw [h.filterMap_added? (run_scoped hscoped hrun) hdistinct, hknown]
  rfl

end Informer

end CustomResource

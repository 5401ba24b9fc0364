import CustomResource.Proofs.Watch.Informer

/-!
# The store, its past, and those who are told of it

The store is determined by the observations so far, key by key: the last observation that concerns a
key says what stands there. The notifications tell the same story. An observer who sees nothing else
and keeps a map of its own has the keys of the store after every observation, and the version of the
store under each of them.

The observer need not have the same *objects*: a new list may bring an object in another form but
with the version that is known already, which is not told. That is why the two are compared by
version, and why the comparison survives a list that holds a key several times.

## Main definitions

* `Observation.concerns`, `leaves?`: whether an observation decides about a key, and how.
* `Observation.known?`: what the last observation that concerns a key has left there.
* `Observer.see`, `Observer.after`: the map of an observer.
* `Observer.Agrees`: the same keys as a store, and the same version under each.

## Main results

* `Informer.Step.get?`: what is found after a step.
* `Observer.version_after_diff`: what an observer has after the comparison with a new list.
* `Informer.store_and_observer_follow_history`: both statements for all runs.
-/

namespace CustomResource

variable {k : Kind}

/-! ### The last word about a key -/

namespace Observation

/-- Whether an observation decides what stands under a key. A new list decides about every key. -/
def concerns (key : Key) : Observation k → Bool
  | .applied o => o.key? = some key
  | .deleted o => o.key? = some key
  | .restarted _ => true

/-- What an observation that concerns a key leaves there: of several listed objects the last. -/
def leaves? (key : Key) : Observation k → Option (Object k)
  | .applied o => some o
  | .deleted _ => none
  | .restarted os => (os.filter fun o => o.key? = some key).getLast?

/-- What the last observation that concerns a key has left there. -/
def known? (history : List (Observation k)) (key : Key) : Option (Object k) :=
  (history.filter (concerns key)).getLast?.bind (leaves? key)

theorem known?_append_singleton (past : List (Observation k)) (e : Observation k) (key : Key) :
    known? (past ++ [e]) key = if e.concerns key then e.leaves? key else known? past key := by
  rw [known?, List.filter_append]
  split
  · next h => simp [h]
  · next h => simp [h, known?]

end Observation

namespace Informer

/-- Filtering keyed objects by key and filtering the objects themselves give the same. -/
theorem filter_of_keyed? {os : List (Object k)} {entries : List (Key × Object k)}
    (h : keyed? os = some entries) (key : Key) :
    (entries.filter fun e => e.1 = key).map (·.2) = os.filter fun o => o.key? = some key := by
  obtain ⟨rfl, hfiled⟩ := keyed?_eq_some h
  rw [List.filter_map]
  refine congrArg _ (List.filter_congr fun e he => ?_)
  simp [hfiled e he]

/-- **What is found after a step.** -/
theorem Step.get? {s s' : Store k} {e : Observation k} {ns : List (Notification k)}
    (h : Step s e ns s') (key : Key) :
    s'.get? key = if e.concerns key then e.leaves? key else s.get? key := by
  cases h with
  | added hkey => simp [Store.get?_put, Observation.concerns, Observation.leaves?, hkey, eq_comm]
  | updated hkey => simp [Store.get?_put, Observation.concerns, Observation.leaves?, hkey, eq_comm]
  | deleted hkey =>
    simp [Store.get?_erase, Observation.concerns, Observation.leaves?, hkey, eq_comm]
  | restarted hkeyed =>
    rw [Store.get?_ofList, ← List.getLast?_map, filter_of_keyed? hkeyed]
    rfl

theorem get?_of_run {s : Store k} {history : List (Observation k)} {ns : List (Notification k)}
    (hrun : run? .empty history = some (ns, s)) (key : Key) :
    s.get? key = Observation.known? history key := by
  refine run_induction (motive := fun past _ s => s.get? key = Observation.known? past key) hrun rfl
    fun past _ mid e _ after _ _ ih hstep => ?_
  rw [hstep.get?, Observation.known?_append_singleton, ih]

end Informer

/-! ### Observers -/

namespace Notification

/-- The object that a notification is about, in its latest form. -/
def subject : Notification k → Object k
  | .added o => o
  | .updated _ new => new
  | .deleted o => o

/-- The object that is there after a notification. -/
def announced? : Notification k → Option (Object k)
  | .added o => some o
  | .updated _ new => some new
  | .deleted _ => none

end Notification

namespace Observer

/-- Puts an object into the map of an observer, under its own key. -/
def insert (m : Store k) (o : Object k) : Store k :=
  match o.key? with
  | some key => m.put key o
  | none => m

/-- Removes an object from the map of an observer. -/
def remove (m : Store k) (o : Object k) : Store k :=
  match o.key? with
  | some key => m.erase key
  | none => m

/-- What an observer does with a notification. -/
def see (m : Store k) : Notification k → Store k
  | .added o => insert m o
  | .updated _ new => insert m new
  | .deleted o => remove m o

/-- The map of an observer who has had another one, after some notifications. -/
def after (m : Store k) (ns : List (Notification k)) : Store k := ns.foldl see m

/-- The map of an observer has the keys of a store, and the version of the store under each. -/
def Agrees (m s : Store k) : Prop :=
  ∀ key, (m.get? key).map (·.metadata.resourceVersion) =
    (s.get? key).map (·.metadata.resourceVersion)

@[simp] theorem after_nil (m : Store k) : after m [] = m := rfl

@[simp] theorem after_cons (m : Store k) (n : Notification k) (ns : List (Notification k)) :
    after m (n :: ns) = after (see m n) ns := rfl

theorem after_append (m : Store k) (ns ns' : List (Notification k)) :
    after m (ns ++ ns') = after (after m ns) ns' := List.foldl_append

theorem get?_insert (m : Store k) (o : Object k) (key : Key) :
    (insert m o).get? key = if o.key? = some key then some o else m.get? key := by
  cases hkey : o.key? <;> simp [insert, hkey, Store.get?_put, eq_comm]

theorem get?_remove (m : Store k) (o : Object k) (key : Key) :
    (remove m o).get? key = if o.key? = some key then none else m.get? key := by
  cases hkey : o.key? <;> simp [remove, hkey, Store.get?_erase, eq_comm]

theorem get?_see (m : Store k) (n : Notification k) (key : Key) :
    (see m n).get? key = if n.subject.key? = some key then n.announced? else m.get? key := by
  cases n with
  | added o => exact get?_insert m o key
  | updated old new => exact get?_insert m new key
  | deleted o => exact get?_remove m o key

theorem get?_after_deletions (m : Store k) {es : List (Key × Object k)}
    (hfiled : ∀ e ∈ es, e.2.key? = some e.1) (key : Key) :
    (after m (es.map fun e => .deleted e.2)).get? key =
      if (es.lookup key).isSome then none else m.get? key := by
  induction es generalizing m with
  | nil => rfl
  | cons e rest ih =>
    obtain ⟨head, old⟩ := e
    obtain ⟨hhead, hrest⟩ := List.forall_mem_cons.mp hfiled
    have hsubject : (Notification.deleted old).subject.key? = some head := hhead
    rw [List.map_cons, after_cons, ih _ hrest, get?_see, hsubject, Store.lookup_cons_eq_ite]
    by_cases heq : key = head
    · subst heq
      simp [Notification.announced?]
    · rw [if_neg heq, if_neg fun h => heq (Option.some.inj h).symm]

theorem get?_after_notice_of_ne (m : Store k) {o : Object k} {head key : Key}
    (hhead : o.key? = some head) (hne : key ≠ head) (old : Option (Object k)) :
    (after m (Informer.notice o old)).get? key = m.get? key := by
  have hkey : o.key? ≠ some key := by simpa [hhead] using Ne.symm hne
  cases old with
  | none => simp [Informer.notice, get?_see, Notification.subject, hkey]
  | some old =>
    rw [Informer.notice]
    split
    · simp [get?_see, Notification.subject, hkey]
    · rfl

/-- An object whose version has not moved is not told of, and is known by that version. -/
theorem version_after_notice {m : Store k} {o : Object k} {head : Key}
    (hhead : o.key? = some head) {old : Option (Object k)}
    (hm : ∀ known, old = some known →
      (m.get? head).map (·.metadata.resourceVersion) = some known.metadata.resourceVersion) :
    ((after m (Informer.notice o old)).get? head).map (·.metadata.resourceVersion) =
      some o.metadata.resourceVersion := by
  cases old with
  | none => simp [Informer.notice, get?_see, Notification.subject, Notification.announced?, hhead]
  | some known =>
    rw [Informer.notice]
    split
    · simp [get?_see, Notification.subject, Notification.announced?, hhead]
    · next hsame => rw [after_nil, hm known rfl, not_not.mp hsame]

/-- **The comparison with a new list, as an observer sees it.** The observer knows at least the
versions of the entries that are still to be compared. In the end a listed key has the version of
the last object listed under it, an entry that was not listed is gone, and nothing else has changed.

The induction is on the list. What carries it is that an entry which is left alone because its
version has not moved is known to the observer by that version. -/
theorem version_after_diff {previous entries : List (Key × Object k)} {m : Store k}
    (hprevious : ∀ e ∈ previous, e.2.key? = some e.1)
    (hentries : ∀ e ∈ entries, e.2.key? = some e.1)
    (hm : ∀ key old, previous.lookup key = some old →
      (m.get? key).map (·.metadata.resourceVersion) = some old.metadata.resourceVersion)
    (key : Key) :
    ((after m (Informer.diff previous entries)).get? key).map (·.metadata.resourceVersion) =
      match (entries.filter fun e => e.1 = key).getLast? with
      | some e => some e.2.metadata.resourceVersion
      | none =>
        if (previous.lookup key).isSome then none
        else (m.get? key).map (·.metadata.resourceVersion) := by
  induction entries generalizing previous m with
  | nil =>
    rw [Informer.diff, get?_after_deletions m hprevious]
    simp only [List.filter_nil, List.getLast?_nil]
    split <;> rfl
  | cons e rest ih =>
    obtain ⟨head, o⟩ := e
    obtain ⟨hhead, hrest⟩ := List.forall_mem_cons.mp hentries
    have hknown := version_after_notice hhead (hm head)
    have hother : ∀ other, other ≠ head →
        (after m (Informer.notice o (previous.lookup head))).get? other = m.get? other :=
      fun other hne => get?_after_notice_of_ne m hhead hne _
    rw [Informer.diff_cons, after_append,
      ih (fun e he => hprevious e (List.mem_filter.mp he).1) hrest fun other old hold => ?_]
    · rw [Store.lookup_filter_ne]
      by_cases heq : key = head
      · subst heq
        rw [List.filter_cons_of_pos (by simp), List.getLast?_cons, hknown]
        cases (rest.filter fun e => e.1 = key).getLast? <;> simp
      · rw [List.filter_cons_of_neg (by simpa using Ne.symm heq), hother key heq, if_neg heq]
    · rw [Store.lookup_filter_ne] at hold
      by_cases heq : other = head
      · simp [heq] at hold
      · rw [if_neg heq] at hold
        rw [hother other heq, hm other old hold]

/-- A store that changes as a notification says still agrees with who has seen the notification. -/
theorem Agrees.see {m s s' : Store k} (hm : Agrees m s) {n : Notification k}
    (hs : ∀ key, s'.get? key = if n.subject.key? = some key then n.announced? else s.get? key) :
    Agrees (after m [n]) s' := by
  intro key
  rw [after_cons, after_nil, get?_see, hs]
  split
  · rfl
  · exact hm key

/-- **A step keeps an observer up to date.** -/
theorem Agrees.step {m s s' : Store k} {e : Observation k} {ns : List (Notification k)}
    (hm : Agrees m s) (hfiled : s.Filed) (h : Informer.Step s e ns s') :
    Agrees (after m ns) s' := by
  cases h with
  | added hkey =>
    refine hm.see fun key => ?_
    simp [Store.get?_put, Notification.subject, Notification.announced?, hkey, eq_comm]
  | updated hkey =>
    refine hm.see fun key => ?_
    simp [Store.get?_put, Notification.subject, Notification.announced?, hkey, eq_comm]
  | deleted hkey =>
    refine hm.see fun key => ?_
    simp [Store.get?_erase, Notification.subject, Notification.announced?, hkey, eq_comm]
  | restarted hkeyed =>
    intro key
    have hold : ∀ key old, s.entries.lookup key = some old →
        (m.get? key).map (·.metadata.resourceVersion) = some old.metadata.resourceVersion := by
      intro key old hlookup
      rw [hm key, show s.get? key = some old from hlookup]
      rfl
    rw [version_after_diff hfiled (Informer.keyed?_eq_some hkeyed).2 hold, Store.get?_ofList,
      hm key]
    split
    · next e hlast => rw [hlast]; rfl
    · next hlast =>
      rw [hlast, show s.entries.lookup key = s.get? key from rfl]
      cases s.get? key <;> rfl

theorem agrees_of_run {s : Store k} {history : List (Observation k)} {ns : List (Notification k)}
    (hrun : Informer.run? .empty history = some (ns, s)) : Agrees (after .empty ns) s := by
  refine Informer.run_induction (motive := fun _ ns s => Agrees (after .empty ns) s) hrun
    (fun _ => rfl) fun past before mid e now _ _ hpast ih hstep => ?_
  rw [after_append]
  exact ih.step (Informer.run_filed hpast) hstep

end Observer

/-- **The store and its observers follow the history.** After any observations of named objects,
every object stands under its own key, under each key stands what the last observation that concerns
it has left there, and an observer who has seen only the notifications has the same keys with the
same versions. As this holds of every history, it holds after each observation of a longer one. -/
theorem Informer.store_and_observer_follow_history (history : List (Observation k))
    (hnamed : ∀ e ∈ history, e.Named) :
    ∃ ns s, Informer.run? .empty history = some (ns, s) ∧
      (∀ e ∈ s.entries, e.2.key? = some e.1) ∧
      (∀ key, s.get? key = Observation.known? history key) ∧
      ∀ key, ((Observer.after .empty ns).get? key).map (·.metadata.resourceVersion) =
        (s.get? key).map (·.metadata.resourceVersion) := by
  obtain ⟨ns, s, hrun⟩ := Informer.exists_run .empty hnamed
  exact ⟨ns, s, hrun, Informer.run_filed hrun, Informer.get?_of_run hrun,
    Observer.agrees_of_run hrun⟩

/-- An object with a name in a namespace, a version and an identity, whose status is not set. -/
def Object.sample (scope name version uid : String) : Object .test where
  metadata :=
    { name := some name, namespaceName := some scope, resourceVersion := some version,
      uid := some uid }
  spec := Spec.sample .test

/-- Lists that hold a key twice, keep a version and drop an object, and what may come in between. -/
def Observation.relists : List (Observation .test) :=
  [.restarted [.sample "crd" "x" "1" "a", .sample "crd" "x" "2" "a", .sample "crd" "y" "3" "b"],
    .restarted [.sample "crd" "x" "2" "a"], .applied (.sample "crd" "y" "5" "c"),
    .deleted (.sample "crd" "x" "6" "a"), .restarted [.sample "crd" "y" "5" "c"]]

theorem Informer.store_and_observer_follow_relists :
    (∀ e ∈ Observation.relists, e.Named) ∧
      ∃ ns s, Informer.run? .empty Observation.relists = some (ns, s) ∧
        (∀ e ∈ s.entries, e.2.key? = some e.1) ∧
        (∀ key, s.get? key = Observation.known? Observation.relists key) ∧
        ∀ key, ((Observer.after .empty ns).get? key).map (·.metadata.resourceVersion) =
          (s.get? key).map (·.metadata.resourceVersion) := by
  have hnamed : ∀ e ∈ Observation.relists, e.Named := by
    simp [Observation.relists, Observation.Named, Observation.objects, Object.sample]
  exact ⟨hnamed, store_and_observer_follow_history Observation.relists hnamed⟩

end CustomResource

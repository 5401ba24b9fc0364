import CustomResource.Proofs.Watch.History

/-!
# The lives of objects, as they are told

What is told about one key is a sequence of lives: an object is added, updated any number of times,
and deleted, and only then may another one be added. This needs sources that keep to some order. A
list that holds a key twice is told as two additions, and the deletion of an object that nobody
knows is told as well, so both are excluded by `Orderly`; objects without a namespace are excluded
because they are found in place of others (`Store.find?`).

The automaton behind this is the observer of `Observer.after`: a notification is *expected* if the
observer's map gives reason for it. A step of the informer tells only what is expected of an
observer who agrees with the store, and whatever is expected makes a story.

## Main definitions

* `IsLife`, `IsStory`: one life of a key, and the beginning of a sequence of lives.
* `Observer.Expected`, `AllExpected`: notifications for which the map of an observer gives reason.
* `Orderly`: observations of which each deletion and each list is in order.

## Main results

* `Observer.allExpected_diff`: the comparison with a new list tells only what is expected.
* `Observer.isStory_of_allExpected`: what is expected makes a story.
* `Informer.notifications_tell_lives`: what is told after orderly observations.
-/

namespace CustomResource

variable {k : Kind}

/-! ### Stories -/

/-- What sort of change a notification tells. -/
inductive Notification.Tag where
  | added
  | updated
  | deleted
  deriving DecidableEq, Repr

/-- The sort of a notification. -/
def Notification.tag : Notification k → Tag
  | .added _ => .added
  | .updated _ _ => .updated
  | .deleted _ => .deleted

/-- One life of an object: it is added, updated any number of times, and deleted. -/
def IsLife (story : List Notification.Tag) : Prop :=
  ∃ n, story = .added :: List.replicate n .updated ++ [.deleted]

/-- A beginning of lives, one after the other. -/
def IsStory (story : List Notification.Tag) : Prop :=
  ∃ lives : List (List Notification.Tag), (∀ life ∈ lives, IsLife life) ∧ story <+: lives.flatten

/-- A story that sets in after an object has been added. -/
def IsContinuation (story : List Notification.Tag) : Prop :=
  ∃ n, ∃ lives : List (List Notification.Tag), (∀ life ∈ lives, IsLife life) ∧
    story <+: List.replicate n .updated ++ .deleted :: lives.flatten

theorem isStory_nil : IsStory [] := ⟨[], by simp, List.nil_prefix⟩

theorem isContinuation_nil : IsContinuation [] := ⟨0, [], by simp, List.nil_prefix⟩

theorem IsContinuation.added {story : List Notification.Tag} (h : IsContinuation story) :
    IsStory (.added :: story) := by
  obtain ⟨n, lives, hlives, hle⟩ := h
  refine ⟨(.added :: List.replicate n .updated ++ [.deleted]) :: lives,
    List.forall_mem_cons.mpr ⟨⟨n, rfl⟩, hlives⟩, ?_⟩
  simpa using hle

theorem IsContinuation.updated {story : List Notification.Tag} (h : IsContinuation story) :
    IsContinuation (.updated :: story) := by
  obtain ⟨n, lives, hlives, hle⟩ := h
  exact ⟨n + 1, lives, hlives, by simpa [List.replicate_succ] using hle⟩

theorem IsStory.deleted {story : List Notification.Tag} (h : IsStory story) :
    IsContinuation (.deleted :: story) := by
  obtain ⟨lives, hlives, hle⟩ := h
  exact ⟨0, lives, hlives, by simpa using hle⟩

/-! ### What an observer expects -/

namespace Observer

/-- Whether the map of an observer gives reason for a notification. What is added is not there yet;
what is updated is there in the version from which it is updated; what is deleted is there. -/
def Expected (m : Store k) : Notification k → Prop
  | .added o => ∃ key, o.key? = some key ∧ m.get? key = none
  | .updated old new => ∃ key known, new.key? = some key ∧ old.key? = some key ∧
      m.get? key = some known ∧ known.metadata.resourceVersion = old.metadata.resourceVersion
  | .deleted o => ∃ key known, o.key? = some key ∧ m.get? key = some known

/-- Whether there is reason for each of some notifications when it comes. -/
def AllExpected (m : Store k) : List (Notification k) → Prop
  | [] => True
  | n :: ns => Expected m n ∧ AllExpected (see m n) ns

theorem allExpected_append {m : Store k} {ns ns' : List (Notification k)} :
    AllExpected m (ns ++ ns') ↔ AllExpected m ns ∧ AllExpected (after m ns) ns' := by
  induction ns generalizing m with
  | nil => simp [AllExpected]
  | cons n ns ih => simp [AllExpected, ih, and_assoc]

/-- **What is expected makes a story.** The state of the automaton is whether the observer has an
object under the key. -/
theorem isStory_of_allExpected {m : Store k} {ns : List (Notification k)} (h : AllExpected m ns)
    (key : Key) :
    (m.get? key = none →
      IsStory ((ns.filter fun n => n.subject.key? = some key).map Notification.tag)) ∧
    ((m.get? key).isSome →
      IsContinuation ((ns.filter fun n => n.subject.key? = some key).map Notification.tag)) := by
  induction ns generalizing m with
  | nil => exact ⟨fun _ => isStory_nil, fun _ => isContinuation_nil⟩
  | cons n ns ih =>
    obtain ⟨hn, hns⟩ := h
    obtain ⟨hstory, hcontinuation⟩ := ih hns
    rw [get?_see] at hstory hcontinuation
    by_cases hkey : n.subject.key? = some key
    · rw [if_pos hkey] at hstory hcontinuation
      rw [List.filter_cons_of_pos (by simpa using hkey), List.map_cons]
      cases n with
      | added o =>
        obtain ⟨_, ho, hfree⟩ := hn
        obtain rfl := Option.some.inj (ho.symm.trans hkey)
        exact ⟨fun _ => (hcontinuation rfl).added, fun hsome => by simp [hfree] at hsome⟩
      | updated old new =>
        obtain ⟨_, known, hnew, _, hknown, _⟩ := hn
        obtain rfl := Option.some.inj (hnew.symm.trans hkey)
        exact ⟨fun hnone => by simp [hknown] at hnone, fun _ => (hcontinuation rfl).updated⟩
      | deleted o =>
        obtain ⟨_, known, ho, hknown⟩ := hn
        obtain rfl := Option.some.inj (ho.symm.trans hkey)
        exact ⟨fun hnone => by simp [hknown] at hnone, fun _ => (hstory rfl).deleted⟩
    · rw [if_neg hkey] at hstory hcontinuation
      rw [List.filter_cons_of_neg (by simpa using hkey)]
      exact ⟨hstory, hcontinuation⟩

/-- What an observer has under a key is what the last notification about it has announced. -/
theorem get?_after_empty (ns : List (Notification k)) (key : Key) :
    (after .empty ns).get? key =
      (ns.filter fun n => n.subject.key? = some key).getLast?.bind Notification.announced? := by
  induction ns using List.reverseRecOn with
  | nil => rfl
  | append_singleton ns n ih =>
    rw [after_append, after_cons, after_nil, get?_see, List.filter_append]
    split
    · next hkey => simp [hkey]
    · next hkey => simp [hkey, ih]

/-! ### What the informer tells is expected -/

theorem allExpected_deletions {m : Store k} {es : List (Key × Object k)}
    (hfiled : ∀ e ∈ es, e.2.key? = some e.1) (hnodup : (es.map (·.1)).Nodup)
    (hm : ∀ e ∈ es, (m.get? e.1).isSome) : AllExpected m (es.map fun e => .deleted e.2) := by
  induction es generalizing m with
  | nil => trivial
  | cons e rest ih =>
    obtain ⟨he, hrest⟩ := List.forall_mem_cons.mp hfiled
    obtain ⟨hhead, htail⟩ := List.nodup_cons.mp hnodup
    obtain ⟨hknown, hothers⟩ := List.forall_mem_cons.mp hm
    obtain ⟨known, hknown⟩ := Option.isSome_iff_exists.mp hknown
    refine ⟨⟨e.1, known, he, hknown⟩, ih hrest htail fun e' he' => ?_⟩
    have hne : e.1 ≠ e'.1 := fun heq => hhead (List.mem_map.mpr ⟨e', he', heq.symm⟩)
    have hsubject : (Notification.deleted e.2).subject.key? = some e.1 := he
    rw [get?_see, hsubject, if_neg (by simpa using hne)]
    exact hothers e' he'

theorem allExpected_notice {m : Store k} {o : Object k} {key : Key} (hkey : o.key? = some key)
    {old : Option (Object k)} (hnew : old = none → m.get? key = none)
    (hold : ∀ known, old = some known → known.key? = some key ∧
      (m.get? key).map (·.metadata.resourceVersion) = some known.metadata.resourceVersion) :
    AllExpected m (Informer.notice o old) := by
  cases old with
  | none => exact ⟨⟨key, hkey, hnew rfl⟩, trivial⟩
  | some old =>
    obtain ⟨holdkey, hversion⟩ := hold old rfl
    obtain ⟨known, hknown, hsame⟩ := Option.map_eq_some_iff.mp hversion
    rw [Informer.notice]
    split
    · exact ⟨⟨key, known, hkey, holdkey, hknown, hsame⟩, trivial⟩
    · trivial

/-- The comparison with a new list that holds no key twice tells only what is expected. As long as a
listed key has not been met, the observer knows about it what the entries say. -/
theorem allExpected_diff {previous entries : List (Key × Object k)} {m : Store k}
    (hprevious : ∀ e ∈ previous, e.2.key? = some e.1) (hpnodup : (previous.map (·.1)).Nodup)
    (hentries : ∀ e ∈ entries, e.2.key? = some e.1) (hnodup : (entries.map (·.1)).Nodup)
    (hold : ∀ key old, previous.lookup key = some old →
      (m.get? key).map (·.metadata.resourceVersion) = some old.metadata.resourceVersion)
    (hnew : ∀ e ∈ entries, previous.lookup e.1 = none → m.get? e.1 = none) :
    AllExpected m (Informer.diff previous entries) := by
  induction entries generalizing previous m with
  | nil =>
    refine allExpected_deletions hprevious hpnodup fun e he => ?_
    have hsome := hold e.1 e.2 ((Store.lookup_eq_some_iff_mem hpnodup).mpr he)
    obtain ⟨known, hknown, _⟩ := Option.map_eq_some_iff.mp hsome
    exact Option.isSome_iff_exists.mpr ⟨known, hknown⟩
  | cons e rest ih =>
    obtain ⟨head, o⟩ := e
    obtain ⟨hhead, hrest⟩ := List.forall_mem_cons.mp hentries
    obtain ⟨hnotin, hrnodup⟩ := List.nodup_cons.mp hnodup
    obtain ⟨hhnew, hrnew⟩ := List.forall_mem_cons.mp hnew
    have hother : ∀ other, other ≠ head →
        (after m (Informer.notice o (previous.lookup head))).get? other = m.get? other :=
      fun other hne => get?_after_notice_of_ne m hhead hne _
    rw [Informer.diff_cons, allExpected_append]
    refine ⟨allExpected_notice hhead hhnew fun known hknown => ?_, ih ?_ ?_ hrest hrnodup ?_ ?_⟩
    · exact ⟨hprevious _ ((Store.lookup_eq_some_iff_mem hpnodup).mp hknown), hold head known hknown⟩
    · exact fun e he => hprevious e (List.mem_filter.mp he).1
    · exact hpnodup.sublist (List.filter_sublist.map _)
    · intro key old hlookup
      rw [Store.lookup_filter_ne] at hlookup
      by_cases heq : key = head
      · simp [heq] at hlookup
      · rw [if_neg heq] at hlookup
        rw [hother key heq, hold key old hlookup]
    · intro e he hlookup
      have hne : e.1 ≠ head := fun heq => hnotin (List.mem_map.mpr ⟨e, he, heq⟩)
      rw [Store.lookup_filter_ne, if_neg hne] at hlookup
      rw [hother e.1 hne, hrnew e he hlookup]

theorem Agrees.get?_eq_none {m s : Store k} (hm : Agrees m s) {key : Key}
    (h : s.get? key = none) : m.get? key = none := by
  have hversion := hm key
  rwa [h, Option.map_none, Option.map_eq_none_iff] at hversion

theorem Agrees.exists_known {m s : Store k} (hm : Agrees m s) {key : Key} {old : Object k}
    (h : s.get? key = some old) :
    ∃ known, m.get? key = some known ∧
      known.metadata.resourceVersion = old.metadata.resourceVersion := by
  have hversion := hm key
  rwa [h, Option.map_some, Option.map_eq_some_iff] at hversion

/-- A step tells only what is expected of an observer who agrees with the store, as long as a list
holds no key twice, and only known objects are deleted. -/
theorem Agrees.allExpected_step {m s s' : Store k} {e : Observation k} {ns : List (Notification k)}
    (hm : Agrees m s) (h : Informer.Step s e ns s') (hordered : s.Ordered) (hfiled : s.Filed)
    (hscoped : ∀ e ∈ s.entries, e.1.scope.isSome)
    (hlist : ∀ os, e = .restarted os → (os.map Object.key?).Nodup)
    (hdeleted : ∀ o, e = .deleted o → ∃ key known, o.key? = some key ∧ s.get? key = some known) :
    AllExpected m ns := by
  cases h with
  | @added o key hkey hfind =>
    rw [Store.find?_of_scoped hscoped] at hfind
    exact ⟨⟨key, hkey, hm.get?_eq_none hfind⟩, trivial⟩
  | @updated o old key hkey hfind =>
    rw [Store.find?_of_scoped hscoped] at hfind
    obtain ⟨known, hknown, hversion⟩ := hm.exists_known hfind
    exact ⟨⟨key, known, hkey, hfiled _ (hordered.get?_eq_some_iff.mp hfind), hknown, hversion⟩,
      trivial⟩
  | @deleted o key hkey =>
    obtain ⟨_, old, hkey', hold⟩ := hdeleted o rfl
    obtain rfl := Option.some.inj (hkey.symm.trans hkey')
    obtain ⟨known, hknown, -⟩ := hm.exists_known hold
    exact ⟨⟨key, known, hkey, hknown⟩, trivial⟩
  | @restarted os entries hkeyed =>
    have hnodup := Informer.nodup_of_keyed? hkeyed (hlist os rfl)
    refine allExpected_diff hfiled hordered.nodup (Informer.keyed?_eq_some hkeyed).2 hnodup
      (fun key old hlookup => ?_) fun e _ hlookup => hm.get?_eq_none hlookup
    rw [hm key, show s.get? key = some old from hlookup]
    rfl

end Observer

/-! ### Orderly observations -/

/-- Observations of objects that all have a name and a namespace, with no key twice in a list, and
with no deletion of an object that the store does not hold at that point. -/
structure Orderly (history : List (Observation k)) : Prop where
  /-- Every object has a name and a namespace. -/
  placed : ∀ e ∈ history, ∀ o ∈ e.objects,
    o.metadata.name.isSome ∧ o.metadata.namespaceName.isSome
  /-- No list holds a key twice. -/
  distinct : ∀ os, .restarted os ∈ history → (os.map Object.key?).Nodup
  /-- Only what stands in the store is deleted. -/
  known : ∀ past o future ns s, history = past ++ .deleted o :: future →
    Informer.run? .empty past = some (ns, s) →
    ∃ key old, o.key? = some key ∧ s.get? key = some old

namespace Informer

theorem run_scoped {history : List (Observation k)} {s : Store k} {ns : List (Notification k)}
    (hplaced : ∀ e ∈ history, ∀ o ∈ e.objects, o.metadata.namespaceName.isSome)
    (hrun : run? .empty history = some (ns, s)) : ∀ e ∈ s.entries, e.1.scope.isSome := by
  refine run_forall_entries (P := fun e => e.1.scope.isSome) hrun fun e he key o ho hkey => ?_
  rw [← (Object.key?_eq_some_iff.mp hkey).2]
  exact hplaced e he o ho

theorem allExpected_of_run {history : List (Observation k)} {s : Store k}
    {ns : List (Notification k)} (h : Orderly history)
    (hrun : run? .empty history = some (ns, s)) : Observer.AllExpected .empty ns := by
  refine run_induction (motive := fun _ ns _ => Observer.AllExpected .empty ns) hrun trivial
    fun past before mid e now after hle hpast ih hstep => ?_
  obtain ⟨future, rfl⟩ := hle
  have hmem : e ∈ past ++ [e] ++ future := by simp
  refine Observer.allExpected_append.mpr ⟨ih, (Observer.agrees_of_run hpast).allExpected_step hstep
    (run_ordered hpast) (run_filed hpast) (run_scoped (fun e' he' o ho => ?_) hpast)
    (fun os heq => h.distinct os (heq ▸ hmem)) fun o heq => ?_⟩
  · exact (h.placed e' (by simp [he']) o ho).2
  · exact h.known past o future before mid (by simp [heq]) hpast

/-- **What is told about a key is a story of lives.** After orderly observations the notifications
about any key are a beginning of (added, updated any number of times, deleted), repeated. An update
leads from an object to one of the same key, and the former has the version of the object that was
announced last under that key. -/
theorem notifications_tell_lives (history : List (Observation k)) (h : Orderly history) :
    ∃ ns s, run? .empty history = some (ns, s) ∧
      (∀ key, IsStory ((ns.filter fun n => n.subject.key? = some key).map Notification.tag)) ∧
      ∀ before old new later, ns = before ++ .updated old new :: later →
        ∃ key announced, new.key? = some key ∧ old.key? = some key ∧
          (before.filter fun n => n.subject.key? = some key).getLast?.bind
            Notification.announced? = some announced ∧
          announced.metadata.resourceVersion = old.metadata.resourceVersion := by
  obtain ⟨ns, s, hrun⟩ := exists_run .empty fun e he o ho => (h.placed e he o ho).1
  have hall := allExpected_of_run h hrun
  refine ⟨ns, s, hrun, fun key => (Observer.isStory_of_allExpected hall key).1 rfl, ?_⟩
  rintro before old new later rfl
  obtain ⟨-, ⟨key, known, hnew, hold, hknown, hversion⟩, -⟩ := Observer.allExpected_append.mp hall
  exact ⟨key, known, hnew, hold, (Observer.get?_after_empty before key).symm.trans hknown, hversion⟩

/-- Two lists, with a change and a deletion between them, and a second life of a deleted object. -/
def sampleLives : List (Observation .test) :=
  [.restarted [.sample "crd" "x" "1" "a", .sample "crd" "y" "2" "b"],
    .applied (.sample "crd" "x" "3" "a"), .deleted (.sample "crd" "y" "4" "b"),
    .restarted [.sample "crd" "x" "3" "a", .sample "crd" "y" "5" "c"]]

theorem orderly_sampleLives : Orderly sampleLives where
  placed := by simp [sampleLives, Observation.objects, Object.sample]
  distinct os hos := by
    have hlists : os = [.sample "crd" "x" "1" "a", .sample "crd" "y" "2" "b"] ∨
        os = [.sample "crd" "x" "3" "a", .sample "crd" "y" "5" "c"] := by
      simpa [sampleLives] using hos
    rcases hlists with rfl | rfl <;> decide
  known past o future ns s heq hrun := by
    -- the only deletion comes after the first two observations
    obtain ⟨hpast, ho⟩ : past = sampleLives.take 2 ∧ o = .sample "crd" "y" "4" "b" := by
      rcases past with _ | ⟨_, _ | ⟨_, _ | ⟨_, _ | ⟨_, past⟩⟩⟩⟩ <;>
        simp_all [sampleLives]
    subst hpast ho
    exact ⟨⟨some "crd", "y"⟩, .sample "crd" "y" "2" "b", rfl, (get?_of_run hrun _).trans rfl⟩

theorem notifications_tell_sampleLives :
    Orderly sampleLives ∧ ∃ ns s, run? .empty sampleLives = some (ns, s) ∧
      (∀ key, IsStory ((ns.filter fun n => n.subject.key? = some key).map Notification.tag)) ∧
      ∀ before old new later, ns = before ++ .updated old new :: later →
        ∃ key announced, new.key? = some key ∧ old.key? = some key ∧
          (before.filter fun n => n.subject.key? = some key).getLast?.bind
            Notification.announced? = some announced ∧
          announced.metadata.resourceVersion = old.metadata.resourceVersion :=
  ⟨orderly_sampleLives, notifications_tell_lives sampleLives orderly_sampleLives⟩

end Informer

end CustomResource

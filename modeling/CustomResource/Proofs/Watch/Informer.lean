import CustomResource.Proofs.Watch.Store
import CustomResource.Watch.Informer
import Mathlib.Data.List.Basic
import Mathlib.Data.List.Induction
import Mathlib.Data.List.Nodup

/-!
# What the informer does with observations

`Informer.Step` lists the four things that an observation can lead to, with everything that is
known in each case, and `Informer.step?_eq_some_iff` says that there are no others. Facts about the
informer are proved by cases on a step and do not open `Informer.step?` again. `Informer.run?` takes
one observation after the other; `run_induction` is the only induction over it.

## Main definitions

* `Observation.objects`: the objects of an observation.
* `Observation.Named`: all of them have names.
* `Informer.notice`: what is told of one object of a new list.
* `Informer.Step`: the steps.
* `Informer.run?`: the notifications of some observations, and the store after them.

## Main results

* `Informer.diff_cons`, `diff_eq_of_nodup`: the comparison with a new list, object by object.
* `Informer.step?_eq_some_iff`: the function is described by the steps.
* `Informer.exists_step`, `exists_run`: named objects never break the informer off.
* `Informer.run_induction`: what holds at the start and is kept by steps holds after every run.
* `Informer.run_ordered`, `run_filed`, `run_forall_entries`: what holds of the entries after a run.
-/

namespace CustomResource

variable {k : Kind}

theorem Object.key?_eq_some_iff {o : Object k} {key : Key} :
    o.key? = some key ↔ o.metadata.name = some key.name ∧ o.metadata.namespaceName = key.scope := by
  obtain ⟨scope, name⟩ := key
  cases hname : o.metadata.name <;> simp [Object.key?, hname, and_comm]

theorem Object.isSome_key? (o : Object k) : o.key?.isSome = o.metadata.name.isSome := by
  simp [Object.key?]

namespace Observation

/-- The objects that an observation carries. -/
def objects : Observation k → List (Object k)
  | .applied o => [o]
  | .deleted o => [o]
  | .restarted os => os

/-- Every object of the observation has a name. -/
def Named (e : Observation k) : Prop := ∀ o ∈ e.objects, o.metadata.name.isSome

end Observation

namespace Informer

/-! ### Objects with their keys -/

theorem exists_keyed {os : List (Object k)} (h : ∀ o ∈ os, o.metadata.name.isSome) :
    ∃ entries, keyed? os = some entries := by
  induction os with
  | nil => exact ⟨[], rfl⟩
  | cons o os ih =>
    obtain ⟨ho, hos⟩ := List.forall_mem_cons.mp h
    obtain ⟨rest, hrest⟩ := ih hos
    obtain ⟨key, hkey⟩ := Option.isSome_iff_exists.mp (o.isSome_key?.trans ho)
    exact ⟨(key, o) :: rest, by simp [keyed?, hkey, hrest]⟩

/-- The keyed objects are the objects themselves, in order, each with its own key. -/
theorem keyed?_eq_some {os : List (Object k)} {entries : List (Key × Object k)}
    (h : keyed? os = some entries) :
    entries.map (·.2) = os ∧ ∀ e ∈ entries, e.2.key? = some e.1 := by
  induction os generalizing entries with
  | nil =>
    obtain rfl : [] = entries := by simpa [keyed?] using h
    simp
  | cons o os ih =>
    rw [keyed?] at h
    split at h
    · next key rest hkey hrest =>
      obtain rfl : (key, o) :: rest = entries := by simpa using h
      obtain ⟨hmap, hfiled⟩ := ih hrest
      exact ⟨by rw [List.map_cons, hmap], List.forall_mem_cons.mpr ⟨hkey, hfiled⟩⟩
    · simp at h

theorem nodup_of_keyed? {os : List (Object k)} {entries : List (Key × Object k)}
    (h : keyed? os = some entries) (hos : (os.map Object.key?).Nodup) :
    (entries.map (·.1)).Nodup := by
  obtain ⟨rfl, hfiled⟩ := keyed?_eq_some h
  have hkeys : (entries.map (·.1)).map some = (entries.map (·.2)).map Object.key? := by
    rw [List.map_map, List.map_map]
    exact List.map_congr_left fun e he => (hfiled e he).symm
  exact List.Nodup.of_map some (hkeys ▸ hos)

/-! ### The comparison with a new list

`Informer.diff` goes through the new list and drops what it meets from the entries that were known
before. `notice` is what it tells of one object, so that `diff_cons` is the only place where the
three cases of the comparison are opened. -/

/-- What is told of a listed object, by what stood under its key before. -/
def notice (o : Object k) : Option (Object k) → List (Notification k)
  | none => [.added o]
  | some old =>
    if old.metadata.resourceVersion ≠ o.metadata.resourceVersion then [.updated old o] else []

theorem filter_ne_of_lookup_eq_none {previous : List (Key × Object k)} {key : Key}
    (h : previous.lookup key = none) : (previous.filter fun e => e.1 ≠ key) = previous := by
  refine List.filter_eq_self.mpr fun e he => ?_
  have hne : ¬ (key == e.1) = true := by simpa using List.lookup_eq_none_iff.mp h e he
  exact decide_eq_true fun heq => hne (beq_iff_eq.mpr heq.symm)

theorem diff_cons (previous : List (Key × Object k)) (key : Key) (o : Object k)
    (rest : List (Key × Object k)) :
    diff previous ((key, o) :: rest) =
      notice o (previous.lookup key) ++ diff (previous.filter fun e => e.1 ≠ key) rest := by
  rw [diff]
  split
  · next hnone => rw [hnone, filter_ne_of_lookup_eq_none hnone]; rfl
  · next old hsome =>
    rw [hsome, notice]
    split <;> rfl

/-- Where no key is listed twice, every listed object is compared with what stood under its key at
the beginning, and what is not listed has been deleted. -/
theorem diff_eq_of_nodup (previous : List (Key × Object k)) {entries : List (Key × Object k)}
    (h : (entries.map (·.1)).Nodup) :
    diff previous entries =
      entries.flatMap (fun e => notice e.2 (previous.lookup e.1)) ++
        (previous.filter fun e => e.1 ∉ entries.map (·.1)).map fun e => .deleted e.2 := by
  induction entries generalizing previous with
  | nil => rw [diff, List.filter_eq_self.mpr (by simp)]; rfl
  | cons e rest ih =>
    obtain ⟨head, o⟩ := e
    obtain ⟨hhead, hrest⟩ := List.nodup_cons.mp h
    have hsame : rest.flatMap (fun e => notice e.2
          ((previous.filter fun e => e.1 ≠ head).lookup e.1)) =
        rest.flatMap fun e => notice e.2 (previous.lookup e.1) := by
      refine List.flatMap_congr fun e he => ?_
      have hne : e.1 ≠ head := fun heq => hhead (List.mem_map.mpr ⟨e, he, heq⟩)
      rw [Store.lookup_filter_ne, if_neg hne]
    rw [diff_cons, ih _ hrest, hsame, List.flatMap_cons, List.append_assoc, List.filter_filter]
    congr 3
    refine List.filter_congr fun e _ => ?_
    rw [List.map_cons, ← Bool.decide_and]
    exact decide_eq_decide.mpr (by simp [and_comm])

/-! ### Steps -/

/-- What an observation leads to: the notifications, and the store after it. -/
inductive Step (s : Store k) : Observation k → List (Notification k) → Store k → Prop
  /-- An object that is not found is new. -/
  | added {o : Object k} {key : Key} (hkey : o.key? = some key) (hfind : s.find? key = none) :
    Step s (.applied o) [.added o] (s.put key o)
  /-- An object that is found takes the place of the one that stands under its key. -/
  | updated {o old : Object k} {key : Key} (hkey : o.key? = some key)
    (hfind : s.find? key = some old) : Step s (.applied o) [.updated old o] (s.put key o)
  /-- A deletion is told whether or not the object was known. -/
  | deleted {o : Object k} {key : Key} (hkey : o.key? = some key) :
    Step s (.deleted o) [.deleted o] (s.erase key)
  /-- A new list is compared with the entries, and takes their place. -/
  | restarted {os : List (Object k)} {entries : List (Key × Object k)}
    (hkeyed : keyed? os = some entries) :
    Step s (.restarted os) (diff s.entries entries) (.ofList entries)

theorem step?_eq_some_iff {s s' : Store k} {e : Observation k} {ns : List (Notification k)} :
    step? s e = some (ns, s') ↔ Step s e ns s' := by
  constructor
  · intro h
    cases e with
    | applied o =>
      obtain ⟨key, hkey, h⟩ := Option.map_eq_some_iff.mp h
      cases hfind : s.find? key with
      | none =>
        obtain ⟨rfl, rfl⟩ : [.added o] = ns ∧ s.put key o = s' := by simpa [hfind] using h
        exact .added hkey hfind
      | some old =>
        obtain ⟨rfl, rfl⟩ : [.updated old o] = ns ∧ s.put key o = s' := by simpa [hfind] using h
        exact .updated hkey hfind
    | deleted o =>
      obtain ⟨key, hkey, h⟩ := Option.map_eq_some_iff.mp h
      obtain ⟨rfl, rfl⟩ : [.deleted o] = ns ∧ s.erase key = s' := by simpa using h
      exact .deleted hkey
    | restarted os =>
      obtain ⟨entries, hkeyed, h⟩ := Option.map_eq_some_iff.mp h
      obtain ⟨rfl, rfl⟩ : diff s.entries entries = ns ∧ Store.ofList entries = s' := by
        simpa using h
      exact .restarted hkeyed
  · intro h
    cases h with
    | added hkey hfind => simp [step?, hkey, hfind]
    | updated hkey hfind => simp [step?, hkey, hfind]
    | deleted hkey => simp [step?, hkey]
    | restarted hkeyed => simp [step?, hkeyed]

theorem exists_step (s : Store k) {e : Observation k} (h : e.Named) :
    ∃ ns s', step? s e = some (ns, s') := by
  cases e with
  | applied o =>
    have hname : o.key?.isSome := o.isSome_key?.trans (h o List.mem_cons_self)
    obtain ⟨key, hkey⟩ := Option.isSome_iff_exists.mp hname
    cases hfind : s.find? key with
    | none => exact ⟨_, _, step?_eq_some_iff.mpr (.added hkey hfind)⟩
    | some old => exact ⟨_, _, step?_eq_some_iff.mpr (.updated hkey hfind)⟩
  | deleted o =>
    have hname : o.key?.isSome := o.isSome_key?.trans (h o List.mem_cons_self)
    obtain ⟨key, hkey⟩ := Option.isSome_iff_exists.mp hname
    exact ⟨_, _, step?_eq_some_iff.mpr (.deleted hkey)⟩
  | restarted os =>
    obtain ⟨entries, hkeyed⟩ := exists_keyed h
    exact ⟨_, _, step?_eq_some_iff.mpr (.restarted hkeyed)⟩

/-! ### What a step keeps -/

theorem Step.ordered {s s' : Store k} {e : Observation k} {ns : List (Notification k)}
    (h : Step s e ns s') (hs : s.Ordered) : s'.Ordered := by
  cases h with
  | added => exact hs.put _ _
  | updated => exact hs.put _ _
  | deleted => exact hs.erase _
  | restarted => exact Store.ordered_ofList _

/-- A step files objects under their own keys, and files no object that it has not observed. -/
theorem Step.forall_entries {P : Key × Object k → Prop} {s s' : Store k} {e : Observation k}
    {ns : List (Notification k)} (h : Step s e ns s') (hs : ∀ e ∈ s.entries, P e)
    (he : ∀ key, ∀ o ∈ e.objects, o.key? = some key → P (key, o)) : ∀ e ∈ s'.entries, P e := by
  cases h with
  | added hkey => exact Store.forall_mem_put hs (he _ _ List.mem_cons_self hkey)
  | updated hkey => exact Store.forall_mem_put hs (he _ _ List.mem_cons_self hkey)
  | deleted => exact Store.forall_mem_erase hs _
  | restarted hkeyed =>
    obtain ⟨rfl, hfiled⟩ := keyed?_eq_some hkeyed
    exact Store.forall_mem_ofList fun e hmem =>
      he e.1 e.2 (List.mem_map_of_mem hmem) (hfiled e hmem)

/-! ### Runs -/

/-- The notifications of some observations, one after the other, and the store after them. None if
an object has no name. -/
def run? (s : Store k) : List (Observation k) → Option (List (Notification k) × Store k)
  | [] => some ([], s)
  | e :: es =>
    (step? s e).bind fun (ns, after) =>
      (run? after es).map fun (rest, last) => (ns ++ rest, last)

theorem run?_cons_eq_some_iff {s s' : Store k} {e : Observation k} {es : List (Observation k)}
    {ns : List (Notification k)} :
    run? s (e :: es) = some (ns, s') ↔
      ∃ now mid rest, Step s e now mid ∧ run? mid es = some (rest, s') ∧ ns = now ++ rest := by
  simp only [run?, Option.bind_eq_some_iff, Option.map_eq_some_iff, Prod.exists, Prod.mk.injEq,
    step?_eq_some_iff]
  constructor
  · rintro ⟨now, mid, hstep, rest, _, hrun, rfl, rfl⟩
    exact ⟨now, mid, rest, hstep, hrun, rfl⟩
  · rintro ⟨now, mid, rest, hstep, hrun, rfl⟩
    exact ⟨now, mid, hstep, rest, s', hrun, rfl, rfl⟩

theorem exists_run (s : Store k) {history : List (Observation k)} (h : ∀ e ∈ history, e.Named) :
    ∃ ns s', run? s history = some (ns, s') := by
  induction history generalizing s with
  | nil => exact ⟨[], s, rfl⟩
  | cons e es ih =>
    obtain ⟨he, hes⟩ := List.forall_mem_cons.mp h
    obtain ⟨now, mid, hstep⟩ := exists_step s he
    obtain ⟨rest, s', hrun⟩ := ih mid hes
    exact ⟨now ++ rest, s', run?_cons_eq_some_iff.mpr
      ⟨now, mid, rest, step?_eq_some_iff.mp hstep, hrun, rfl⟩⟩

theorem run?_append {s s' : Store k} {past future : List (Observation k)}
    {ns : List (Notification k)} :
    run? s (past ++ future) = some (ns, s') ↔
      ∃ before mid after, run? s past = some (before, mid) ∧
        run? mid future = some (after, s') ∧ ns = before ++ after := by
  induction past generalizing s ns with
  | nil =>
    simp only [List.nil_append, run?, Option.some.injEq, Prod.mk.injEq]
    constructor
    · exact fun h => ⟨[], s, ns, ⟨rfl, rfl⟩, h, rfl⟩
    · rintro ⟨_, _, _, ⟨rfl, rfl⟩, h, rfl⟩
      exact h
  | cons e past ih =>
    rw [List.cons_append, run?_cons_eq_some_iff]
    constructor
    · rintro ⟨now, mid, rest, hstep, hrun, rfl⟩
      obtain ⟨before, mid', after, hpast, hfuture, rfl⟩ := ih.mp hrun
      exact ⟨now ++ before, mid', after,
        run?_cons_eq_some_iff.mpr ⟨now, mid, before, hstep, hpast, rfl⟩, hfuture,
        (List.append_assoc ..).symm⟩
    · rintro ⟨_, mid', after, hpast, hfuture, rfl⟩
      obtain ⟨now, mid, before, hstep, hrun, rfl⟩ := run?_cons_eq_some_iff.mp hpast
      exact ⟨now, mid, before ++ after, hstep, ih.mpr ⟨before, mid', after, hrun, hfuture, rfl⟩,
        List.append_assoc ..⟩

theorem run?_singleton_eq_some_iff {s s' : Store k} {e : Observation k}
    {ns : List (Notification k)} : run? s [e] = some (ns, s') ↔ Step s e ns s' := by
  rw [run?_cons_eq_some_iff]
  constructor
  · rintro ⟨now, mid, rest, hstep, hrun, rfl⟩
    obtain ⟨rfl, rfl⟩ : [] = rest ∧ mid = s' := by simpa [run?] using hrun
    rwa [List.append_nil]
  · exact fun h => ⟨ns, s', [], h, rfl, (List.append_nil ns).symm⟩

/-- **Induction over a run.** What holds before the first observation and is kept by every step
holds at the end. It may speak of the observations so far, of the notifications so far, and of the
store. -/
theorem run_induction {motive : List (Observation k) → List (Notification k) → Store k → Prop}
    {s s' : Store k} {history : List (Observation k)} {ns : List (Notification k)}
    (hrun : run? s history = some (ns, s')) (start : motive [] [] s)
    (step : ∀ past before mid e now after, past ++ [e] <+: history →
      run? s past = some (before, mid) → motive past before mid → Step mid e now after →
      motive (past ++ [e]) (before ++ now) after) :
    motive history ns s' := by
  suffices ∀ past, past <+: history → ∀ before mid, run? s past = some (before, mid) →
      motive past before mid from this history (List.prefix_refl _) ns s' hrun
  intro past
  induction past using List.reverseRecOn with
  | nil =>
    intro _ before mid hpast
    obtain ⟨rfl, rfl⟩ : [] = before ∧ s = mid := by simpa [run?] using hpast
    exact start
  | append_singleton past e ih =>
    intro hle before mid hpast
    obtain ⟨before, mid', now, hbefore, hnow, rfl⟩ := run?_append.mp hpast
    exact step past before mid' e now mid hle hbefore
      (ih ((List.prefix_append _ _).trans hle) before mid' hbefore)
      (run?_singleton_eq_some_iff.mp hnow)

theorem run_ordered {s : Store k} {history : List (Observation k)} {ns : List (Notification k)}
    (hrun : run? .empty history = some (ns, s)) : s.Ordered :=
  run_induction (motive := fun _ _ s => s.Ordered) hrun Store.ordered_empty
    fun _ _ _ _ _ _ _ _ hs hstep => hstep.ordered hs

theorem run_forall_entries {P : Key × Object k → Prop} {s : Store k}
    {history : List (Observation k)} {ns : List (Notification k)}
    (hrun : run? .empty history = some (ns, s))
    (h : ∀ e ∈ history, ∀ key, ∀ o ∈ e.objects, o.key? = some key → P (key, o)) :
    ∀ e ∈ s.entries, P e :=
  run_induction (motive := fun _ _ s => ∀ e ∈ s.entries, P e) hrun (by simp [Store.empty])
    fun _ _ _ e _ _ hle _ hs hstep => hstep.forall_entries hs (h e (hle.subset (by simp)))

theorem run_filed {s : Store k} {history : List (Observation k)} {ns : List (Notification k)}
    (hrun : run? .empty history = some (ns, s)) : s.Filed :=
  run_forall_entries hrun fun _ _ _ _ _ hkey => hkey

end Informer

end CustomResource

import CustomResource.Watch.Store

/-!
# Looking up objects in a store

A store is a list of entries. What is proved about stores goes through `Store.get?`: each operation
is described by what it does to the look-up of every key. The order of the entries matters at one
place only, where the entries are gone through one by one: there no key may occur twice.

## Main definitions

* `Store.Ordered`: the entries stand in the order of their keys.
* `Store.Filed`: every object stands under its own key.

## Main results

* `Key.before_irrefl`, `before_trans`, `before_of_not_before`: the order of keys is strict and
  total.
* `Store.get?_put`, `get?_erase`, `get?_ofList`: what is found after an operation.
* `Store.Ordered.put`, `Ordered.erase`, `ordered_ofList`: the operations keep the order.
* `Store.Ordered.get?_eq_some_iff`: an ordered store finds exactly its entries.
* `Store.Ordered.ext`, `ofList_eq_of_perm`: an ordered store is determined by what is found in it,
  so that the order in which objects are put into it does not matter.
* `Store.get?_eq_some_iff_of_filed`: what is found under a key, told by the objects.
* `Store.find?_eq_get?_iff`: when a look-up does not fall back to the key without a namespace.
-/

namespace CustomResource

/-! ### The order of keys -/

namespace Key

theorem before_iff {a b : Key} :
    a.before b = true ↔ a.text < b.text ∨ a.text = b.text ∧ scopeBefore a.scope b.scope = true := by
  simp [before]

theorem scopeBefore_irrefl (a : Option String) : scopeBefore a a = false := by
  cases a <;> simp [scopeBefore]

theorem scopeBefore_some_iff {x y : String} :
    scopeBefore (some x) (some y) = true ↔ x < y := decide_eq_true_iff

theorem scopeBefore_trans {a b c : Option String} (hab : scopeBefore a b = true)
    (hbc : scopeBefore b c = true) : scopeBefore a c = true := by
  cases c with
  | none => simp [scopeBefore] at hbc
  | some z =>
    cases b with
    | none => simp [scopeBefore] at hab
    | some y =>
      cases a with
      | none => rfl
      | some x =>
        rw [scopeBefore_some_iff] at *
        exact String.lt_trans hab hbc

theorem scopeBefore_of_not_scopeBefore {a b : Option String} (hne : a ≠ b)
    (h : scopeBefore a b = false) : scopeBefore b a = true := by
  cases a with
  | none => cases b <;> simp [scopeBefore] at *
  | some x =>
    cases b with
    | none => rfl
    | some y =>
      have hle : y ≤ x := String.not_lt.mp (decide_eq_false_iff_not.mp h)
      have hxy : y ≠ x := fun heq => hne (congrArg some heq.symm)
      exact scopeBefore_some_iff.mpr (Std.lt_of_le_of_ne hle hxy)

/-- The text and the namespace of a key determine its name. -/
theorem eq_of_text_eq {a b : Key} (htext : a.text = b.text) (hscope : a.scope = b.scope) :
    a = b := by
  obtain ⟨scope, name⟩ := a
  obtain ⟨scope', name'⟩ := b
  obtain rfl : scope = scope' := hscope
  cases scope <;> simpa [text] using htext

theorem before_irrefl (a : Key) : a.before a = false := by
  simp [before, scopeBefore_irrefl]

theorem before_trans {a b c : Key} (hab : a.before b = true) (hbc : b.before c = true) :
    a.before c = true := by
  rw [before_iff] at *
  rcases hab with hab | ⟨hab, sab⟩ <;> rcases hbc with hbc | ⟨hbc, sbc⟩
  · exact Or.inl (String.lt_trans hab hbc)
  · exact Or.inl (hbc ▸ hab)
  · exact Or.inl (hab ▸ hbc)
  · exact Or.inr ⟨hab.trans hbc, scopeBefore_trans sab sbc⟩

theorem ne_of_before {a b : Key} (h : a.before b = true) : a ≠ b := by
  rintro rfl
  simp [before_irrefl] at h

/-- Of two different keys one comes before the other. -/
theorem before_of_not_before {a b : Key} (hne : a ≠ b) (h : a.before b = false) :
    b.before a = true := by
  have hnot : ¬ a.before b = true := by simp [h]
  rw [before_iff] at hnot ⊢
  by_cases htext : a.text = b.text
  · have hscope : a.scope ≠ b.scope := fun hs => hne (eq_of_text_eq htext hs)
    refine Or.inr ⟨htext.symm, scopeBefore_of_not_scopeBefore hscope ?_⟩
    simpa [htext] using hnot
  · have hle : b.text ≤ a.text := String.not_lt.mp fun hlt => hnot (Or.inl hlt)
    exact Or.inl (Std.lt_of_le_of_ne hle (Ne.symm htext))

end Key

namespace Store

variable {k : Kind}

/-! ### What is found -/

@[simp] theorem get?_empty (key : Key) : (empty : Store k).get? key = none := rfl

theorem lookup_cons_eq_ite (key head : Key) (o : Object k) (es : List (Key × Object k)) :
    ((head, o) :: es).lookup key = if key = head then some o else es.lookup key := by
  by_cases h : key = head
  · subst h; simp
  · rw [List.lookup_cons, beq_false_of_ne h, if_neg h]

theorem lookup_putEntry (key other : Key) (o : Object k) (es : List (Key × Object k)) :
    (putEntry key o es).lookup other = if other = key then some o else es.lookup other := by
  induction es with
  | nil => rw [putEntry, lookup_cons_eq_ite]
  | cons e rest ih =>
    obtain ⟨head, old⟩ := e
    rw [putEntry]
    split
    · next heq =>
      subst heq
      rw [lookup_cons_eq_ite, lookup_cons_eq_ite]
      split <;> rfl
    · next hne =>
      split
      · rw [lookup_cons_eq_ite]
      · rw [lookup_cons_eq_ite, ih, lookup_cons_eq_ite]
        by_cases h : other = head
        · rw [if_pos h, if_pos h, if_neg fun hk => hne (hk.symm.trans h)]
        · rw [if_neg h, if_neg h]

/-- **Look-up after writing.** -/
theorem get?_put (s : Store k) (key other : Key) (o : Object k) :
    (s.put key o).get? other = if other = key then some o else s.get? other :=
  lookup_putEntry key other o s.entries

theorem lookup_filter_ne (key other : Key) (es : List (Key × Object k)) :
    (es.filter fun e => e.1 ≠ key).lookup other =
      if other = key then none else es.lookup other := by
  induction es with
  | nil => simp
  | cons e rest ih =>
    obtain ⟨head, old⟩ := e
    by_cases hhead : head = key
    · rw [List.filter_cons_of_neg (by simpa using hhead), ih, lookup_cons_eq_ite, hhead]
      split <;> rfl
    · rw [List.filter_cons_of_pos (by simpa using hhead), lookup_cons_eq_ite, ih,
        lookup_cons_eq_ite]
      by_cases h : other = head
      · rw [if_pos h, if_pos h, if_neg fun hk => hhead (h.symm.trans hk)]
      · rw [if_neg h, if_neg h]

/-- **Look-up after removing.** -/
theorem get?_erase (s : Store k) (key other : Key) :
    (s.erase key).get? other = if other = key then none else s.get? other :=
  lookup_filter_ne key other s.entries

theorem get?_foldl_put (s : Store k) (es : List (Key × Object k)) (key : Key) :
    (es.foldl (fun s e => s.put e.1 e.2) s).get? key =
      ((es.filter fun e => e.1 = key).getLast?.map (·.2)).or (s.get? key) := by
  induction es generalizing s with
  | nil => simp
  | cons e rest ih =>
    rw [List.foldl_cons, ih, get?_put]
    by_cases h : e.1 = key
    · rw [List.filter_cons_of_pos (by simpa using h), List.getLast?_cons, if_pos h.symm]
      cases (rest.filter fun e => e.1 = key).getLast? <;> simp
    · rw [List.filter_cons_of_neg (by simpa using h), if_neg (Ne.symm h)]

/-- **Look-up in a store of some objects**: of several under one key the last is found. -/
theorem get?_ofList (es : List (Key × Object k)) (key : Key) :
    (ofList es).get? key = (es.filter fun e => e.1 = key).getLast?.map (·.2) := by
  rw [ofList, get?_foldl_put, get?_empty, Option.or_none]

/-! ### The order of entries -/

/-- The entries stand in the order of their keys. So no key occurs twice. -/
def Ordered (s : Store k) : Prop :=
  s.entries.Pairwise fun a b => a.1.before b.1 = true

theorem Ordered.nodup {s : Store k} (h : s.Ordered) : (s.entries.map (·.1)).Nodup :=
  List.pairwise_map.mpr (h.imp Key.ne_of_before)

theorem ordered_empty : (empty : Store k).Ordered := List.Pairwise.nil

theorem mem_putEntry {key : Key} {o : Object k} {e : Key × Object k} :
    ∀ {es : List (Key × Object k)}, e ∈ putEntry key o es → e = (key, o) ∨ e ∈ es
  | [], h => Or.inl (by simpa [putEntry] using h)
  | (head, old) :: rest, h => by
    rw [putEntry] at h
    split at h
    · rcases List.mem_cons.mp h with h | h
      · exact Or.inl h
      · exact Or.inr (List.mem_cons_of_mem _ h)
    · split at h
      · exact List.mem_cons.mp h
      · rcases List.mem_cons.mp h with h | h
        · exact Or.inr (h ▸ List.mem_cons_self)
        · exact (mem_putEntry h).imp_right (List.mem_cons_of_mem _)

theorem Ordered.put {s : Store k} (h : s.Ordered) (key : Key) (o : Object k) :
    (s.put key o).Ordered := by
  obtain ⟨es⟩ := s
  simp only [Ordered, Store.put] at h ⊢
  induction es with
  | nil => simp [putEntry]
  | cons e rest ih =>
    obtain ⟨head, old⟩ := e
    obtain ⟨hhead, hrest⟩ := List.pairwise_cons.mp h
    rw [putEntry]
    split
    · next heq => subst heq; exact List.pairwise_cons.mpr ⟨hhead, hrest⟩
    · next hne =>
      split
      · next hbefore =>
        refine List.pairwise_cons.mpr ⟨fun e he => ?_, h⟩
        rcases List.mem_cons.mp he with rfl | he
        · exact hbefore
        · exact Key.before_trans hbefore (hhead e he)
      · next hnot =>
        refine List.pairwise_cons.mpr ⟨fun e he => ?_, ih hrest⟩
        rcases mem_putEntry he with rfl | he
        · exact Key.before_of_not_before hne (by simpa using hnot)
        · exact hhead e he

theorem Ordered.erase {s : Store k} (h : s.Ordered) (key : Key) : (s.erase key).Ordered :=
  List.Pairwise.filter _ h

theorem ordered_ofList (es : List (Key × Object k)) : (ofList es).Ordered := by
  suffices ∀ s : Store k, s.Ordered → (es.foldl (fun s e => s.put e.1 e.2) s).Ordered from
    this _ ordered_empty
  induction es with
  | nil => exact fun s h => h
  | cons e rest ih => exact fun s h => ih _ (h.put e.1 e.2)

/-- Where no key occurs twice, exactly the entries are found. -/
theorem lookup_eq_some_iff_mem {es : List (Key × Object k)} (h : (es.map (·.1)).Nodup) {key : Key}
    {o : Object k} : es.lookup key = some o ↔ (key, o) ∈ es := by
  induction es with
  | nil => simp
  | cons e rest ih =>
    obtain ⟨head, old⟩ := e
    obtain ⟨hhead, hrest⟩ := List.nodup_cons.mp h
    rw [lookup_cons_eq_ite, List.mem_cons, ← ih hrest]
    by_cases heq : key = head
    · subst heq
      have hnone : rest.lookup key ≠ some o := fun hm =>
        hhead (List.mem_map.mpr ⟨_, (ih hrest).mp hm, rfl⟩)
      simp [hnone, eq_comm]
    · simp [heq]

theorem Ordered.get?_eq_some_iff {s : Store k} (h : s.Ordered) {key : Key} {o : Object k} :
    s.get? key = some o ↔ (key, o) ∈ s.entries :=
  lookup_eq_some_iff_mem h.nodup

/-- Entries among which no key occurs twice are found in any order. -/
theorem lookup_eq_of_perm {es es' : List (Key × Object k)} (h : es.Perm es')
    (hnodup : (es.map (·.1)).Nodup) (key : Key) : es.lookup key = es'.lookup key := by
  have hnodup' : (es'.map (·.1)).Nodup := (h.map (·.1)).nodup_iff.mp hnodup
  refine Option.ext fun o => ?_
  rw [lookup_eq_some_iff_mem hnodup, lookup_eq_some_iff_mem hnodup', h.mem_iff]

/-- In a store of objects no two of which have one key, each of them is found. -/
theorem get?_ofList_of_nodup {es : List (Key × Object k)} (h : (es.map (·.1)).Nodup) (key : Key) :
    (ofList es).get? key = es.lookup key := by
  rw [get?_ofList]
  induction es with
  | nil => rfl
  | cons e rest ih =>
    obtain ⟨head, o⟩ := e
    obtain ⟨hhead, hrest⟩ := List.nodup_cons.mp h
    rw [lookup_cons_eq_ite, ← ih hrest]
    by_cases heq : head = key
    · subst heq
      have hnone : rest.filter (fun e => e.1 = head) = [] := by
        refine List.filter_eq_nil_iff.mpr fun e he hsame => hhead ?_
        exact List.mem_map.mpr ⟨e, he, by simpa using hsame⟩
      rw [List.filter_cons_of_pos (by simp), hnone, if_pos rfl]
      rfl
    · rw [List.filter_cons_of_neg (by simpa using heq), if_neg (Ne.symm heq)]

/-- **Ordered stores are equal** if the same is found in them. -/
theorem Ordered.ext {s s' : Store k} (h : s.Ordered) (h' : s'.Ordered)
    (hfound : ∀ key, s.get? key = s'.get? key) : s = s' := by
  have hmem : ∀ e, e ∈ s.entries ↔ e ∈ s'.entries := fun e => by
    rw [← h.get?_eq_some_iff, ← h'.get?_eq_some_iff, hfound]
  have hne : ∀ {t : Store k}, t.Ordered → t.entries.Nodup := fun ht =>
    ht.imp fun hbefore heq => Key.ne_of_before hbefore (congrArg Prod.fst heq)
  have hperm := (List.perm_ext_iff_of_nodup (hne h) (hne h')).mpr hmem
  -- no key comes before another one that comes before it
  have hasymm : ∀ a b : Key × Object k, a.1.before b.1 = true → b.1.before a.1 = true → a = b :=
    fun a b hab hba => absurd rfl (Key.ne_of_before (Key.before_trans hab hba))
  exact congrArg mk (hperm.eq_of_pairwise (fun a b _ _ => hasymm a b) h h')

/-- A store does not depend on the order in which objects with different keys are put into it. -/
theorem ofList_eq_of_perm {es es' : List (Key × Object k)} (h : es.Perm es')
    (hnodup : (es.map (·.1)).Nodup) : ofList es = ofList es' := by
  have hnodup' : (es'.map (·.1)).Nodup := (h.map (·.1)).nodup_iff.mp hnodup
  refine (ordered_ofList es).ext (ordered_ofList es') fun key => ?_
  rw [get?_ofList_of_nodup hnodup, get?_ofList_of_nodup hnodup', lookup_eq_of_perm h hnodup]

/-! ### What holds of all entries -/

theorem forall_mem_put {P : Key × Object k → Prop} {s : Store k} (h : ∀ e ∈ s.entries, P e)
    {key : Key} {o : Object k} (ho : P (key, o)) : ∀ e ∈ (s.put key o).entries, P e := by
  intro e he
  rcases mem_putEntry he with rfl | he
  · exact ho
  · exact h e he

theorem forall_mem_erase {P : Key × Object k → Prop} {s : Store k} (h : ∀ e ∈ s.entries, P e)
    (key : Key) : ∀ e ∈ (s.erase key).entries, P e :=
  fun e he => h e (List.mem_filter.mp he).1

theorem forall_mem_ofList {P : Key × Object k → Prop} {es : List (Key × Object k)}
    (h : ∀ e ∈ es, P e) : ∀ e ∈ (ofList es).entries, P e := by
  suffices ∀ s : Store k, (∀ e ∈ s.entries, P e) →
      ∀ e ∈ (es.foldl (fun s e => s.put e.1 e.2) s).entries, P e from
    this _ (by simp [empty])
  induction es with
  | nil => exact fun s hs => hs
  | cons e rest ih =>
    obtain ⟨he, hrest⟩ := List.forall_mem_cons.mp h
    exact fun s hs => ih hrest _ (forall_mem_put hs he)

/-- Every object stands under its own key. -/
def Filed (s : Store k) : Prop := ∀ e ∈ s.entries, e.2.key? = some e.1

/-- In an ordered store of filed objects, that object is found under a key whose key it is. -/
theorem get?_eq_some_iff_of_filed {s : Store k} (hordered : s.Ordered) (hfiled : s.Filed)
    {key : Key} {c : Object k} : s.get? key = some c ↔ c ∈ s.objects ∧ c.key? = some key := by
  rw [hordered.get?_eq_some_iff]
  constructor
  · exact fun hmem => ⟨List.mem_map_of_mem hmem, hfiled _ hmem⟩
  · rintro ⟨hmem, hkey⟩
    obtain ⟨e, he, rfl⟩ := List.mem_map.mp hmem
    obtain rfl : e.1 = key := Option.some.inj ((hfiled e he).symm.trans hkey)
    exact he

/-- Looking an object up finds what stands under its key, unless only the key without a namespace
has something to offer. -/
theorem find?_eq_get?_iff (s : Store k) (key : Key) :
    s.find? key = s.get? key ↔ (s.get? key).isSome ∨ s.get? key.withoutScope = none := by
  rw [find?]
  cases s.get? key <;> simp

/-- Where every entry has a namespace, a look-up never has to fall back to a key without one. -/
theorem find?_of_scoped {s : Store k} (h : ∀ e ∈ s.entries, e.1.scope.isSome) (key : Key) :
    s.find? key = s.get? key := by
  have hnone : s.get? key.withoutScope = none := by
    refine List.lookup_eq_none_iff.mpr fun e he => ?_
    have hne : key.withoutScope ≠ e.1 := by
      intro heq
      have hscope := h e he
      rw [← heq] at hscope
      simp [Key.withoutScope] at hscope
    simpa using hne
  rw [find?, hnone, Option.or_none]

end Store

end CustomResource

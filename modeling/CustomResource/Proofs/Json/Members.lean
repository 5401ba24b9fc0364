import CustomResource.Json.Patch
import CustomResource.Proofs.Json.Parts

/-!
# Members of JSON values

What a reader makes of an object depends on the values of its members name by name, and not on how
the members of different names stand among each other. What a patch does to an object is said here
in the same terms: the values of one name change, and those of any other stay.

## Main definitions

* `Json.valuesOf`: the values of the members of a name.

## Main results

* `Json.valuesOf_setMember_self`, `valuesOf_setMember_of_ne`: setting a member.
* `Json.merge_object_singleton`: merging a single member.
* `Json.exists_replaceAt?`, `valuesOf_replaceAt?`: replacing the value of a member.
* `Json.setMember_setMember_of_ne`, `updateMember?_setMember`: changes after one another.
-/

namespace CustomResource

namespace Json

/-- The values of the members of that name, in order. A value that is no object has none. -/
def valuesOf (key : String) (value : Json) : List Json :=
  ((membersOf value).filter fun m => m.1 = key).map Prod.snd

variable {key : String}

@[simp] theorem valuesOf_nil (key : String) : valuesOf key (.object []) = [] := rfl

theorem valuesOf_cons (key name : String) (value : Json) (members : List (String × Json)) :
    valuesOf key (.object ((name, value) :: members)) =
      if name = key then value :: valuesOf key (.object members)
      else valuesOf key (.object members) := by
  by_cases h : name = key <;> simp [valuesOf, membersOf, h]

@[simp] theorem valuesOf_cons_self (value : Json) (members : List (String × Json)) :
    valuesOf key (.object ((key, value) :: members)) =
      value :: valuesOf key (.object members) := by
  rw [valuesOf_cons, if_pos rfl]

theorem valuesOf_cons_of_ne {name : String} (h : name ≠ key) (value : Json)
    (members : List (String × Json)) :
    valuesOf key (.object ((name, value) :: members)) = valuesOf key (.object members) := by
  rw [valuesOf_cons, if_neg h]

theorem valuesOf_append (key : String) (members members' : List (String × Json)) :
    valuesOf key (.object (members ++ members')) =
      valuesOf key (.object members) ++ valuesOf key (.object members') := by
  simp [valuesOf, membersOf]

theorem mem_valuesOf {value : Json} {members : List (String × Json)} :
    value ∈ valuesOf key (.object members) ↔ (key, value) ∈ members := by
  simp [valuesOf, membersOf]

/-- The first value of a name is the one that is looked up. -/
theorem lookup_eq_head?_valuesOf (key : String) (members : List (String × Json)) :
    members.lookup key = (valuesOf key (.object members)).head? := by
  induction members with
  | nil => rfl
  | cons m members ih =>
    obtain ⟨name, value⟩ := m
    rw [List.lookup_cons, valuesOf_cons]
    by_cases h : key = name
    · simp [h]
    · rw [beq_eq_false_iff_ne.mpr h, if_neg (Ne.symm h), ih]

/-- Where no key occurs twice, a name has one value or none. -/
theorem valuesOf_of_nodup {members : List (String × Json)} (h : (members.map Prod.fst).Nodup)
    (key : String) : valuesOf key (.object members) = (members.lookup key).toList := by
  induction members with
  | nil => rfl
  | cons m members ih =>
    obtain ⟨name, value⟩ := m
    obtain ⟨hname, hrest⟩ := List.nodup_cons.mp h
    rw [valuesOf_cons, List.lookup_cons, ih hrest]
    by_cases heq : name = key
    · subst heq
      have hlater : members.lookup name = none := by
        rw [List.lookup_eq_none_iff]
        exact fun m hm => bne_iff_ne.mpr fun heq => hname (List.mem_map.mpr ⟨m, hm, heq.symm⟩)
      simp [hlater]
    · rw [if_neg heq, beq_eq_false_iff_ne.mpr (Ne.symm heq)]

theorem tail_valuesOf_of_nodup {members : List (String × Json)} (h : (members.map Prod.fst).Nodup)
    (key : String) : (valuesOf key (.object members)).tail = [] := by
  rw [valuesOf_of_nodup h]
  cases members.lookup key <;> rfl

/-- Leaving out members by their names leaves the values of the other names. -/
theorem valuesOf_filter (p : String → Bool) (key : String) (members : List (String × Json)) :
    valuesOf key (.object (members.filter fun m => p m.1)) =
      if p key then valuesOf key (.object members) else [] := by
  induction members with
  | nil => simp
  | cons m members ih =>
    obtain ⟨name, value⟩ := m
    rw [List.filter_cons]
    by_cases hname : name = key
    · subst hname
      by_cases hp : p name = true <;> simp [hp, ih]
    · by_cases hp : p name = true <;> simp [hp, ih, valuesOf_cons_of_ne hname]

/-! ### Changes -/

/-- Setting a member changes the first value of its name. -/
theorem valuesOf_setMember_self (key : String) (value : Json) (members : List (String × Json)) :
    valuesOf key (.object (setMember key value members)) =
      value :: (valuesOf key (.object members)).tail := by
  induction members with
  | nil => rw [setMember, valuesOf_cons_self]; rfl
  | cons m members ih =>
    obtain ⟨name, value'⟩ := m
    rw [setMember]
    by_cases h : name = key
    · rw [if_pos h, h, valuesOf_cons_self, valuesOf_cons_self, List.tail_cons]
    · rw [if_neg h, valuesOf_cons_of_ne h, valuesOf_cons_of_ne h, ih]

theorem valuesOf_setMember_of_ne {name : String} (h : name ≠ key) (value : Json)
    (members : List (String × Json)) :
    valuesOf key (.object (setMember name value members)) = valuesOf key (.object members) := by
  induction members with
  | nil => rw [setMember, valuesOf_cons_of_ne h]
  | cons m members ih =>
    obtain ⟨name', value'⟩ := m
    rw [setMember]
    by_cases heq : name' = name
    · rw [if_pos heq, heq, valuesOf_cons_of_ne h, valuesOf_cons_of_ne h]
    · rw [if_neg heq, valuesOf_cons, valuesOf_cons, ih]

/-- Merging a single member sets it, unless it is null. -/
theorem merge_object_singleton (key : String) {change : Json} (h : change ≠ .null) (doc : Json) :
    (object [(key, change)]).merge doc = .object (setMember key
      (change.merge (((membersOf doc).lookup key).getD .null)) (membersOf doc)) := by
  rw [merge, mergeMembers.eq_def]
  cases change with
  | null => exact absurd rfl h
  | _ => rfl

theorem mem_setMember {value : Json} {members : List (String × Json)} {m : String × Json}
    (h : m ∈ setMember key value members) : m = (key, value) ∨ m ∈ members := by
  induction members with
  | nil => exact .inl (List.mem_singleton.mp h)
  | cons first members ih =>
    obtain ⟨name, value'⟩ := first
    rw [setMember] at h
    by_cases hname : name = key
    · rw [if_pos hname] at h
      exact (List.mem_cons.mp h).imp_right (List.mem_cons_of_mem _)
    · rw [if_neg hname] at h
      obtain rfl | h := List.mem_cons.mp h
      · exact .inr List.mem_cons_self
      · exact (ih h).imp_right (List.mem_cons_of_mem _)

theorem exists_updateMember? (new : Json) {members : List (String × Json)}
    (hvalues : valuesOf key (.object members) ≠ []) :
    ∃ changed, updateMember? key (replaceSteps? new []) members = some changed := by
  induction members with
  | nil => exact absurd rfl hvalues
  | cons m members ih =>
    obtain ⟨name, value⟩ := m
    rw [updateMember?]
    by_cases h : name = key
    · exact ⟨_, if_pos h⟩
    · rw [valuesOf_cons_of_ne h] at hvalues
      obtain ⟨changed, hchanged⟩ := ih hvalues
      exact ⟨_, by rw [if_neg h, hchanged]; rfl⟩

/-- The value of a member can be replaced if there is one. -/
theorem exists_replaceAt? {path : String} (hpath : pointer? path = some [key]) (new : Json)
    {members : List (String × Json)} (hvalues : valuesOf key (.object members) ≠ []) :
    ∃ doc, replaceAt? path new (.object members) = some doc := by
  obtain ⟨changed, hchanged⟩ := exists_updateMember? new hvalues
  refine ⟨.object changed, ?_⟩
  rw [replaceAt?, hpath, Option.bind_some, replaceSteps?, hchanged]
  rfl

theorem valuesOf_updateMember? {new : Json} {members changed : List (String × Json)}
    (h : updateMember? key (replaceSteps? new []) members = some changed) :
    valuesOf key (.object changed) = new :: (valuesOf key (.object members)).tail ∧
      ∀ name, name ≠ key → valuesOf name (.object changed) = valuesOf name (.object members) := by
  induction members generalizing changed with
  | nil => exact nomatch h
  | cons m members ih =>
    obtain ⟨name, value⟩ := m
    rw [updateMember?] at h
    by_cases heq : name = key
    · subst heq
      rw [if_pos rfl] at h
      obtain rfl := Option.some.inj h
      refine ⟨by simp, fun name' hname' => ?_⟩
      rw [valuesOf_cons_of_ne hname'.symm, valuesOf_cons_of_ne hname'.symm]
    · rw [if_neg heq] at h
      obtain ⟨rest, hrest, rfl⟩ := Option.map_eq_some_iff.mp h
      obtain ⟨hself, hothers⟩ := ih hrest
      refine ⟨?_, fun name' hname' => ?_⟩
      · rw [valuesOf_cons_of_ne heq, valuesOf_cons_of_ne heq, hself]
      · rw [valuesOf_cons, valuesOf_cons, hothers name' hname']

/-- **Replacing the value of a member** changes the first value of its name. -/
theorem valuesOf_replaceAt? {path : String} (hpath : pointer? path = some [key]) {new : Json}
    {members : List (String × Json)} {doc : Json}
    (h : replaceAt? path new (.object members) = some doc) :
    doc.valuesOf key = new :: (valuesOf key (.object members)).tail ∧
      ∀ name, name ≠ key → doc.valuesOf name = valuesOf name (.object members) := by
  rw [replaceAt?, hpath, Option.bind_some, replaceSteps?] at h
  obtain ⟨changed, hchanged, rfl⟩ := Option.map_eq_some_iff.mp h
  exact valuesOf_updateMember? hchanged

/-! ### Changes after one another

A change leaves every member in its place, so that changes of different members commute as they
stand, and not only up to the order of the members. -/

theorem setMember_setMember_self (key : String) (value value' : Json)
    (members : List (String × Json)) :
    setMember key value' (setMember key value members) = setMember key value' members := by
  induction members with
  | nil => simp [setMember]
  | cons m members ih =>
    obtain ⟨name, old⟩ := m
    by_cases h : name = key <;> simp [setMember, h, ih]

/-- A member that is there already can be set before another one or after it. -/
theorem setMember_setMember_of_ne {name : String} (h : name ≠ key) (value value' other : Json)
    (members : List (String × Json)) :
    setMember key value' (setMember name other (setMember key value members)) =
      setMember name other (setMember key value' members) := by
  induction members with
  | nil => simp [setMember, h.symm]
  | cons m members ih =>
    obtain ⟨name', old⟩ := m
    by_cases hkey : name' = key
    · simp [setMember, hkey, h.symm]
    · by_cases hname : name' = name
      · simp [setMember, hname, h, setMember_setMember_self]
      · simp [setMember, hkey, hname, ih]

theorem lookup_setMember_self (key : String) (value : Json) (members : List (String × Json)) :
    (setMember key value members).lookup key = some value := by
  rw [lookup_eq_head?_valuesOf, valuesOf_setMember_self, List.head?_cons]

/-- Changing the value of one member and setting another one. -/
theorem updateMember?_setMember {name : String} (h : name ≠ key) (f : Json → Option Json)
    (value : Json) (members : List (String × Json)) :
    updateMember? key f (setMember name value members) =
      (updateMember? key f members).map (setMember name value) := by
  induction members with
  | nil => simp [setMember, updateMember?, h]
  | cons m members ih =>
    obtain ⟨name', old⟩ := m
    by_cases hname : name' = name
    · cases hrest : updateMember? key f members <;> simp [setMember, updateMember?, hname, h, hrest]
    · by_cases hkey : name' = key
      · cases hvalue : f old <;> simp [setMember, updateMember?, hkey, h.symm, hvalue]
      · cases hrest : updateMember? key f members <;>
          simp [setMember, updateMember?, hname, hkey, ih, hrest]

/-- A value that has been replaced can be replaced by the same one once more. -/
theorem updateMember?_of_updateMember? {new : Json} {members changed : List (String × Json)}
    (h : updateMember? key (replaceSteps? new []) members = some changed) :
    updateMember? key (replaceSteps? new []) changed = some changed := by
  induction members generalizing changed with
  | nil => exact nomatch h
  | cons m members ih =>
    obtain ⟨name, value⟩ := m
    rw [updateMember?] at h
    by_cases hname : name = key
    · rw [if_pos hname] at h
      obtain rfl := Option.some.inj h
      rw [updateMember?, if_pos hname]
      rfl
    · rw [if_neg hname] at h
      obtain ⟨rest, hrest, rfl⟩ := Option.map_eq_some_iff.mp h
      rw [updateMember?, if_neg hname, ih hrest]
      rfl

/-- Replacing the value of a member is a change of the members of an object. -/
theorem replaceAt?_object {path : String} (hpath : pointer? path = some [key]) (new : Json)
    (members : List (String × Json)) :
    replaceAt? path new (.object members) =
      (updateMember? key (replaceSteps? new []) members).map .object := by
  rw [replaceAt?, hpath, Option.bind_some, replaceSteps?]

end Json

end CustomResource

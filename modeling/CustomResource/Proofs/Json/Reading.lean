import CustomResource.Json.Printer
import CustomResource.Proofs.Json.Parts
import CustomResource.Proofs.Text.Digits

/-!
# Reading what is written

The text of a value is read as the document of the value, whatever follows it in the place of a
value. Numbers that are doubles are left out: how they are written is not looked at here.

## Main definitions

* `Json.isExact`: a value without doubles, whose integers a reader takes for integers.
* `Json.EndsValue`: what may follow a value.

## Main results

* `Json.readValue_chars`: the text of a value is read as its document.
* `Json.Document.ofText_render`: so is a whole text.
-/

namespace CustomResource.Json

/-! ### Strings -/

theorem hexEscape_paddedHex {n : Nat} (h : n < 32) (rest : List Char) :
    hexEscape (Text.paddedHex 4 n ++ rest) = .ok (n, rest) := by
  interval_cases n <;> rfl

theorem readStringWith_escape (fuel : Nat) (done : List Char) (c : Char) (rest : List Char) :
    readStringWith (fuel + 1) done (escape c ++ rest) = readStringWith fuel (c :: done) rest := by
  rw [escape]
  split_ifs with hquote hslash h8 hc hn hr ht hcontrol
  · subst hquote; rfl
  · subst hslash; rfl
  · subst h8; rfl
  · subst hc; rfl
  · subst hn; rfl
  · subst hr; rfl
  · subst ht; rfl
  · have hread : readEscape ('u' :: (Text.paddedHex 4 c.toNat ++ rest)) = .ok (c, rest) := by
      rw [readEscape, hexEscape_paddedHex hcontrol]
      simp only
      rw [if_neg (by omega), if_neg (by omega), Char.ofNat_toNat]
    simp only [List.cons_append, readStringWith, hread]
    rfl
  · simp only [List.cons_append, List.nil_append, readStringWith, if_neg hquote, if_neg hslash,
      if_neg hcontrol]

theorem skipStringWith_escape (fuel : Nat) (c : Char) (rest : List Char) :
    skipStringWith (fuel + 1) (escape c ++ rest) = skipStringWith fuel rest := by
  rw [escape]
  split_ifs with hquote hslash h8 hc hn hr ht hcontrol
  · subst hquote; rfl
  · subst hslash; rfl
  · subst h8; rfl
  · subst hc; rfl
  · subst hn; rfl
  · subst hr; rfl
  · subst ht; rfl
  · have hskip : skipEscape ('u' :: (Text.paddedHex 4 c.toNat ++ rest)) = .ok rest := by
      rw [skipEscape, hexEscape_paddedHex hcontrol]
      rfl
    simp only [List.cons_append, skipStringWith, hskip]
    rfl
  · simp only [List.cons_append, List.nil_append, skipStringWith, if_neg hquote, if_neg hslash,
      if_neg hcontrol]

/-- The induction is on the characters, each of which is one step of the reader. -/
theorem readStringWith_flatMap (cs : List Char) {fuel : Nat} (hfuel : cs.length < fuel)
    (done rest : List Char) : readStringWith fuel done (cs.flatMap escape ++ '"' :: rest) =
      .ok (done.reverse ++ cs, rest) := by
  induction cs generalizing fuel done with
  | nil =>
    obtain ⟨fuel, rfl⟩ := Nat.exists_eq_succ_of_ne_zero (by omega : fuel ≠ 0)
    rw [List.append_nil]
    rfl
  | cons c cs ih =>
    obtain ⟨fuel, rfl⟩ := Nat.exists_eq_succ_of_ne_zero (by omega : fuel ≠ 0)
    rw [List.flatMap_cons, List.append_assoc, Nat.succ_eq_add_one, readStringWith_escape,
      ih (by simpa using hfuel), List.reverse_cons, List.append_assoc]
    rfl

theorem skipStringWith_flatMap (cs : List Char) {fuel : Nat} (hfuel : cs.length < fuel)
    (rest : List Char) : skipStringWith fuel (cs.flatMap escape ++ '"' :: rest) = .ok rest := by
  induction cs generalizing fuel with
  | nil =>
    obtain ⟨fuel, rfl⟩ := Nat.exists_eq_succ_of_ne_zero (by omega : fuel ≠ 0)
    rfl
  | cons c cs ih =>
    obtain ⟨fuel, rfl⟩ := Nat.exists_eq_succ_of_ne_zero (by omega : fuel ≠ 0)
    rw [List.flatMap_cons, List.append_assoc, Nat.succ_eq_add_one, skipStringWith_escape,
      ih (by simpa using hfuel)]

theorem length_le_flatMap_escape (cs : List Char) : cs.length ≤ (cs.flatMap escape).length := by
  induction cs with
  | nil => exact Nat.zero_le _
  | cons c cs ih =>
    have hone : 1 ≤ (escape c).length := by
      rw [escape]
      split_ifs <;> simp
    rw [List.flatMap_cons, List.length_append, List.length_cons]
    omega

/-- **A string that is written is read back**, with its value and by one who passes over it. -/
theorem stringLexeme_chars (s : String) (rest : List Char) :
    stringLexeme (s.toList.flatMap escape ++ '"' :: rest) = (.ofValue s, rest) := by
  have hfuel : s.toList.length < (s.toList.flatMap escape ++ '"' :: rest).length + 1 := by
    have := length_le_flatMap_escape s.toList
    rw [List.length_append]
    omega
  rw [stringLexeme, readString, skipString, readStringWith_flatMap _ hfuel,
    skipStringWith_flatMap _ hfuel]
  simp [lexeme, Lexeme.ofValue, Except.map]

/-! ### Numbers -/

/-- What may follow a value: the end of the text, a comma, or the end of an array or an object. -/
def EndsValue (rest : List Char) : Prop := ∀ c ∈ rest.head?, c = ',' ∨ c = ']' ∨ c = '\x7d'

theorem endsValue_nil : EndsValue [] := nofun

theorem endsValue_cons {c : Char} {rest : List Char} (h : c = ',' ∨ c = ']' ∨ c = '\x7d') :
    EndsValue (c :: rest) := by
  rintro d ⟨⟩
  exact h

/-- Whether a number is an integer that a reader takes for one. -/
def Number.isExact : Number → Bool
  | .int n => -9223372036854775808 ≤ n && n ≤ 18446744073709551615
  | .float _ => false

section Numbers

variable {rest : List Char} (hrest : EndsValue rest)

include hrest

theorem digitRun_digitsOf (n : Nat) :
    digitRun (Text.digitsOf 10 n ++ rest) = .ok (Text.digitsOf 10 n, rest) := by
  have hdigits : ∀ c ∈ Text.digitsOf 10 n, Text.isDigit c = true :=
    fun c hc => Text.isDigit_of_mem_digitsOf hc
  have hend : ∀ c ∈ rest.head?, Text.isDigit c = false := by
    intro c hc
    obtain rfl | rfl | rfl := hrest c hc <;> rfl
  have htake := Text.takeWhile_digits hdigits hend
  have hdrop : (Text.digitsOf 10 n ++ rest).dropWhile Text.isDigit = rest := by
    have hsplit := List.takeWhile_append_dropWhile (p := Text.isDigit)
      (l := Text.digitsOf 10 n ++ rest)
    rw [htake] at hsplit
    exact List.append_cancel_left hsplit
  obtain ⟨c, ds, hds⟩ := List.exists_cons_of_ne_nil (Text.digitsOf_ne_nil n)
  rw [digitRun, htake, hdrop, hds]

theorem wholeRun_digitsOf (n : Nat) :
    wholeRun (Text.digitsOf 10 n ++ rest) = .ok (Text.digitsOf 10 n, rest) := by
  rw [wholeRun, digitRun_digitsOf hrest]
  obtain rfl | hn := n.eq_zero_or_pos
  · rfl
  · simp only
    split
    · next d ds heq => exact absurd heq (Text.head_digitsOf_ne hn _)
    · rfl

theorem fractionRun_of_endsValue : fractionRun rest = .ok (none, rest) := by
  cases rest with
  | nil => rfl
  | cons c rest => obtain rfl | rfl | rfl := hrest c rfl <;> rfl

theorem exponentRun_of_endsValue : exponentRun rest = .ok (none, rest) := by
  cases rest with
  | nil => rfl
  | cons c rest => obtain rfl | rfl | rfl := hrest c rfl <;> rfl

theorem numberParts_digitsOf (negative : Bool) (n : Nat) :
    numberParts negative (Text.digitsOf 10 n ++ rest) =
      .ok (⟨negative, Text.digitsOf 10 n, none, none⟩, rest) := by
  simp only [numberParts, bind, Except.bind, wholeRun_digitsOf hrest,
    fractionRun_of_endsValue hrest, exponentRun_of_endsValue hrest]
  rfl

theorem numberLexeme_nonneg {n : Nat} (h : n < 2 ^ 64) :
    numberLexeme false (Text.digitsOf 10 n ++ rest) = (.ofValue (.int n), rest) := by
  rw [numberLexeme, numberParts_digitsOf hrest]
  have hvalue : NumberParts.value ⟨false, Text.digitsOf 10 n, none, none⟩ = .ok (.int n) := by
    rw [NumberParts.value]
    simp only [Text.decimalValue_digitsOf]
    exact if_pos ⟨Bool.false_ne_true, h⟩
  simp only [hvalue]
  rfl

theorem numberLexeme_negative {n : Nat} (hpos : 0 < n) (h : n ≤ 2 ^ 63) :
    numberLexeme true (Text.digitsOf 10 n ++ rest) = (.ofValue (.int (-n)), rest) := by
  rw [numberLexeme, numberParts_digitsOf hrest]
  have hvalue : NumberParts.value ⟨true, Text.digitsOf 10 n, none, none⟩ = .ok (.int (-n)) := by
    rw [NumberParts.value]
    simp only [Text.decimalValue_digitsOf]
    rw [if_neg (by simp)]
    exact if_pos ⟨trivial, hpos, h⟩
  simp only [hvalue]
  rfl

end Numbers

/-! ### Single values -/

theorem skipBlanks_cons {c : Char} {cs : List Char} (h : isBlank c = false) :
    skipBlanks (c :: cs) = c :: cs := by
  rw [skipBlanks, List.dropWhile_cons_of_neg (by simp [h])]

theorem not_isBlank_of_isDigit {c : Char} (hc : Text.isDigit c = true) : isBlank c = false := by
  by_contra h
  simp only [isBlank, Bool.not_eq_false, Bool.or_eq_true, decide_eq_true_eq] at h
  obtain ((rfl | rfl) | rfl) | rfl := h <;> simp [Text.isDigit] at hc

theorem readValue_digit (fuel : Nat) {c : Char} {cs : List Char} (hc : Text.isDigit c = true) :
    readValue (fuel + 1) (c :: cs) =
      (.number (numberLexeme false (c :: cs)).1, (numberLexeme false (c :: cs)).2) := by
  rw [readValue, skipBlanks_cons (not_isBlank_of_isDigit hc)]
  split
  case h_1 heq => exact absurd heq (List.cons_ne_nil _ _)
  case h_9 heq =>
    obtain ⟨rfl, rfl⟩ := List.cons.inj heq
    exact if_pos hc
  -- no letter, quote, sign or bracket is a digit
  all_goals
    next heq =>
      obtain ⟨rfl, -⟩ := List.cons.inj heq
      simp [Text.isDigit] at hc

theorem toList_render_ofNat (n : Nat) :
    (Number.int (.ofNat n)).render.toList = Text.digitsOf 10 n := String.toList_ofList

theorem toList_render_negSucc (n : Nat) :
    (Number.int (.negSucc n)).render.toList = '-' :: Text.digitsOf 10 (n + 1) := by
  rw [Number.render, Text.ofInt, String.toList_append, Text.ofNat, String.toList_ofList,
    String.toList_ofList]
  rfl

theorem readValue_number (fuel : Nat) {n : Number} (hn : n.isExact = true) {rest : List Char}
    (hrest : EndsValue rest) :
    readValue (fuel + 1) (n.render.toList ++ rest) = (.number (.ofValue n), rest) := by
  cases n with
  | float x => exact nomatch hn
  | int n =>
    have hbounds : -9223372036854775808 ≤ n ∧ n ≤ 18446744073709551615 := by
      simpa [Number.isExact] using hn
    cases n with
    | ofNat n =>
      have hsmall : (n : Int) ≤ 18446744073709551615 := hbounds.2
      have hlexeme := numberLexeme_nonneg hrest (n := n) (by omega)
      obtain ⟨c, ds, hds⟩ := List.exists_cons_of_ne_nil (Text.digitsOf_ne_nil n)
      rw [hds, List.cons_append] at hlexeme
      rw [toList_render_ofNat, hds, List.cons_append,
        readValue_digit fuel (Text.isDigit_of_mem_digitsOf (hds ▸ List.mem_cons_self)), hlexeme]
      rfl
    | negSucc n =>
      have hlexeme := numberLexeme_negative hrest (n := n + 1) (by omega) (by omega)
      rw [toList_render_negSucc, List.cons_append, readValue, skipBlanks_cons (by decide)]
      simp only [hlexeme]
      rfl

theorem readValue_string (fuel : Nat) (s : String) (rest : List Char) :
    readValue (fuel + 1) (stringChars s rest) = (.string (.ofValue s), rest) := by
  rw [stringChars, List.cons_append, readValue, skipBlanks_cons (by decide)]
  simp only [stringLexeme_chars]

/-! ### Lists and objects -/

/-- Whether there is no number in a value but integers that a reader takes for such. -/
def isExact (v : Json) : Bool :=
  v.all fun
    | .number n => n.isExact
    | _ => true

theorem isExact_array {items : List Json} :
    (array items).isExact = true ↔ ∀ item ∈ items, item.isExact = true := by
  rw [isExact, all_array]
  exact and_iff_right rfl

theorem isExact_object {members : List (String × Json)} :
    (object members).isExact = true ↔ ∀ m ∈ members, m.2.isExact = true := by
  rw [isExact, all_object]
  exact and_iff_right rfl

theorem exists_render_eq_cons {n : Number} (h : n.isExact = true) :
    ∃ c cs, n.render.toList = c :: cs ∧ isBlank c = false ∧ c ≠ ']' := by
  cases n with
  | float x => exact nomatch h
  | int n =>
    cases n with
    | ofNat n =>
      obtain ⟨c, ds, hds⟩ := List.exists_cons_of_ne_nil (Text.digitsOf_ne_nil n)
      have hc : Text.isDigit c = true := Text.isDigit_of_mem_digitsOf (hds ▸ List.mem_cons_self)
      refine ⟨c, ds, by rw [toList_render_ofNat, hds], not_isBlank_of_isDigit hc, ?_⟩
      rintro rfl
      simp [Text.isDigit] at hc
    | negSucc n => exact ⟨'-', _, toList_render_negSucc n, by decide, by decide⟩

/-- A value begins with a character that is neither a blank nor the end of a list. -/
theorem exists_chars_eq_cons {v : Json} (h : v.isExact = true) (rest : List Char) :
    ∃ c cs, v.chars rest = c :: cs ∧ isBlank c = false ∧ c ≠ ']' := by
  cases v with
  | null => exact ⟨_, _, rfl, by decide, by decide⟩
  | bool b => cases b <;> exact ⟨_, _, rfl, by decide, by decide⟩
  | string s => exact ⟨_, _, rfl, by decide, by decide⟩
  | array items => exact ⟨_, _, rfl, by decide, by decide⟩
  | object members => exact ⟨_, _, rfl, by decide, by decide⟩
  | number n =>
    obtain ⟨c, cs, hcs, hc⟩ := exists_render_eq_cons h
    exact ⟨c, cs ++ rest, by rw [chars, hcs, List.cons_append], hc⟩

mutual

theorem length_lt_chars : (v : Json) → (rest : List Char) → v.isExact = true →
    rest.length < (v.chars rest).length
  | .null, rest, _ => by simp [chars]; omega
  | .bool true, rest, _ => by simp [chars]; omega
  | .bool false, rest, _ => by simp [chars]; omega
  | .number n, rest, h => by
    obtain ⟨c, cs, hcs, -⟩ := exists_render_eq_cons h
    rw [chars, hcs, List.length_append, List.length_cons]
    omega
  | .string s, rest, _ => by simp [chars, stringChars]; omega
  | .array items, rest, h => by
    have := length_lt_itemChars items true rest (isExact_array.mp h)
    rw [chars, List.length_cons]
    omega
  | .object members, rest, h => by
    have := length_lt_memberChars members true rest (isExact_object.mp h)
    rw [chars, List.length_cons]
    omega

theorem length_lt_itemChars : (items : List Json) → (first : Bool) → (rest : List Char) →
    (∀ item ∈ items, item.isExact = true) → rest.length < (itemChars items first rest).length
  | [], _, rest, _ => by simp [itemChars]
  | item :: items, first, rest, h => by
    obtain ⟨hitem, hitems⟩ := List.forall_mem_cons.mp h
    have := length_lt_itemChars items false rest hitems
    have := length_lt_chars item (itemChars items false rest) hitem
    rw [itemChars, List.length_append]
    omega

theorem length_lt_memberChars : (members : List (String × Json)) → (first : Bool) →
    (rest : List Char) → (∀ m ∈ members, m.2.isExact = true) →
    rest.length < (memberChars members first rest).length
  | [], _, rest, _ => by simp [memberChars]
  | (key, value) :: members, first, rest, h => by
    obtain ⟨hvalue, hmembers⟩ := List.forall_mem_cons.mp h
    have := length_lt_memberChars members false rest hmembers
    have := length_lt_chars value (memberChars members false rest) hvalue
    rw [memberChars, List.length_append, stringChars, List.length_append, List.length_cons,
      List.length_cons, List.length_cons]
    omega

end

theorem endsValue_itemChars (items : List Json) (rest : List Char) :
    EndsValue (itemChars items false rest) := by
  cases items with
  | nil => exact endsValue_cons (Or.inr (Or.inl rfl))
  | cons item items => exact endsValue_cons (Or.inl rfl)

theorem endsValue_memberChars (members : List (String × Json)) (rest : List Char) :
    EndsValue (memberChars members false rest) := by
  cases members with
  | nil => exact endsValue_cons (Or.inr (Or.inr rfl))
  | cons m members => exact endsValue_cons (Or.inl rfl)

/-- An array that is not empty, from its first item on. -/
theorem readValue_array (fuel : Nat) {c : Char} {cs : List Char} (hblank : isBlank c = false)
    (hc : c ≠ ']') : readValue (fuel + 1) ('[' :: c :: cs) =
      (.array ((readValue fuel (c :: cs)).1 :: (readItems fuel (readValue fuel (c :: cs)).2).1.1)
        (readItems fuel (readValue fuel (c :: cs)).2).1.2,
        (readItems fuel (readValue fuel (c :: cs)).2).2) := by
  rw [readValue, skipBlanks_cons (by decide)]
  simp only
  rw [skipBlanks_cons hblank]
  split
  · next heq => exact absurd heq (List.cons_ne_nil _ _)
  · next heq => exact absurd (List.cons.inj heq).1 hc
  · rfl

/-- The next item of an array, after a comma. -/
theorem readItems_cons (fuel : Nat) {c : Char} {cs : List Char} (hblank : isBlank c = false)
    (hc : c ≠ ']') : readItems (fuel + 1) (',' :: c :: cs) =
      (((readValue fuel (c :: cs)).1 :: (readItems fuel (readValue fuel (c :: cs)).2).1.1,
        (readItems fuel (readValue fuel (c :: cs)).2).1.2),
        (readItems fuel (readValue fuel (c :: cs)).2).2) := by
  rw [readItems, skipBlanks_cons (by decide)]
  simp only
  rw [skipBlanks_cons hblank]
  split
  · next heq => exact absurd (List.cons.inj heq).1 hc
  · rfl

theorem readMember_chars {fuel : Nat} (key : String) {value : Json} {rest : List Char}
    (h : readValue fuel (value.chars rest) = (value.toNode, rest)) :
    readMember (fuel + 1) (key.toList.flatMap escape ++ '"' :: ':' :: value.chars rest) =
      ((.ofValue key, value.toNode), rest) := by
  rw [readMember]
  simp only [stringLexeme_chars, skipBlanks_cons (show isBlank ':' = false by decide), h]

/-! ### Values -/

mutual

/-- **The text of a value is read as its document.** The induction is on the value; the reader takes
no more steps than the text has characters. -/
theorem readValue_chars : (v : Json) → (fuel : Nat) → (rest : List Char) → v.isExact = true →
    EndsValue rest → (v.chars rest).length < fuel + rest.length →
      readValue fuel (v.chars rest) = (v.toNode, rest)
  | v, 0, rest, hv, _, hfuel => by
    have := length_lt_chars v rest hv
    omega
  | .null, fuel + 1, rest, _, _, _ => rfl
  | .bool true, fuel + 1, rest, _, _, _ => rfl
  | .bool false, fuel + 1, rest, _, _, _ => rfl
  | .number n, fuel + 1, rest, hv, hrest, _ => readValue_number fuel hv hrest
  | .string s, fuel + 1, rest, _, _, _ => readValue_string fuel s rest
  | .array [], fuel + 1, rest, _, _, _ => rfl
  | .array (item :: items), fuel + 1, rest, hv, hrest, hfuel => by
    obtain ⟨hitem, hitems⟩ := List.forall_mem_cons.mp (isExact_array.mp hv)
    have hlength := length_lt_itemChars items false rest hitems
    have htext : (Json.array (item :: items)).chars rest =
        '[' :: item.chars (itemChars items false rest) := rfl
    rw [htext, List.length_cons] at hfuel
    have hfirst := readValue_chars item fuel (itemChars items false rest) hitem
      (endsValue_itemChars items rest) (by omega)
    have hothers := readItems_chars items fuel rest hitems (by
      have := length_lt_chars item (itemChars items false rest) hitem
      omega)
    obtain ⟨c, cs, hcs, hblank, hc⟩ := exists_chars_eq_cons hitem (itemChars items false rest)
    rw [hcs] at hfirst
    rw [htext, hcs, readValue_array fuel hblank hc, hfirst, hothers]
    rfl
  | .object [], fuel + 1, rest, _, _, _ => rfl
  | .object ((key, value) :: members), fuel + 1, rest, hv, hrest, hfuel => by
    obtain ⟨hvalue, hmembers⟩ := List.forall_mem_cons.mp (isExact_object.mp hv)
    have htext : (Json.object ((key, value) :: members)).chars rest =
        '\x7b' :: '"' :: (key.toList.flatMap escape ++ '"' :: ':' ::
          value.chars (memberChars members false rest)) := rfl
    rw [htext] at hfuel ⊢
    have hlength := length_lt_memberChars members false rest hmembers
    have hlonger := length_lt_chars value (memberChars members false rest) hvalue
    simp only [List.length_cons, List.length_append] at hfuel
    obtain ⟨fuel, rfl⟩ := Nat.exists_eq_succ_of_ne_zero (by omega : fuel ≠ 0)
    have hfirst := readMember_chars key (readValue_chars value fuel
      (memberChars members false rest) hvalue (endsValue_memberChars members rest) (by omega))
    have hothers := readMembers_chars members (fuel + 1) rest hmembers (by omega)
    rw [readValue, skipBlanks_cons (by decide)]
    simp only
    rw [skipBlanks_cons (by decide)]
    simp only [hfirst, hothers]
    rfl

theorem readItems_chars : (items : List Json) → (fuel : Nat) → (rest : List Char) →
    (∀ item ∈ items, item.isExact = true) →
    (itemChars items false rest).length < fuel + rest.length + 1 →
      readItems fuel (itemChars items false rest) = ((itemNodes items, none), rest)
  | items, 0, rest, h, hfuel => by
    have := length_lt_itemChars items false rest h
    omega
  | [], fuel + 1, rest, _, _ => rfl
  | item :: items, fuel + 1, rest, h, hfuel => by
    obtain ⟨hitem, hitems⟩ := List.forall_mem_cons.mp h
    have hlength := length_lt_itemChars items false rest hitems
    have htext : itemChars (item :: items) false rest =
        ',' :: item.chars (itemChars items false rest) := rfl
    rw [htext, List.length_cons] at hfuel
    have hfirst := readValue_chars item fuel (itemChars items false rest) hitem
      (endsValue_itemChars items rest) (by omega)
    have hothers := readItems_chars items fuel rest hitems (by
      have := length_lt_chars item (itemChars items false rest) hitem
      omega)
    obtain ⟨c, cs, hcs, hblank, hc⟩ := exists_chars_eq_cons hitem (itemChars items false rest)
    rw [hcs] at hfirst
    rw [htext, hcs, readItems_cons fuel hblank hc, hfirst, hothers]
    rfl

theorem readMembers_chars : (members : List (String × Json)) → (fuel : Nat) →
    (rest : List Char) → (∀ m ∈ members, m.2.isExact = true) →
    (memberChars members false rest).length < fuel + rest.length + 1 →
      readMembers fuel (memberChars members false rest) = ((memberNodes members, none), rest)
  | members, 0, rest, h, hfuel => by
    have := length_lt_memberChars members false rest h
    omega
  | [], fuel + 1, rest, _, _ => rfl
  | (key, value) :: members, fuel + 1, rest, h, hfuel => by
    obtain ⟨hvalue, hmembers⟩ := List.forall_mem_cons.mp h
    have htext : memberChars ((key, value) :: members) false rest =
        ',' :: '"' :: (key.toList.flatMap escape ++ '"' :: ':' ::
          value.chars (memberChars members false rest)) := rfl
    rw [htext] at hfuel ⊢
    have hlength := length_lt_memberChars members false rest hmembers
    have hlonger := length_lt_chars value (memberChars members false rest) hvalue
    simp only [List.length_cons, List.length_append] at hfuel
    obtain ⟨fuel, rfl⟩ := Nat.exists_eq_succ_of_ne_zero (by omega : fuel ≠ 0)
    have hfirst := readMember_chars key (readValue_chars value fuel
      (memberChars members false rest) hvalue (endsValue_memberChars members rest) (by omega))
    have hothers := readMembers_chars members (fuel + 1) rest hmembers (by omega)
    rw [readMembers, skipBlanks_cons (by decide)]
    simp only
    rw [skipBlanks_cons (by decide)]
    simp only [hfirst, hothers]
    rfl

end

/-- **A text that is written is read** as the document of its value. -/
theorem Document.ofText_render {v : Json} (h : v.isExact = true) :
    Document.ofText v.render = ⟨v.toNode, false⟩ := by
  have hread := readValue_chars v (3 * (v.chars []).length + 3) [] h endsValue_nil (by
    rw [List.length_nil]
    omega)
  rw [Document.ofText, render, String.toList_ofList, Document.ofChars, hread]
  rfl

end CustomResource.Json

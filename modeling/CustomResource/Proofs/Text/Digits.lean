import CustomResource.Text.Digits
import Mathlib.Data.Nat.Digits.Lemmas

/-!
# Digits read back

The digits of a number are those of its positional representation, most significant first, and a
reader of decimal digits takes the number back from them.

## Main results

* `Text.digitsOf_eq`: the digits of a number.
* `Text.decimalValue_digitsOf`, `decimalValue_padded`: the number back.
-/

namespace CustomResource.Text

theorem toNat_digitChar {d : Nat} (h : d < 10) : (digitChar d).toNat = 48 + d := by
  interval_cases d <;> rfl

theorem isDigit_digitChar {d : Nat} (h : d < 10) : isDigit (digitChar d) = true := by
  interval_cases d <;> rfl

/-! ### The digits of a number -/

variable {base : Nat}

/-- The induction is on the number of steps, each of which takes one digit off. -/
theorem digitsBefore_eq (hbase : 1 < base) {fuel n : Nat} (hn : 0 < n) (hfuel : n < 2 ^ fuel)
    (rest : List Char) : digitsBefore base fuel n rest =
      (Nat.digits base n).reverse.map digitChar ++ rest := by
  induction fuel generalizing n rest with
  | zero => simp at hfuel; omega
  | succ fuel ih =>
    rw [digitsBefore, Nat.digits_def' hbase hn]
    split
    · next hlt =>
      rw [Nat.div_eq_of_lt hlt, Nat.mod_eq_of_lt hlt, Nat.digits_zero]
      rfl
    · next hge =>
      have hquot : n / base < 2 ^ fuel := by
        have hhalf : n / base ≤ n / 2 := Nat.div_le_div_left hbase (by decide)
        rw [Nat.pow_succ] at hfuel
        omega
      rw [ih (Nat.div_pos (by omega) (by omega)) hquot, List.reverse_cons, List.map_append,
        List.append_assoc]
      rfl

theorem digitsOf_eq (hbase : 1 < base) {n : Nat} (hn : 0 < n) :
    digitsOf base n = (Nat.digits base n).reverse.map digitChar := by
  rw [digitsOf, digitsBefore_eq hbase hn Nat.lt_log2_self, List.append_nil]

theorem digitsOf_zero : digitsOf 10 0 = ['0'] := rfl

theorem digitsOf_ne_nil (n : Nat) : digitsOf 10 n ≠ [] := by
  obtain rfl | hn := n.eq_zero_or_pos
  · simp [digitsOf_zero]
  · rw [digitsOf_eq (by decide) hn]
    simpa [Nat.digits_ne_nil_iff_ne_zero] using hn.ne'

theorem isDigit_of_mem_digitsOf {n : Nat} {c : Char} (h : c ∈ digitsOf 10 n) :
    isDigit c = true := by
  obtain rfl | hn := n.eq_zero_or_pos
  · obtain rfl := List.mem_singleton.mp h
    rfl
  · rw [digitsOf_eq (by decide) hn] at h
    obtain ⟨d, hd, rfl⟩ := List.mem_map.mp h
    exact isDigit_digitChar (Nat.digits_lt_base (by decide) (List.mem_reverse.mp hd))

/-- A number other than zero begins with another digit. -/
theorem head_digitsOf_ne {n : Nat} (hn : 0 < n) (rest : List Char) :
    digitsOf 10 n ≠ '0' :: rest := by
  rw [digitsOf_eq (by decide) hn]
  intro h
  have hne : Nat.digits 10 n ≠ [] := Nat.digits_ne_nil_iff_ne_zero.mpr hn.ne'
  have hlast := Nat.getLast_digit_ne_zero 10 hn.ne'
  have hlt := Nat.digits_lt_base (by decide : 1 < 10) (List.getLast_mem hne)
  obtain ⟨init, last, hsplit⟩ := (List.eq_nil_or_concat _).resolve_left hne
  simp only [hsplit, List.concat_eq_append, List.getLast_append_singleton] at hlast hlt
  rw [hsplit, List.concat_eq_append, List.reverse_append, List.reverse_singleton,
    List.map_append] at h
  have hzero := congrArg Char.toNat (List.cons.inj h).1
  rw [toNat_digitChar hlt] at hzero
  exact hlast (by simpa using hzero)

theorem length_digitsOf_le {width n : Nat} (hwidth : 0 < width) (h : n < 10 ^ width) :
    (digitsOf 10 n).length ≤ width := by
  obtain rfl | hn := n.eq_zero_or_pos
  · exact hwidth
  · rw [digitsOf_eq (by decide) hn, List.length_map, List.length_reverse]
    exact (Nat.digits_length_le_iff (by decide) n).mpr h

/-! ### The number of some digits -/

theorem decimalValue_concat (cs : List Char) (c : Char) :
    decimalValue (cs ++ [c]) = 10 * decimalValue cs + (c.toNat - 48) := by
  rw [decimalValue, List.foldl_append]
  rfl

theorem decimalValue_map_digitChar {ds : List Nat} (h : ∀ d ∈ ds, d < 10) :
    decimalValue (ds.reverse.map digitChar) = Nat.ofDigits 10 ds := by
  induction ds with
  | nil => rfl
  | cons d ds ih =>
    obtain ⟨hd, hrest⟩ := List.forall_mem_cons.mp h
    rw [List.reverse_cons, List.map_append, List.map_singleton, decimalValue_concat, ih hrest,
      toNat_digitChar hd, Nat.ofDigits_cons]
    omega

/-- **The number back** from its digits. -/
theorem decimalValue_digitsOf (n : Nat) : decimalValue (digitsOf 10 n) = n := by
  obtain rfl | hn := n.eq_zero_or_pos
  · rfl
  · rw [digitsOf_eq (by decide) hn,
      decimalValue_map_digitChar fun d hd => Nat.digits_lt_base (by decide) hd,
      Nat.ofDigits_digits]

theorem decimalValue_zeros_append (k : Nat) (cs : List Char) :
    decimalValue (List.replicate k '0' ++ cs) = decimalValue cs := by
  induction k with
  | zero => rfl
  | succ k ih =>
    rw [List.replicate_succ, List.cons_append, ← ih]
    rfl

/-! ### Digits before something else -/

theorem takeWhile_digits {ds rest : List Char} (hdigits : ∀ c ∈ ds, isDigit c = true)
    (hrest : ∀ c ∈ rest.head?, isDigit c = false) :
    (ds ++ rest).takeWhile isDigit = ds := by
  rw [List.takeWhile_append_of_pos hdigits]
  cases rest with
  | nil => simp
  | cons c rest => simp [hrest c rfl]

/-! ### Digits filled up to a width -/

section Padded

variable {width n : Nat}

theorem decimalValue_padded (width n : Nat) : decimalValue (padded width n).toList = n := by
  rw [padded, String.toList_ofList, decimalValue_zeros_append, decimalValue_digitsOf]

theorem isDigit_of_mem_padded {c : Char} (h : c ∈ (padded width n).toList) : isDigit c = true := by
  rw [padded, String.toList_ofList] at h
  obtain h | h := List.mem_append.mp h
  · obtain rfl := List.eq_of_mem_replicate h
    rfl
  · exact isDigit_of_mem_digitsOf h

theorem length_padded (hwidth : 0 < width) (h : n < 10 ^ width) :
    (padded width n).toList.length = width := by
  have := length_digitsOf_le hwidth h
  rw [padded, String.toList_ofList, List.length_append, List.length_replicate]
  omega

end Padded

end CustomResource.Text

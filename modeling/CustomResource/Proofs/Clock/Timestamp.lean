import CustomResource.Clock.Timestamp
import CustomResource.Proofs.Text.Digits

/-!
# Timestamps read back

A reader of timestamps admits much: white space, signs, offsets, fractions. What is written is of
one form, and the reader takes from it the instant, to the second.

## Main definitions

* `Timestamp.toSecond`: an instant without the fraction of its second.

## Main results

* `Timestamp.ofText_render`: the instant that is written is read back to the second.
* `Timestamp.render_toSecond`: nothing more is written.
-/

namespace CustomResource

namespace Text

theorem not_isSpace_of_isDigit {c : Char} (h : isDigit c = true) : isSpace c = false := by
  simp only [isDigit, Bool.and_eq_true, decide_eq_true_eq] at h
  have hlow : 48 ≤ c.toNat := h.1
  have hhigh : c.toNat ≤ 57 := h.2
  simp only [isSpace, Bool.or_eq_false_iff, Bool.and_eq_false_iff, decide_eq_false_iff_not,
    beq_eq_false_iff_ne]
  omega

theorem dropSpaces_cons {c : Char} {cs : List Char} (h : isSpace c = false) :
    dropSpaces (c :: cs) = c :: cs := by
  rw [dropSpaces, List.dropWhile_cons_of_neg (by simp [h])]

/-- A text that begins with a digit has no white space at its start. -/
theorem dropSpaces_digits {ds rest : List Char} (hne : ds ≠ [])
    (hdigits : ∀ c ∈ ds, isDigit c = true) : dropSpaces (ds ++ rest) = ds ++ rest := by
  obtain ⟨c, ds, rfl⟩ := List.exists_cons_of_ne_nil hne
  exact dropSpaces_cons (not_isSpace_of_isDigit (hdigits c List.mem_cons_self))

end Text

theorem Date.month_bounds (d : Date) : 1 ≤ d.month ∧ d.month ≤ 12 := by
  obtain ⟨-, -, hlow, hhigh⟩ := d.is_valid
  rw [daysInMonth] at hhigh
  split_ifs at hhigh <;> omega

theorem Date.day_le (d : Date) : d.day ≤ 31 := by
  obtain ⟨-, -, hlow, hhigh⟩ := d.is_valid
  rw [daysInMonth] at hhigh
  split_ifs at hhigh <;> omega

theorem Date.ofParts?_eq (d : Date) : Date.ofParts? d.year d.month d.day = some d :=
  dif_pos d.is_valid

/-- A time of day that no minutes are taken off. -/
theorem TimeOfDay.minusMinutes_zero (t : TimeOfDay) : t.minusMinutes 0 = (t, 0) := by
  obtain ⟨hour, minute, second, nanosecond, hvalid⟩ := t
  simp only [minusMinutes, Prod.mk.injEq, TimeOfDay.mk.injEq, and_true]
  omega

namespace Timestamp

/-! ### Numbers -/

/-- A number of some digits is read if something else follows them. -/
theorem number_append {most limit : Nat} {ds rest : List Char} (hne : ds ≠ [])
    (hdigits : ∀ c ∈ ds, Text.isDigit c = true) (hmost : ds.length ≤ most)
    (hrest : ∀ c ∈ rest.head?, Text.isDigit c = false) (hlimit : Text.decimalValue ds ≤ limit) :
    number most limit (ds ++ rest) = .ok (Text.decimalValue ds, rest) := by
  have htake : ((ds ++ rest).take most).takeWhile Text.isDigit = ds := by
    rw [List.take_append, List.take_of_length_le hmost]
    refine Text.takeWhile_digits hdigits fun c hc => hrest c ?_
    rw [List.head?_take] at hc
    split at hc
    · simp at hc
    · exact hc
  rw [number]
  simp only [htake, List.isEmpty_iff, hne, if_false, if_pos hlimit, List.drop_left]

/-- Two digits are read if something else follows them. -/
theorem twoDigits_padded {low high n : Nat} {rest : List Char} (hn : n < 100) (hlow : low ≤ n)
    (hhigh : n ≤ high) (hrest : ∀ c ∈ rest.head?, Text.isDigit c = false) :
    twoDigits low high ((Text.padded 2 n).toList ++ rest) = .ok (n, rest) := by
  have hlength : (Text.padded 2 n).toList.length = 2 := Text.length_padded (by decide) hn
  have hne : (Text.padded 2 n).toList ≠ [] := by
    intro h
    simp [h] at hlength
  have hdigits : ∀ c ∈ (Text.padded 2 n).toList, Text.isDigit c = true :=
    fun c hc => Text.isDigit_of_mem_padded hc
  rw [twoDigits, Text.dropSpaces_digits hne hdigits,
    number_append hne hdigits hlength.le hrest (by rwa [Text.decimalValue_padded]),
    Text.decimalValue_padded]
  exact if_pos hlow

/-! ### Years -/

/-- A year that begins with a digit has four digits at most. -/
theorem year_of_isDigit {c : Char} {cs : List Char} (h : Text.isDigit c = true) :
    year (c :: cs) = (number 4 9999 (c :: cs)).map fun r => ((r.1 : Int), r.2) := by
  rw [year, Text.dropSpaces_cons (Text.not_isSpace_of_isDigit h)]
  split
  · next heq =>
    obtain ⟨rfl, -⟩ := List.cons.inj heq
    simp [Text.isDigit] at h
  · next heq =>
    obtain ⟨rfl, -⟩ := List.cons.inj heq
    simp [Text.isDigit] at h
  · rfl

theorem year_minus (cs : List Char) : year ('-' :: cs) =
    (number cs.length (Nat.pow 2 31) cs).map fun r => (-(r.1 : Int), r.2) := by
  rw [year, Text.dropSpaces_cons (by decide)]
  rfl

theorem year_plus (cs : List Char) : year ('+' :: cs) =
    (number cs.length (Nat.pow 2 31 - 1) cs).map fun r => ((r.1 : Int), r.2) := by
  rw [year, Text.dropSpaces_cons (by decide)]
  rfl

theorem year_render {y : Int} (hlow : -262143 ≤ y) (hhigh : y ≤ 262142) (rest : List Char) :
    year ((renderYear y).toList ++ '-' :: rest) = .ok (y, '-' :: rest) := by
  have hrest : ∀ c ∈ ('-' :: rest).head?, Text.isDigit c = false := by
    rintro c ⟨⟩
    rfl
  have hdigits : ∀ n, ∀ c ∈ (Text.padded 4 n).toList, Text.isDigit c = true :=
    fun n c hc => Text.isDigit_of_mem_padded hc
  have hne : ∀ n, (Text.padded 4 n).toList ≠ [] := by
    intro n h
    simp [Text.padded, Text.digitsOf_ne_nil] at h
  have hnumber : ∀ {most limit n}, (Text.padded 4 n).toList.length ≤ most → n ≤ limit →
      number most limit ((Text.padded 4 n).toList ++ '-' :: rest) = .ok (n, '-' :: rest) := by
    intro most limit n hmost hlimit
    rw [number_append (hne n) (hdigits n) hmost hrest (by rwa [Text.decimalValue_padded]),
      Text.decimalValue_padded]
  rw [renderYear]
  split
  · next hplain =>
    obtain ⟨n, rfl⟩ := Int.eq_ofNat_of_zero_le hplain.1
    have hlength : (Text.padded 4 n).toList.length = 4 := Text.length_padded (by decide) (by omega)
    obtain ⟨c, ds, hds⟩ := List.exists_cons_of_ne_nil (hne n)
    rw [Int.toNat_natCast, hds, List.cons_append,
      year_of_isDigit (hdigits n c (hds ▸ List.mem_cons_self)), ← List.cons_append, ← hds,
      hnumber hlength.le (by omega)]
    rfl
  · next hsigned =>
    have hmost : (Text.padded 4 y.natAbs).toList.length ≤
        ((Text.padded 4 y.natAbs).toList ++ '-' :: rest).length := by simp
    rw [String.toList_append, List.append_assoc]
    split
    · next hnegative =>
      have hlimit : y.natAbs ≤ Nat.pow 2 31 := by norm_num; omega
      rw [show "-".toList = ['-'] from rfl, List.singleton_append, year_minus,
        hnumber hmost hlimit, Except.map, Int.ofNat_natAbs_of_nonpos hnegative.le, neg_neg]
    · next hpositive =>
      have hlimit : y.natAbs ≤ Nat.pow 2 31 - 1 := by norm_num; omega
      rw [show "+".toList = ['+'] from rfl, List.singleton_append, year_plus,
        hnumber hmost hlimit, Except.map, Int.natAbs_of_nonneg (by omega)]

/-! ### Instants -/

/-- An instant without the fraction of its second. -/
def toSecond (t : Timestamp) : Timestamp where
  date := t.date
  time :=
    { hour := t.time.hour
      minute := t.time.minute
      second := t.time.second
      nanosecond := 0
      is_valid := ⟨t.time.is_valid.1, t.time.is_valid.2.1, t.time.is_valid.2.2.1, by decide⟩ }

/-- The fraction of a second is not written. -/
theorem render_toSecond (t : Timestamp) : t.toSecond.render = t.render := rfl

theorem toSecond_eq_self_iff {t : Timestamp} : t.toSecond = t ↔ t.time.nanosecond = 0 := by
  obtain ⟨date, hour, minute, second, nanosecond, hvalid⟩ := t
  simp [toSecond, eq_comm]

theorem toList_render (t : Timestamp) : t.render.toList = (renderYear t.date.year).toList ++ '-' ::
    ((Text.padded 2 t.date.month).toList ++ '-' :: ((Text.padded 2 t.date.day).toList ++ 'T' ::
      ((Text.padded 2 t.time.hour).toList ++ ':' :: ((Text.padded 2 t.time.minute).toList ++ ':' ::
        ((Text.padded 2 t.time.second).toList ++ ['Z']))))) := by
  have hdash : "-".toList = ['-'] := rfl
  have hcolon : ":".toList = [':'] := rfl
  have hdate : "T".toList = ['T'] := rfl
  have hend : "Z".toList = ['Z'] := rfl
  simp only [render, String.toList_append, List.append_assoc, hdash, hcolon, hdate, hend,
    List.cons_append, List.nil_append]

/-- **The instant that is written is read back**, to the second. -/
theorem ofText_render (t : Timestamp) : ofText t.render = .ok t.toSecond := by
  have hmonth := t.date.month_bounds
  have hday := t.date.day_le
  obtain ⟨hlow, hhigh, hpositive, -⟩ := t.date.is_valid
  obtain ⟨hhour, hminute, hsecond, -⟩ := t.time.is_valid
  have htwo : ∀ {low high n : Nat} (c : Char) (rest : List Char), Text.isDigit c = false →
      n < 100 → low ≤ n → n ≤ high →
      twoDigits low high ((Text.padded 2 n).toList ++ c :: rest) = .ok (n, c :: rest) := by
    intro low high n c rest hc hn hlow hhigh
    refine twoDigits_padded hn hlow hhigh ?_
    rintro d ⟨⟩
    exact hc
  have hdash : ∀ rest, separator '-' ('-' :: rest) = .ok rest := fun rest => rfl
  have hcolon : ∀ rest, separator ':' (':' :: rest) = .ok rest := fun rest => rfl
  have hdate : ∀ rest, dateEnd ('T' :: rest) = .ok rest := fun rest => rfl
  have hfraction : fraction ['Z'] = .ok (0, ['Z']) := rfl
  have hoffset : offset ['Z'] = .ok (0, []) := rfl
  have htime : TimeOfDay.ofParts? t.time.hour t.time.minute t.time.second 0 =
      some t.toSecond.time := dif_pos t.toSecond.time.is_valid
  have hlocal : ofLocal t.date t.toSecond.time 0 = .ok t.toSecond := by
    rw [ofLocal, TimeOfDay.minusMinutes_zero]
    rfl
  rw [ofText, ofChars, toList_render]
  simp only [year_render hlow hhigh, bind, Except.bind, hdash, hcolon, hdate, hfraction, hoffset,
    htwo '-' _ rfl (by omega) hmonth.1 hmonth.2, htwo 'T' _ rfl (by omega) hpositive hday,
    htwo ':' _ rfl (by omega) (Nat.zero_le _) (Nat.le_of_lt_succ hhour),
    htwo ':' _ rfl (by omega) (Nat.zero_le _) (Nat.le_of_lt_succ hminute),
    htwo 'Z' _ rfl (by omega) (Nat.zero_le _) hsecond, t.date.ofParts?_eq, htime]
  exact hlocal

end Timestamp

end CustomResource

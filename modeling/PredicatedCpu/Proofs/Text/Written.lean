/-
# Numerals that were written are read back

A value is written in digits of some radix, possibly with zeros in front and with its letters
in upper case, and what was written denotes the value again.  Nothing here bounds the value.

* `ofDigits?_hex`, `ofDigits?_decimal`: the digits;
* `numeral?_hex`, `numeral?_decimal`: the same behind their radix marks.
-/
import PredicatedCpu.Text.Numeral

namespace PredicatedCpu
namespace Text

/-! ## 1. One digit -/

/-- The written digit of a value, in upper case or not. -/
theorem digitValue?_digitChar :
    ∀ value < 16, digitValue? value.digitChar = some value ∧
      digitValue? value.digitChar.toUpper = some value := by
  decide

theorem digit?_digitChar {radix value : Nat} (hradix : radix ≤ 16) (h : value < radix) :
    digit? radix value.digitChar = some value := by
  rw [digit?, (digitValue?_digitChar value (by omega)).1, Option.filter_some, if_pos]
  exact decide_eq_true h

theorem digit?_toUpper_digitChar {value : Nat} (h : value < 16) :
    digit? 16 value.digitChar.toUpper = some value := by
  rw [digit?, (digitValue?_digitChar value h).2, Option.filter_some, if_pos]
  exact decide_eq_true h

/-! ## 2. Runs of digits -/

theorem ofDigitValues_append (radix : Nat) (front : List Nat) (digit : Nat) :
    ofDigitValues radix (front ++ [digit]) = ofDigitValues radix front * radix + digit := by
  simp [ofDigitValues]

theorem ofDigitValues_replicate_zero (radix : Nat) : ∀ (n : Nat) (digits : List Nat),
    ofDigitValues radix (List.replicate n 0 ++ digits) = ofDigitValues radix digits
  | 0, digits => rfl
  | n + 1, digits => by
    have ih := ofDigitValues_replicate_zero radix n digits
    simpa [ofDigitValues, List.replicate_succ] using ih

/-- What a reader of single digits makes of the digits of a value.  The induction is on the
value, the last digit first, as the digits are made. -/
theorem exists_mapM_toDigits {radix : Nat} (hradix : 1 < radix) (read : Char → Option Nat)
    (hread : ∀ value < radix, read value.digitChar = some value) (value : Nat) :
    ∃ digits, (Nat.toDigits radix value).mapM read = some digits ∧
      ofDigitValues radix digits = value := by
  induction value using Nat.strongRecOn with
  | ind value ih =>
    by_cases hlt : value < radix
    · refine ⟨[value], ?_, by simp [ofDigitValues]⟩
      simp [Nat.toDigits_of_lt_base hlt, hread value hlt]
    · have hdiv : value / radix < value := Nat.div_lt_self (by omega) hradix
      have hmod : value % radix < radix := Nat.mod_lt _ (by omega)
      have hlast := Nat.toDigits_of_base_le hradix (Nat.le_of_not_lt hlt)
      obtain ⟨front, hfront, hvalue⟩ := ih (value / radix) hdiv
      refine ⟨front ++ [value % radix], ?_, ?_⟩
      · simp [hlast, hfront, hread _ hmod]
      · rw [ofDigitValues_append, hvalue, Nat.mul_comm, Nat.div_add_mod]

/-- Every digit of a value is the digit of something below the radix. -/
theorem exists_of_mem_toDigits {radix : Nat} (hradix : 1 < radix) {value : Nat} {c : Char}
    (h : c ∈ Nat.toDigits radix value) : ∃ digit < radix, c = digit.digitChar := by
  induction value using Nat.strongRecOn with
  | ind value ih =>
    by_cases hlt : value < radix
    · rw [Nat.toDigits_of_lt_base hlt, List.mem_singleton] at h
      exact ⟨value, hlt, h⟩
    · rw [Nat.toDigits_of_base_le hradix (Nat.le_of_not_lt hlt), List.mem_append,
        List.mem_singleton] at h
      rcases h with h | h
      · exact ih (value / radix) (Nat.div_lt_self (by omega) hradix) h
      · exact ⟨value % radix, Nat.mod_lt _ (by omega), h⟩

theorem toList_zeroPad (width : Nat) (text : String) :
    (zeroPad width text).toList = List.replicate (width - text.length) '0' ++ text.toList := by
  simp [zeroPad, filling]

theorem toList_hex (width value : Nat) :
    ∃ zeros, (hex width value).toList =
      List.replicate zeros '0' ++ (Nat.toDigits 16 value).map Char.toUpper := by
  exact ⟨_, by rw [hex, toList_zeroPad, String.toList_ofList]⟩

theorem toList_decimal (value : Nat) : (decimal value).toList = Nat.toDigits 10 value := by
  simp [decimal]

/-- **Hexadecimal digits** denote the value they were written for, whatever the width. -/
theorem ofDigits?_hex (width value : Nat) :
    ofDigits? 16 (hex width value).toList = some value := by
  obtain ⟨zeros, htext⟩ := toList_hex width value
  obtain ⟨digits, hdigits, hvalue⟩ := exists_mapM_toDigits (show 1 < 16 by decide)
    (fun c => digit? 16 c.toUpper) (fun _ h => digit?_toUpper_digitChar h) value
  have hzeros : ∀ n : Nat, (List.replicate n '0').mapM (digit? 16) = some (List.replicate n 0) := by
    intro n
    induction n with
    | zero => rfl
    | succ n ih => simp [List.replicate_succ, ih, show digit? 16 '0' = some 0 from by decide]
  have hread : (hex width value).toList.mapM (digit? 16) =
      some (List.replicate zeros 0 ++ digits) := by
    rw [htext, List.mapM_append, hzeros, List.mapM_map]
    simp [Function.comp_def, hdigits]
  have hne : (hex width value).toList.isEmpty = false := by
    simp [htext]
  rw [ofDigits?, hne, hread]
  simp [ofDigitValues_replicate_zero, hvalue]

/-- **Decimal digits** denote the value they were written for. -/
theorem ofDigits?_decimal (value : Nat) : ofDigits? 10 (decimal value).toList = some value := by
  obtain ⟨digits, hdigits, hvalue⟩ := exists_mapM_toDigits (show 1 < 10 by decide)
    (digit? 10) (fun _ h => digit?_digitChar (by decide) h) value
  rw [toList_decimal, ofDigits?, hdigits]
  simp [hvalue]

/-! ## 3. Behind a radix mark -/

theorem splitMark_hex (marks : Marks) (cs : List Char) :
    splitMark marks ('0' :: 'x' :: cs) = (16, cs) := by
  simp [splitMark]

theorem numeral?_hex (marks : Marks) (width value : Nat) :
    numeral? marks ('0' :: 'x' :: (hex width value).toList) = some value := by
  simp only [numeral?, splitMark_hex, ofDigits?_hex]

/-- The letters that mark a radix. -/
def markLetters : List Char := ['x', 'X', 'b', 'B']

/-- A text without a mark is decimal. -/
theorem splitMark_of_unmarked (marks : Marks) {cs : List Char}
    (h : ∀ mark ∈ markLetters, ∀ digits, cs ≠ '0' :: mark :: digits) :
    splitMark marks cs = (10, cs) := by
  unfold splitMark
  split
  · exact absurd rfl (h 'x' (by decide) _)
  · exact absurd rfl (h 'X' (by decide) _)
  · exact absurd rfl (h 'b' (by decide) _)
  · exact absurd rfl (h 'B' (by decide) _)
  · rfl

/-- Digits are no radix mark. -/
theorem splitMark_of_digits (marks : Marks) {cs : List Char} (h : ∀ c ∈ cs, c.isDigit = true) :
    splitMark marks cs = (10, cs) := by
  have hmarks : markLetters.all (fun mark => !mark.isDigit) = true := by decide
  refine splitMark_of_unmarked marks fun mark hmem digits hcs => ?_
  have hmark := List.all_eq_true.mp hmarks mark hmem
  rw [h mark (by simp [hcs])] at hmark
  cases hmark

/-- A decimal numeral is made of digits. -/
theorem isDigit_decimal (value : Nat) : ∀ c ∈ (decimal value).toList, c.isDigit = true := by
  intro c hc
  rw [toList_decimal] at hc
  exact Nat.isDigit_of_mem_toDigits (by decide) (by decide) hc

theorem numeral?_decimal (marks : Marks) (value : Nat) :
    numeral? marks (decimal value).toList = some value := by
  simp only [numeral?, splitMark_of_digits marks (isDigit_decimal value), ofDigits?_decimal]

/-- A decimal numeral is read as a count if that is not too large. -/
theorem countBelow?_decimal {bound value : Nat} (h : value < bound) :
    countBelow? bound (decimal value).toList = some value := by
  have hread : countBelow? bound (decimal value).toList =
      (ofDigits? 10 (decimal value).toList).filter fun value => decide (value < bound) := by
    unfold countBelow?
    split
    · rename_i hplus
      have hmark := isDigit_decimal value '+' (by rw [hplus]; exact List.mem_cons_self)
      cases hmark
    · rfl
  rw [hread, ofDigits?_decimal, Option.filter_some, if_pos (by simpa using h)]

end Text
end PredicatedCpu

/-
# Cutting texts in upper case

Upper-casing exchanges letters for letters and leaves all other characters alone.  What cuts a
text looks for blanks, for signs and for digits, never for a letter, so the upper-cased text is
cut at the same places; and a letter takes one byte in either case, so the places are the same
in bytes as well.

* `CaseBlind`: a property of characters that does not depend on their case;
* `Fragment.upper`: a fragment in upper case, which stays where it is, and one lemma for each way
  of cutting a fragment that carries it through;
* `numeral?_upper`: a numeral has one value in either case.
-/
import Mathlib
import PredicatedCpu.Proofs.Text.Written
import PredicatedCpu.Text.Case
import PredicatedCpu.Text.Fragment

namespace PredicatedCpu
namespace Text

/-! ## 1. Characters -/

/-- Whether a property of characters **does not depend on case**. -/
def CaseBlind (p : Char → Bool) : Prop := ∀ c : Char, p c.toUpper = p c

theorem CaseBlind.not {p : Char → Bool} (h : CaseBlind p) : CaseBlind fun c => !p c :=
  fun c => congrArg (!·) (h c)

theorem CaseBlind.comp_toUpper {p : Char → Bool} (h : CaseBlind p) : p ∘ Char.toUpper = p :=
  funext h

/-- Upper-casing moves the 26 small letters by 32 places, and no other character. -/
theorem toUpper_cases (c : Char) :
    c.toUpper = c ∨ (97 ≤ c.toNat ∧ c.toNat ≤ 122 ∧ c.toUpper.toNat = c.toNat - 32) := by
  by_cases h : c.isLower
  · have hrange : 97 ≤ c.toNat ∧ c.toNat ≤ 122 := by
      simpa [Char.isLower, UInt32.le_iff_toNat_le] using h
    refine .inr ⟨hrange.1, hrange.2, ?_⟩
    rw [Char.toUpper_eq_of_isLower h, Char.toNat_ofNat, if_pos]
    exact .inl (by omega)
  · exact .inl (Char.toUpper_eq_of_not_isLower h)

/-- A character that is no letter is what upper-casing makes of itself alone. -/
theorem toUpper_eq_iff {c d : Char} (h : d.isAlpha = false) : c.toUpper = d ↔ c = d := by
  constructor
  · rintro rfl
    rw [Char.isAlpha_toUpper_eq_isAlpha, Char.isAlpha, Bool.or_eq_false_iff] at h
    rw [Char.toUpper_eq_of_not_isLower (by simp [h.2])]
  · rintro rfl
    rw [Char.isAlpha, Bool.or_eq_false_iff] at h
    exact Char.toUpper_eq_of_not_isLower (by simp [h.2])

theorem caseBlind_eq {d : Char} (h : d.isAlpha = false) : CaseBlind (· == d) := by
  intro c
  rw [Bool.eq_iff_iff, beq_iff_eq, beq_iff_eq, toUpper_eq_iff h]

theorem caseBlind_ne {d : Char} (h : d.isAlpha = false) : CaseBlind (· != d) :=
  (caseBlind_eq h).not

theorem caseBlind_isBlank : CaseBlind isBlank := by
  intro c
  have hnot : ∀ d : Char, 65 ≤ d.toNat → d.toNat ≤ 122 → isBlank d = false := by
    intro d hlow hhigh
    simp only [isBlank, blankRanges, List.any_cons, List.any_nil, Bool.or_false,
      Bool.or_eq_false_iff, Bool.and_eq_false_iff, decide_eq_false_iff_not]
    omega
  rcases toUpper_cases c with hc | ⟨hlow, hhigh, hc⟩
  · rw [hc]
  · rw [hnot c.toUpper (by omega) (by omega), hnot c (by omega) hhigh]

theorem caseBlind_isDigit : CaseBlind Char.isDigit := by
  intro c
  have hnot : ∀ d : Char, 65 ≤ d.toNat → d.isDigit = false := by
    intro d hlow
    have hlarge : ¬ d.val ≤ '9'.val := by
      intro h
      exact absurd (Nat.le_trans hlow (UInt32.le_iff_toNat_le.mp h)) (by decide)
    rw [Char.isDigit, decide_eq_false hlarge, Bool.and_false]
  rcases toUpper_cases c with hc | ⟨hlow, hhigh, hc⟩
  · rw [hc]
  · rw [hnot c.toUpper (by omega), hnot c (by omega)]

/-- A letter counts as the same digit in either case. -/
theorem digitValue?_toUpper (c : Char) : digitValue? c.toUpper = digitValue? c := by
  rcases toUpper_cases c with hc | ⟨hlow, hhigh, hc⟩
  · rw [hc]
  · have hle : ∀ a b : Char, a ≤ b ↔ a.toNat ≤ b.toNat := fun a b => UInt32.le_iff_toNat_le
    simp only [digitValue?, hle, hc]
    rw [if_neg, if_neg, if_pos, if_neg, if_pos]
    · exact congrArg some (by change c.toNat - 32 - 65 + 10 = c.toNat - 97 + 10; omega)
    · exact ⟨hlow, hhigh⟩
    · rintro ⟨-, h⟩
      exact absurd (Nat.le_trans hlow h) (by decide)
    · exact ⟨show 65 ≤ c.toNat - 32 by omega, show c.toNat - 32 ≤ 90 by omega⟩
    · rintro ⟨h, -⟩
      have : 97 ≤ c.toNat - 32 := h
      omega
    · rintro ⟨-, h⟩
      have : c.toNat - 32 ≤ 57 := h
      omega

/-- A letter of ASCII takes one byte in either case. -/
theorem utf8Size_toUpper (c : Char) : c.toUpper.utf8Size = c.utf8Size := by
  rcases toUpper_cases c with hc | ⟨hlow, hhigh, hc⟩
  · rw [hc]
  · have hone : ∀ d : Char, d.toNat ≤ 127 → d.utf8Size = 1 :=
      fun d hd => Char.utf8Size_eq_one_iff.mpr (UInt32.le_iff_toNat_le.mpr hd)
    rw [hone c (by omega), hone c.toUpper (by omega)]

/-- Only the two cases of a letter become the letter in upper case. -/
theorem eq_or_eq_toLower_of_toUpper {c d : Char} (h : c.toUpper = d) : c = d ∨ c = d.toLower := by
  by_cases hlower : c.isLower
  · refine .inr ?_
    rw [← h, Char.toLower_toUpper_eq_toLower,
      Char.toLower_eq_of_not_isUpper fun hupper => Char.not_isLower_of_isUpper hupper hlower]
  · exact .inl (by rw [← h, Char.toUpper_eq_of_not_isLower hlower])

/-! ## 2. Texts -/

theorem upper_upper (name : String) : upper (upper name) = upper name := by
  rw [upper, toList_upper, List.map_map, upper]
  congr 2
  funext c
  exact Char.toUpper_toUpper_eq_toUpper c

theorem ofList_upper (cs : List Char) :
    String.ofList (cs.map Char.toUpper) = upper (String.ofList cs) := by
  rw [upper, String.toList_ofList]

theorem byteWidth_upper (cs : List Char) : byteWidth (cs.map Char.toUpper) = byteWidth cs := by
  induction cs with
  | nil => rfl
  | cons c rest ih => simp [byteWidth, utf8Size_toUpper, ih]

theorem takeWhile_upper {p : Char → Bool} (h : CaseBlind p) (cs : List Char) :
    (cs.map Char.toUpper).takeWhile p = (cs.takeWhile p).map Char.toUpper := by
  rw [List.takeWhile_map, h.comp_toUpper]

theorem dropWhile_upper {p : Char → Bool} (h : CaseBlind p) (cs : List Char) :
    (cs.map Char.toUpper).dropWhile p = (cs.dropWhile p).map Char.toUpper := by
  rw [List.dropWhile_map, h.comp_toUpper]

theorem trimEnd_upper (cs : List Char) :
    trimEnd (cs.map Char.toUpper) = (trimEnd cs).map Char.toUpper := by
  rw [trimEnd, ← List.map_reverse, dropWhile_upper caseBlind_isBlank, ← List.map_reverse, trimEnd]

theorem trim_upper (cs : List Char) : trim (cs.map Char.toUpper) = (trim cs).map Char.toUpper := by
  rw [trim, trimEnd_upper, trimStart, dropWhile_upper caseBlind_isBlank, trim, trimStart]

/-- Pieces between separators that are no letters are the same in either case. -/
theorem splitOn_upper {separator : Char} (h : separator.isAlpha = false) (cs : List Char) :
    (cs.map Char.toUpper).splitOn separator =
      (cs.splitOn separator).map (List.map Char.toUpper) := by
  induction cs with
  | nil => rfl
  | cons c rest ih =>
    rw [List.map_cons, List.splitOn_cons_eq_if_modifyHead, List.splitOn_cons_eq_if_modifyHead, ih]
    have hc := caseBlind_eq h c
    simp only at hc
    rw [hc]
    split
    · rfl
    · cases rest.splitOn separator <;> rfl

/-! ## 3. Numerals -/

theorem digit?_comp_toUpper (radix : Nat) : digit? radix ∘ Char.toUpper = digit? radix := by
  funext c
  simp only [Function.comp_apply, digit?, digitValue?_toUpper]

theorem ofDigits?_upper (radix : Nat) (cs : List Char) :
    ofDigits? radix (cs.map Char.toUpper) = ofDigits? radix cs := by
  rw [ofDigits?, ofDigits?, List.isEmpty_map, List.mapM_map, digit?_comp_toUpper]

/-- A letter that marks a radix does so in either case. -/
theorem mem_markLetters_of_toUpper {c : Char} (h : c.toUpper ∈ markLetters) : c ∈ markLetters := by
  have hlower : ∀ mark ∈ markLetters, mark.toLower ∈ markLetters := by
    simp [markLetters]
  rcases eq_or_eq_toLower_of_toUpper (rfl : c.toUpper = c.toUpper) with hc | hc
  · exact hc ▸ h
  · exact hc ▸ hlower _ h

/-- A mark may be written in either case. -/
theorem splitMark_upper (marks : Marks) (cs : List Char) :
    splitMark marks (cs.map Char.toUpper) =
      ((splitMark marks cs).1, (splitMark marks cs).2.map Char.toUpper) := by
  by_cases h : ∃ mark ∈ markLetters, ∃ digits, cs = '0' :: mark :: digits
  · obtain ⟨mark, hmark, digits, rfl⟩ := h
    simp only [markLetters, List.mem_cons, List.not_mem_nil, or_false] at hmark
    rcases hmark with rfl | rfl | rfl | rfl
    · rfl
    · rfl
    · cases marks <;> rfl
    · cases marks <;> rfl
  · have hplain : ∀ mark ∈ markLetters, ∀ digits, cs ≠ '0' :: mark :: digits :=
      fun mark hmark digits hcs => h ⟨mark, hmark, digits, hcs⟩
    have hupper : ∀ mark ∈ markLetters, ∀ digits,
        cs.map Char.toUpper ≠ '0' :: mark :: digits := by
      rintro mark hmark digits hcs
      obtain ⟨zero, rest, rfl, hzero, hrest⟩ := List.map_eq_cons_iff.mp hcs
      obtain ⟨letter, rest, rfl, rfl, -⟩ := List.map_eq_cons_iff.mp hrest
      rw [toUpper_eq_iff (by decide)] at hzero
      subst hzero
      exact hplain letter (mem_markLetters_of_toUpper hmark) rest rfl
    rw [splitMark_of_unmarked marks hplain, splitMark_of_unmarked marks hupper]

/-- **A numeral has one value in either case.** -/
theorem numeral?_upper (marks : Marks) (cs : List Char) :
    numeral? marks (cs.map Char.toUpper) = numeral? marks cs := by
  rw [numeral?, numeral?, splitMark_upper, ofDigits?_upper]

theorem numeralBelow?_upper (bound : Nat) (marks : Marks) (cs : List Char) :
    numeralBelow? bound marks (cs.map Char.toUpper) = numeralBelow? bound marks cs := by
  rw [numeralBelow?, numeralBelow?, numeral?_upper]

end Text

/-! ## 4. Fragments -/

namespace Fragment

open Text

/-- A fragment in upper case. -/
def upper (f : Fragment) : Fragment := ⟨f.start, f.chars.map Char.toUpper⟩

@[simp] theorem chars_upper (f : Fragment) : f.upper.chars = f.chars.map Char.toUpper := rfl

theorem head?_upper_iff {f : Fragment} {c : Char} (hc : c.isAlpha = false) :
    f.upper.chars.head? = some c ↔ f.chars.head? = some c := by
  simp only [chars_upper, List.head?_map, Option.map_eq_some_iff, toUpper_eq_iff hc,
    exists_eq_right]

@[simp] theorem text_upper (f : Fragment) : f.upper.text = Text.upper f.text :=
  ofList_upper f.chars

@[simp] theorem span_upper (f : Fragment) : f.upper.span = f.span := by
  simp [span, upper, byteWidth_upper]

@[simp] theorem stop_upper (f : Fragment) : f.upper.stop = f.stop := by
  simp [stop, upper, byteWidth_upper]

@[simp] theorem isEmpty_upper (f : Fragment) : f.upper.isEmpty = f.isEmpty := by
  simp [isEmpty]

theorem takeWhile_upper {p : Char → Bool} (h : CaseBlind p) (f : Fragment) :
    f.upper.takeWhile p = (f.takeWhile p).upper := by
  rw [takeWhile, chars_upper, Text.takeWhile_upper h]
  rfl

theorem dropWhile_upper {p : Char → Bool} (h : CaseBlind p) (f : Fragment) :
    f.upper.dropWhile p = (f.dropWhile p).upper := by
  rw [dropWhile, chars_upper, Text.takeWhile_upper h, Text.dropWhile_upper h, byteWidth_upper]
  rfl

theorem trimStart_upper (f : Fragment) : f.upper.trimStart = f.trimStart.upper :=
  dropWhile_upper caseBlind_isBlank f

theorem trim_upper (f : Fragment) : f.upper.trim = f.trim.upper := by
  have hend : f.upper.trimEnd = f.trimEnd.upper := by
    rw [trimEnd, chars_upper, Text.trimEnd_upper]
    rfl
  rw [trim, hend, trimStart_upper, trim]

theorem splitFirst?_upper {p : Char → Bool} (h : CaseBlind p) (f : Fragment) :
    f.upper.splitFirst? p = (f.splitFirst? p).map (Prod.map upper upper) := by
  rw [splitFirst?, takeWhile_upper h.not, chars_upper, Text.dropWhile_upper h.not, splitFirst?]
  cases f.chars.dropWhile fun c => !p c with
  | nil => rfl
  | cons c after =>
    rw [List.map_cons]
    simp only [stop_upper, utf8Size_toUpper]
    rfl

theorem place_upper (separator : Char) (start : Nat) (pieces : List (List Char)) :
    place separator start (pieces.map (List.map Char.toUpper)) =
      (place separator start pieces).map upper := by
  induction pieces generalizing start with
  | nil => rfl
  | cons piece rest ih =>
    rw [List.map_cons, place, byteWidth_upper, ih]
    rfl

theorem splitOn_upper {separator : Char} (h : separator.isAlpha = false) (f : Fragment) :
    f.upper.splitOn separator = (f.splitOn separator).map upper := by
  rw [splitOn, chars_upper, Text.splitOn_upper h, place_upper]
  rfl

end Fragment
end PredicatedCpu

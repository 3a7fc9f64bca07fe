/-
# What a numeral denotes

A reader of numerals goes through the characters from left to right and keeps a running value.  What
a numeral denotes can be said without that: every character is a digit of the radix, and the number
is the sum of the digits, each with the power of the radix that belongs to its place.  Numerals may
be of any length, and nothing here bounds their values.

* `IsDigit`: the digits, by a table;
* `DigitsDenote`: what a run of digits denotes, and `ofDigits?_eq_some_iff`;
* `Denotes`: what a numeral denotes, with its radix mark, and `numeral?_eq_some_iff`;
* `numeralBelow?_eq_some_iff`: a reader with a bound reads the numerals below it;
* `SignedDenotes`: the same behind an optional minus sign.
-/
import Mathlib.Data.List.Forall2
import Mathlib.Data.List.Induction
import Mathlib.Data.Nat.Digits.Defs
import PredicatedCpu.Proofs.Text.Cutting
import PredicatedCpu.Proofs.Text.Written

namespace PredicatedCpu
namespace Text

/-! ## 1. Digits -/

/-- The digits and what they count.  Letters count on from ten, in either case. -/
def digitTable : List (Char × Nat) :=
  [('0', 0), ('1', 1), ('2', 2), ('3', 3), ('4', 4), ('5', 5), ('6', 6), ('7', 7), ('8', 8),
    ('9', 9), ('a', 10), ('A', 10), ('b', 11), ('B', 11), ('c', 12), ('C', 12), ('d', 13),
    ('D', 13), ('e', 14), ('E', 14), ('f', 15), ('F', 15)]

/-- Whether a character is a **digit** of a radix and counts `value`. -/
def IsDigit (radix : Nat) (c : Char) (value : Nat) : Prop :=
  (c, value) ∈ digitTable ∧ value < radix

/-- The digits are ASCII characters, and all of these can be gone through. -/
theorem digitValue?_eq_some_iff {c : Char} {value : Nat} (h : value < 16) :
    digitValue? c = some value ↔ (c, value) ∈ digitTable := by
  constructor
  · intro hvalue
    have hascii : c.toNat < 128 := by
      have hle : ∀ d : Char, c ≤ d → c.toNat ≤ d.toNat := fun d hd => hd
      unfold digitValue? at hvalue
      split at hvalue
      · rename_i hdigit
        exact Nat.lt_of_le_of_lt (hle _ hdigit.2) (by decide)
      · split at hvalue
        · rename_i hlower
          exact Nat.lt_of_le_of_lt (hle _ hlower.2) (by decide)
        · split at hvalue
          · rename_i hupper
            exact Nat.lt_of_le_of_lt (hle _ hupper.2) (by decide)
          · cases hvalue
    have hall : ∀ n < 128, ∀ v ∈ digitValue? (Char.ofNat n), v < 16 →
        (Char.ofNat n, v) ∈ digitTable := by decide +kernel
    have hmem := hall c.toNat hascii value
    rw [Char.ofNat_toNat] at hmem
    exact hmem hvalue h
  · intro hmem
    have hall : ∀ p ∈ digitTable, digitValue? p.1 = some p.2 := by decide
    exact hall _ hmem

theorem digit?_eq_some_iff {radix : Nat} (hradix : radix ≤ 16) {c : Char} {value : Nat} :
    digit? radix c = some value ↔ IsDigit radix c value := by
  rw [digit?, Option.filter_eq_some_iff, decide_eq_true_eq, IsDigit]
  constructor
  · rintro ⟨hvalue, hlt⟩
    exact ⟨(digitValue?_eq_some_iff (by omega)).mp hvalue, hlt⟩
  · rintro ⟨hmem, hlt⟩
    exact ⟨(digitValue?_eq_some_iff (by omega)).mpr hmem, hlt⟩

/-! ## 2. Runs of digits -/

/-- What a run of digits **denotes**: the sum of the digits, each times the power of the radix for
its place, and the last one counts least. -/
def DigitsDenote (radix : Nat) (cs : List Char) (value : Nat) : Prop :=
  cs ≠ [] ∧ ∃ digits, List.Forall₂ (IsDigit radix) cs digits ∧
    value = Nat.ofDigits radix digits.reverse

/-- The running value of a reader ends as the sum of the digits.  The induction is on the digits,
the last one first, as the reader leaves it. -/
theorem ofDigitValues_eq_ofDigits (radix : Nat) (digits : List Nat) :
    ofDigitValues radix digits = Nat.ofDigits radix digits.reverse := by
  induction digits using List.reverseRecOn with
  | nil => rfl
  | append_singleton front digit ih =>
    rw [ofDigitValues_append, ih, List.reverse_append, List.reverse_singleton,
      List.singleton_append, Nat.ofDigits_cons, Nat.mul_comm, Nat.add_comm]

/-- A reader of every character reads a list if each character is read. -/
theorem mapM_eq_some_iff {α β : Type} {f : α → Option β} {as : List α} {bs : List β} :
    as.mapM f = some bs ↔ List.Forall₂ (fun a b => f a = some b) as bs := by
  induction as generalizing bs with
  | nil => simp [eq_comm]
  | cons a as ih =>
    rw [List.mapM_cons, List.forall₂_cons_left_iff]
    constructor
    · intro h
      obtain ⟨b, hb, h⟩ := Option.bind_eq_some_iff.mp h
      obtain ⟨bs', hbs', h⟩ := Option.bind_eq_some_iff.mp h
      exact ⟨b, bs', hb, ih.mp hbs', (Option.some.inj h).symm⟩
    · rintro ⟨b, bs', hb, hbs', rfl⟩
      simp [hb, ih.mpr hbs']

/-- **A run of digits** is read as what it denotes, and nothing else is read. -/
theorem ofDigits?_eq_some_iff {radix : Nat} (hradix : radix ≤ 16) {cs : List Char} {value : Nat} :
    ofDigits? radix cs = some value ↔ DigitsDenote radix cs value := by
  have hdigit : (fun c v => digit? radix c = some v) = IsDigit radix := by
    funext c v
    exact propext (digit?_eq_some_iff hradix)
  rw [ofDigits?, DigitsDenote]
  cases cs with
  | nil => simp
  | cons c rest =>
    rw [if_neg (by simp), Option.map_eq_some_iff]
    simp only [mapM_eq_some_iff, hdigit, ofDigitValues_eq_ofDigits]
    constructor
    · rintro ⟨digits, hdigits, rfl⟩
      exact ⟨List.cons_ne_nil _ _, digits, hdigits, rfl⟩
    · rintro ⟨-, digits, hdigits, rfl⟩
      exact ⟨digits, hdigits, rfl⟩

/-! ## 3. Numerals -/

/-- What a numeral **denotes**.  Without a mark its digits are decimal, behind `0x` they are
hexadecimal, and behind `0b`, where that is admitted, they are binary. -/
def Denotes (marks : Marks) (cs : List Char) (value : Nat) : Prop :=
  DigitsDenote 10 cs value ∨
    (∃ mark digits, (mark = 'x' ∨ mark = 'X') ∧ cs = '0' :: mark :: digits ∧
      DigitsDenote 16 digits value) ∨
    marks = .all ∧ ∃ mark digits, (mark = 'b' ∨ mark = 'B') ∧ cs = '0' :: mark :: digits ∧
      DigitsDenote 2 digits value

/-- Every character of a run is a digit. -/
theorem DigitsDenote.exists_digit {radix : Nat} {cs : List Char} {value : Nat}
    (h : DigitsDenote radix cs value) : ∀ c ∈ cs, ∃ digit, IsDigit radix c digit := by
  obtain ⟨-, digits, hdigits, -⟩ := h
  induction hdigits with
  | nil => simp
  | cons hdigit _ ih => exact List.forall_mem_cons.mpr ⟨⟨_, hdigit⟩, ih⟩

/-- So the decimal ones are what core takes for digits. -/
theorem DigitsDenote.isDigit {cs : List Char} {value : Nat} (h : DigitsDenote 10 cs value) :
    ∀ c ∈ cs, c.isDigit = true := by
  intro c hc
  obtain ⟨digit, hmem, hlt⟩ := h.exists_digit c hc
  have hall : ∀ p ∈ digitTable, p.2 < 10 → p.1.isDigit = true := by decide
  exact hall _ hmem hlt

/-- **A numeral** is read as what it denotes, and nothing else is read. -/
theorem numeral?_eq_some_iff {marks : Marks} {cs : List Char} {value : Nat} :
    numeral? marks cs = some value ↔ Denotes marks cs value := by
  constructor
  · intro h
    unfold numeral? splitMark at h
    split at h
    · exact .inr (.inl ⟨'x', _, .inl rfl, rfl, (ofDigits?_eq_some_iff (by decide)).mp h⟩)
    · exact .inr (.inl ⟨'X', _, .inr rfl, rfl, (ofDigits?_eq_some_iff (by decide)).mp h⟩)
    · split at h
      · rename_i hall
        exact .inr (.inr ⟨hall, 'b', _, .inl rfl, rfl, (ofDigits?_eq_some_iff (by decide)).mp h⟩)
      · exact .inl ((ofDigits?_eq_some_iff (by decide)).mp h)
    · split at h
      · rename_i hall
        exact .inr (.inr ⟨hall, 'B', _, .inr rfl, rfl, (ofDigits?_eq_some_iff (by decide)).mp h⟩)
      · exact .inl ((ofDigits?_eq_some_iff (by decide)).mp h)
    · exact .inl ((ofDigits?_eq_some_iff (by decide)).mp h)
  · rintro (hdecimal | ⟨mark, digits, hmark, rfl, hhex⟩ | ⟨rfl, mark, digits, hmark, rfl, hbinary⟩)
    · rw [numeral?, splitMark_of_digits marks hdecimal.isDigit]
      exact (ofDigits?_eq_some_iff (show 10 ≤ 16 by decide)).mpr hdecimal
    · have hvalue := (ofDigits?_eq_some_iff (show 16 ≤ 16 by decide)).mpr hhex
      rcases hmark with rfl | rfl <;> exact hvalue
    · have hvalue := (ofDigits?_eq_some_iff (show 2 ≤ 16 by decide)).mpr hbinary
      rcases hmark with rfl | rfl <;> exact hvalue

/-- **A reader with a bound** reads the numerals that denote less, of whatever length. -/
theorem numeralBelow?_eq_some_iff {bound : Nat} {marks : Marks} {cs : List Char} {value : Nat} :
    numeralBelow? bound marks cs = some value ↔ Denotes marks cs value ∧ value < bound := by
  rw [numeralBelow?, Option.filter_eq_some_iff, numeral?_eq_some_iff, decide_eq_true_eq]

theorem numeralBelow?_of_denotes {marks : Marks} {cs : List Char} {value : Nat}
    (h : Denotes marks cs value) (bound : Nat) :
    numeralBelow? bound marks cs = if value < bound then some value else none := by
  rw [numeralBelow?, numeral?_eq_some_iff.mpr h, Option.filter_some]
  simp only [decide_eq_true_eq]

/-- A numeral denotes one number. -/
theorem Denotes.unique {marks : Marks} {cs : List Char} {value value' : Nat}
    (h : Denotes marks cs value) (h' : Denotes marks cs value') : value = value' :=
  Option.some.inj ((numeral?_eq_some_iff.mpr h).symm.trans (numeral?_eq_some_iff.mpr h'))

/-- The characters of numerals. -/
def numeralChars : List Char := digitTable.map Prod.fst ++ markLetters

theorem DigitsDenote.mem_numeralChars {radix : Nat} {cs : List Char} {value : Nat}
    (h : DigitsDenote radix cs value) : ∀ c ∈ cs, c ∈ numeralChars := by
  intro c hc
  obtain ⟨digit, hmem, -⟩ := h.exists_digit c hc
  exact List.mem_append_left _ (List.mem_map.mpr ⟨_, hmem, rfl⟩)

/-- Nothing else is in a numeral: no blank, and no sign. -/
theorem Denotes.mem_numeralChars {marks : Marks} {cs : List Char} {value : Nat}
    (h : Denotes marks cs value) : ∀ c ∈ cs, c ∈ numeralChars := by
  rcases h with h | ⟨mark, digits, hmark, rfl, h⟩ | ⟨-, mark, digits, hmark, rfl, h⟩
  · exact h.mem_numeralChars
  · refine List.forall_mem_cons.mpr ⟨by decide, List.forall_mem_cons.mpr ⟨?_, h.mem_numeralChars⟩⟩
    rcases hmark with rfl | rfl <;> decide
  · refine List.forall_mem_cons.mpr ⟨by decide, List.forall_mem_cons.mpr ⟨?_, h.mem_numeralChars⟩⟩
    rcases hmark with rfl | rfl <;> decide

/-- A numeral has no sign. -/
theorem Denotes.ne_minus {marks : Marks} {cs : List Char} {value : Nat} (h : Denotes marks cs value)
    (digits : List Char) : cs ≠ '-' :: digits := by
  rintro rfl
  have hmem := h.mem_numeralChars '-' List.mem_cons_self
  revert hmem
  decide

/-! ## 4. Signs -/

/-- What a numeral behind an optional minus sign denotes. -/
def SignedDenotes (cs : List Char) (value : Int) : Prop :=
  (∃ magnitude : Nat, Denotes .all cs magnitude ∧ value = magnitude) ∨
    ∃ digits, ∃ magnitude : Nat, cs = '-' :: digits ∧ Denotes .all digits magnitude ∧
      value = -magnitude

/-- There is no blank in it, so there is none to trim off. -/
theorem SignedDenotes.trim {cs : List Char} {value : Int} (h : SignedDenotes cs value) :
    Text.trim cs = cs := by
  have hchars : numeralChars.all (fun c => !isBlank c) = true := by decide
  have hblank : ∀ c ∈ numeralChars, isBlank c = false := by simpa using hchars
  refine (Tight.of_solid ?_).trim
  rcases h with ⟨magnitude, h, -⟩ | ⟨digits, magnitude, rfl, h, -⟩
  · exact fun c hc => hblank c (h.mem_numeralChars c hc)
  · exact List.forall_mem_cons.mpr ⟨by decide, fun c hc => hblank c (h.mem_numeralChars c hc)⟩

end Text
end PredicatedCpu

/-
# What an input value is taken for

An input value is read in two steps, first the sign and then a numeral, and then it is cut to a word.
All that remains of it is the number that it denotes, modulo `2 ^ 16`, and only the size of the
number decides whether it is taken at all.

* `inputValue?_of_signedDenotes`: an input value is taken for its number modulo `2 ^ 16`;
* `exists_signedDenotes_of_inputValue?`: nothing is taken that denotes no number;
* `inputValue?_eq_some_iff`: which texts are taken, and for which words.
-/
import PredicatedCpu.Machine.InputValue
import PredicatedCpu.Proofs.Text.Numerals

namespace PredicatedCpu

/-- **An input value** is taken for the number that it denotes, modulo `2 ^ 16`, unless the number
has more than 63 bits. -/
theorem inputValue?_of_signedDenotes {text : String} {value : Int}
    (h : Text.SignedDenotes (Text.trim text.toList) value) :
    inputValue? text =
      if value.natAbs < 2 ^ 63 then some (BitVec.ofInt 16 value) else none := by
  unfold inputValue?
  rcases h with ⟨magnitude, hmagnitude, rfl⟩ | ⟨digits, magnitude, hcs, hmagnitude, rfl⟩
  · split
    · rename_i digits hcs
      exact absurd hcs (hmagnitude.ne_minus digits)
    · rw [Text.numeralBelow?_of_denotes hmagnitude, Int.natAbs_natCast, BitVec.ofInt_natCast]
      change Option.map Word.ofNat (if magnitude < 2 ^ 63 then _ else _) = _
      split <;> rfl
  · rw [hcs]
    simp only [Text.numeralBelow?_of_denotes hmagnitude, Int.natAbs_neg, Int.natAbs_natCast,
      BitVec.ofInt_neg, BitVec.ofInt_natCast]
    change Option.map _ (if magnitude < 2 ^ 63 then _ else _) = _
    split <;> rfl

/-- What is taken for a word denotes a number.  A second sign, or one behind a radix mark, is not
among the digits of a numeral. -/
theorem exists_signedDenotes_of_inputValue? {text : String} {w : Word}
    (h : inputValue? text = some w) :
    ∃ value, Text.SignedDenotes (Text.trim text.toList) value := by
  unfold inputValue? at h
  split at h
  · rename_i digits hcs
    obtain ⟨magnitude, hmagnitude, -⟩ := Option.map_eq_some_iff.mp h
    obtain ⟨hdenotes, -⟩ := Text.numeralBelow?_eq_some_iff.mp hmagnitude
    exact ⟨-magnitude, .inr ⟨digits, magnitude, hcs, hdenotes, rfl⟩⟩
  · obtain ⟨magnitude, hmagnitude, -⟩ := Option.map_eq_some_iff.mp h
    obtain ⟨hdenotes, -⟩ := Text.numeralBelow?_eq_some_iff.mp hmagnitude
    exact ⟨magnitude, .inl ⟨magnitude, hdenotes, rfl⟩⟩

/-- The word of a number, by what it counts. -/
theorem Word.eq_ofInt_iff {w : Word} {value : Int} :
    BitVec.ofInt 16 value = w ↔ (w.toNat : Int) = value % 2 ^ 16 := by
  have hnonneg : 0 ≤ value % 2 ^ 16 := Int.emod_nonneg _ (by decide)
  have hword : ((BitVec.ofInt 16 value).toNat : Int) = value % 2 ^ 16 := by
    rw [BitVec.toNat_ofInt]
    exact Int.toNat_of_nonneg hnonneg
  constructor
  · rintro rfl
    exact hword
  · intro h
    exact BitVec.eq_of_toNat_eq (Int.ofNat.inj (hword.trans h.symm))

/-- **Which texts are input values, and for which words**: just those that have, between blanks, a
numeral of whatever length behind an optional minus sign, the magnitude of which has at most 63
bits; and such a text is taken for the word that counts its number modulo `2 ^ 16`. -/
theorem inputValue?_eq_some_iff {text : String} {w : Word} :
    inputValue? text = some w ↔
      ∃ (front body back : List Char) (value : Int), text.toList = front ++ body ++ back ∧
        (∀ c ∈ front, Text.isBlank c = true) ∧ (∀ c ∈ back, Text.isBlank c = true) ∧
        Text.SignedDenotes body value ∧ value.natAbs ≤ 2 ^ 63 - 1 ∧
        (w.toNat : Int) = value % 2 ^ 16 := by
  have hsize : ∀ value : Int, value.natAbs ≤ 2 ^ 63 - 1 ↔ value.natAbs < 2 ^ 63 :=
    fun value => by omega
  constructor
  · intro h
    obtain ⟨value, hvalue⟩ := exists_signedDenotes_of_inputValue? h
    obtain ⟨front, back, htext, hfront, hback⟩ := Text.exists_blanks_around_trim text.toList
    rw [inputValue?_of_signedDenotes hvalue] at h
    split at h
    · rename_i hlt
      exact ⟨front, _, back, value, htext, hfront, hback, hvalue, (hsize value).mpr hlt,
        Word.eq_ofInt_iff.mp (Option.some.inj h)⟩
    · cases h
  · rintro ⟨front, body, back, value, htext, hfront, hback, hvalue, hle, hw⟩
    -- A numeral has no blanks, so trimming leaves just the numeral.
    have htight : Text.Tight body := hvalue.trim ▸ Text.tight_trim body
    have htrim : Text.trim text.toList = body := by
      rw [htext, htight.trim_of_blanks_around hfront hback]
    rw [inputValue?_of_signedDenotes (htrim.symm ▸ hvalue), if_pos ((hsize value).mp hle),
      Word.eq_ofInt_iff.mpr hw]

/-- Blanks of another alphabet and leading zeros do not count.  The greatest magnitude of 63 bits is
taken modulo `2 ^ 16`; one more is not taken, and neither is a text with two signs. -/
example : inputValue? "\u3000-0x00007FFFFFFFFFFFFFFF\t" = some 1 ∧
    inputValue? "-9223372036854775808" = none ∧ inputValue? "--1" = none := by
  decide

end PredicatedCpu

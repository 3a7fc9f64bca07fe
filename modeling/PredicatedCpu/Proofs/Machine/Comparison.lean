/-
# What a comparison tells

A comparison keeps four bits of the difference of two words, and a condition asks a question
about these bits.  This module says what is asked of the words themselves: with the unsigned
order in the carry, the signed order in the sign and the overflow together, and equality in
the zero flag.

* `Condition.Relates`: the relation between two words that a condition stands for;
* `holds_ofSub_iff`: the flags of `a - b` answer a condition with yes exactly when `a` and `b`
  are in its relation.
-/
import PredicatedCpu.Flags

namespace PredicatedCpu

/-! ## 1. The relations -/

/-- The relation between two words that a condition asks for after they were compared.
`toNat` reads a word as an unsigned number and `toInt` as one in two's complement. -/
def Condition.Relates (a b : Word) : Condition → Prop
  | .eq => a = b
  | .ne => a ≠ b
  | .cs => b.toNat ≤ a.toNat
  | .cc => a.toNat < b.toNat
  | .mi => (a - b).getLsbD 15 = true
  | .pl => (a - b).getLsbD 15 = false
  | .vs => a.toInt - b.toInt < -32768 ∨ 32767 < a.toInt - b.toInt
  | .vc => -32768 ≤ a.toInt - b.toInt ∧ a.toInt - b.toInt ≤ 32767
  | .hi => b.toNat < a.toNat
  | .ls => a.toNat ≤ b.toNat
  | .ge => b.toInt ≤ a.toInt
  | .lt => a.toInt < b.toInt
  | .gt => b.toInt < a.toInt
  | .le => a.toInt ≤ b.toInt

instance (a b : Word) : DecidablePred (Condition.Relates a b)
  | .eq => inferInstanceAs (Decidable (a = b))
  | .ne => inferInstanceAs (Decidable (a ≠ b))
  | .cs => inferInstanceAs (Decidable (b.toNat ≤ a.toNat))
  | .cc => inferInstanceAs (Decidable (a.toNat < b.toNat))
  | .mi => inferInstanceAs (Decidable ((a - b).getLsbD 15 = true))
  | .pl => inferInstanceAs (Decidable ((a - b).getLsbD 15 = false))
  | .vs => inferInstanceAs (Decidable (a.toInt - b.toInt < -32768 ∨ 32767 < a.toInt - b.toInt))
  | .vc => inferInstanceAs (Decidable (-32768 ≤ a.toInt - b.toInt ∧ a.toInt - b.toInt ≤ 32767))
  | .hi => inferInstanceAs (Decidable (b.toNat < a.toNat))
  | .ls => inferInstanceAs (Decidable (a.toNat ≤ b.toNat))
  | .ge => inferInstanceAs (Decidable (b.toInt ≤ a.toInt))
  | .lt => inferInstanceAs (Decidable (a.toInt < b.toInt))
  | .gt => inferInstanceAs (Decidable (b.toInt < a.toInt))
  | .le => inferInstanceAs (Decidable (a.toInt ≤ b.toInt))

/-! ## 2. The flags, one by one -/

/-- A word is below the middle and counts as it is, or it has its sign bit set and counts from
below. -/
theorem Word.sign_cases (w : Word) :
    (w.toNat < 32768 ∧ w.msb = false ∧ w.toInt = w.toNat) ∨
      (32768 ≤ w.toNat ∧ w.msb = true ∧ w.toInt = w.toNat - 65536) := by
  have hmsb := BitVec.msb_eq_decide w
  have hint := BitVec.toInt_eq_toNat_cond w
  by_cases h : w.toNat < 32768
  · refine .inl ⟨h, ?_, ?_⟩
    · rw [hmsb]
      exact decide_eq_false (by omega)
    · rw [hint, if_pos (by omega)]
  · refine .inr ⟨by omega, ?_, ?_⟩
    · rw [hmsb]
      exact decide_eq_true (by omega)
    · rw [hint, if_neg (by omega)]
      omega

/-- The difference as a number: one turn is added where something had to be borrowed. -/
theorem Word.toNat_sub_cases (a b : Word) :
    (b.toNat ≤ a.toNat ∧ (a - b).toNat = a.toNat - b.toNat) ∨
      (a.toNat < b.toNat ∧ (a - b).toNat = a.toNat + 65536 - b.toNat) := by
  have hsub := BitVec.toNat_sub a b
  omega

namespace Flags

theorem zero_ofSub (a b : Word) : (ofSub a b).zero = true ↔ a = b := by
  have hsub := a.toNat_sub_cases b
  rw [ofSub, beq_iff_eq, ← BitVec.toNat_inj, ← BitVec.toNat_inj]
  change (a - b).toNat = 0 ↔ a.toNat = b.toNat
  omega

theorem carry_ofSub (a b : Word) : (ofSub a b).carry = true ↔ b.toNat ≤ a.toNat := by
  simp [ofSub]

theorem negative_ofSub (a b : Word) : (ofSub a b).negative = (a - b).getLsbD 15 := rfl

/-- The overflow flag is set exactly when the difference of the signed numbers is no word. -/
theorem overflow_ofSub (a b : Word) :
    (ofSub a b).overflow = true ↔
      a.toInt - b.toInt < -32768 ∨ 32767 < a.toInt - b.toInt := by
  have hsub := a.toNat_sub_cases b
  simp only [ofSub]
  -- the signs of the two words and of their difference decide
  rcases a.sign_cases with ⟨ha, hma, hia⟩ | ⟨ha, hma, hia⟩ <;>
    rcases b.sign_cases with ⟨hb, hmb, hib⟩ | ⟨hb, hmb, hib⟩ <;>
      rcases (a - b).sign_cases with ⟨hd, hmd, -⟩ | ⟨hd, hmd, -⟩ <;>
        simp only [hma, hmb, hmd, hia, hib] <;> simp <;> omega

/-- **The signed order.**  The sign of the difference is the sign of the true difference, unless
it overflowed. -/
theorem negative_ne_overflow_ofSub (a b : Word) :
    ((ofSub a b).negative != (ofSub a b).overflow) = true ↔ a.toInt < b.toInt := by
  have hsub := a.toNat_sub_cases b
  simp only [ofSub]
  rcases a.sign_cases with ⟨ha, hma, hia⟩ | ⟨ha, hma, hia⟩ <;>
    rcases b.sign_cases with ⟨hb, hmb, hib⟩ | ⟨hb, hmb, hib⟩ <;>
      rcases (a - b).sign_cases with ⟨hd, hmd, -⟩ | ⟨hd, hmd, -⟩ <;>
        simp only [hma, hmb, hmd, hia, hib] <;> simp <;> omega

end Flags

/-! ## 3. The conditions -/

/-- **What a condition means** after a comparison. -/
theorem Condition.holds_ofSub_iff (condition : Condition) (a b : Word) :
    condition.holds (Flags.ofSub a b) = true ↔ condition.Relates a b := by
  have hcarry := Flags.carry_ofSub a b
  have hnegative := Flags.negative_ofSub a b
  have hoverflow := Flags.overflow_ofSub a b
  have hsigned := Flags.negative_ne_overflow_ofSub a b
  -- equality is read as unsigned or as signed, as the order beside it asks
  have hnat : (Flags.ofSub a b).zero = true ↔ a.toNat = b.toNat :=
    (Flags.zero_ofSub a b).trans BitVec.toNat_inj.symm
  have hint : (Flags.ofSub a b).zero = true ↔ a.toInt = b.toInt :=
    (Flags.zero_ofSub a b).trans BitVec.toInt_inj.symm
  have hagree : (Flags.ofSub a b).negative = (Flags.ofSub a b).overflow ↔
      ¬ a.toInt < b.toInt := by
    rw [← hsigned, bne_iff_ne, ne_eq, Classical.not_not]
  cases condition with
  | eq => exact Flags.zero_ofSub a b
  | ne =>
    rw [holds, Bool.not_eq_true', ← Bool.not_eq_true, Flags.zero_ofSub]
    rfl
  | cs => exact hcarry
  | cc =>
    rw [holds, Bool.not_eq_true', ← Bool.not_eq_true, hcarry]
    exact Nat.not_le
  | mi => rw [holds, hnegative, Relates]
  | pl => rw [holds, hnegative, Relates, Bool.not_eq_true']
  | vs => exact hoverflow
  | vc =>
    rw [holds, Bool.not_eq_true', ← Bool.not_eq_true, hoverflow, Relates]
    omega
  | hi =>
    rw [holds, Bool.and_eq_true, Bool.not_eq_true', ← Bool.not_eq_true, hcarry, hnat, Relates]
    omega
  | ls =>
    rw [holds, Bool.or_eq_true, Bool.not_eq_true', ← Bool.not_eq_true, hcarry, hnat, Relates]
    omega
  | ge =>
    rw [holds, beq_iff_eq, hagree, Relates]
    exact Int.not_lt
  | lt => exact hsigned
  | gt =>
    rw [holds, Bool.and_eq_true, Bool.not_eq_true', ← Bool.not_eq_true, hint, beq_iff_eq, hagree,
      Relates]
    omega
  | le =>
    rw [holds, Bool.or_eq_true, hint, hsigned, Relates]
    omega

end PredicatedCpu

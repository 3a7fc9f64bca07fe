/-
# What an instruction word has room for

Addresses and immediates of instructions are whole words, but an instruction word keeps nine
bits of an address and three of an immediate.  This module says which instructions lose nothing
in their word, and what is left of the others.

* `Instruction.Fits`: every field is in range, and `P0` is not a destination.  Whatever is read
  from a source line or decoded from memory is of this kind;
* `Instruction.narrow`: the instruction that is left when each field keeps its low bits;
* `narrow_eq_self`: nothing is lost exactly where nothing was too wide.
-/
import Mathlib.Algebra.Group.Nat.Defs
import PredicatedCpu.Instruction.Encoding

namespace PredicatedCpu

/-! ## 1. Masks -/

theorem Word.toNat_and_low (w : Word) (n : Nat) (hn : n ≤ 16) :
    (w &&& BitVec.ofNat 16 (2 ^ n - 1)).toNat = w.toNat % 2 ^ n := by
  have hlt : 2 ^ n - 1 < 2 ^ 16 := by
    have := Nat.pow_le_pow_right (n := 2) (by decide) hn
    have := Nat.two_pow_pos n
    omega
  rw [BitVec.toNat_and, BitVec.toNat_ofNat, Nat.mod_eq_of_lt hlt, Nat.and_two_pow_sub_one_eq_mod]

theorem Word.toNat_and_address (w : Word) : (w &&& 0x1FF).toNat = w.toNat % 512 :=
  w.toNat_and_low 9 (by decide)

theorem Word.toNat_and_immediate (w : Word) : (w &&& 7).toNat = w.toNat % 8 :=
  w.toNat_and_low 3 (by decide)

theorem Word.toNat_ofNat (n : Nat) : (Word.ofNat n).toNat = n % 2 ^ 16 := BitVec.toNat_ofNat ..

theorem Word.toNat_ofNat_of_lt {n : Nat} (h : n < 2 ^ 16) : (Word.ofNat n).toNat = n := by
  rw [Word.toNat_ofNat, Nat.mod_eq_of_lt h]

theorem Word.ofNat_mod_address (w : Word) : Word.ofNat (w.toNat % 512) = w &&& 0x1FF := by
  apply BitVec.eq_of_toNat_eq
  rw [Word.toNat_ofNat_of_lt (by omega), Word.toNat_and_address]

theorem Word.ofNat_mod_immediate (w : Word) : Word.ofNat (w.toNat % 8) = w &&& 7 := by
  apply BitVec.eq_of_toNat_eq
  rw [Word.toNat_ofNat_of_lt (by omega), Word.toNat_and_immediate]

theorem Word.and_address_eq_self {w : Word} (h : w.toNat < 512) : w &&& 0x1FF = w := by
  apply BitVec.eq_of_toNat_eq
  rw [Word.toNat_and_address, Nat.mod_eq_of_lt h]

theorem Word.and_immediate_eq_self {w : Word} (h : w.toNat < 8) : w &&& 7 = w := by
  apply BitVec.eq_of_toNat_eq
  rw [Word.toNat_and_immediate, Nat.mod_eq_of_lt h]

/-! ## 2. Instructions that fit -/

/-- Whether an operand has three bits. -/
def Operand.Fits : Operand → Prop
  | .register _ => True
  | .immediate value => value.toNat < 8

/-- Whether every field of an operation is in range.  `P0` is out of range as a destination. -/
def Operation.Fits : Operation → Prop
  | .load address => address.toNat < memorySize
  | .store address => address.toNat < memorySize
  | .branch target => target.toNat < memorySize
  | .alu _ _ _ operand => operand.Fits
  | .compare _ operand => operand.Fits
  | .setPredicate _ dest => dest ≠ 0
  | .halt => True

/-- Whether an instruction **fits** in a word. -/
def Instruction.Fits (i : Instruction) : Prop := i.operation.Fits

instance : DecidablePred Operand.Fits
  | .register _ => inferInstanceAs (Decidable True)
  | .immediate value => inferInstanceAs (Decidable (value.toNat < 8))

instance : DecidablePred Operation.Fits
  | .load address => inferInstanceAs (Decidable (address.toNat < memorySize))
  | .store address => inferInstanceAs (Decidable (address.toNat < memorySize))
  | .branch target => inferInstanceAs (Decidable (target.toNat < memorySize))
  | .alu _ _ _ operand => inferInstanceAs (Decidable operand.Fits)
  | .compare _ operand => inferInstanceAs (Decidable operand.Fits)
  | .setPredicate _ dest => inferInstanceAs (Decidable (dest ≠ 0))
  | .halt => inferInstanceAs (Decidable True)

instance (i : Instruction) : Decidable i.Fits := inferInstanceAs (Decidable i.operation.Fits)

/-! ## 3. What is left of the others -/

/-- An operand with the three low bits of an immediate. -/
def Operand.narrow : Operand → Operand
  | .register r => .register r
  | .immediate value => .immediate (value &&& 7)

/-- An operation with the nine low bits of an address and the three of an immediate. -/
def Operation.narrow : Operation → Operation
  | .load address => .load (address &&& 0x1FF)
  | .store address => .store (address &&& 0x1FF)
  | .branch target => .branch (target &&& 0x1FF)
  | .alu op dest source operand => .alu op dest source operand.narrow
  | .compare source operand => .compare source operand.narrow
  | .setPredicate condition dest => .setPredicate condition dest
  | .halt => .halt

/-- What an instruction word keeps of an instruction. -/
def Instruction.narrow (i : Instruction) : Instruction := ⟨i.predicate, i.operation.narrow⟩

theorem Operand.narrow_eq_self {operand : Operand} (h : operand.Fits) :
    operand.narrow = operand := by
  cases operand with
  | register r => rfl
  | immediate value => rw [Operand.narrow, Word.and_immediate_eq_self h]

theorem Operation.narrow_eq_self {op : Operation} (h : op.Fits) : op.narrow = op := by
  cases op with
  | load address => rw [Operation.narrow, Word.and_address_eq_self h]
  | store address => rw [Operation.narrow, Word.and_address_eq_self h]
  | branch target => rw [Operation.narrow, Word.and_address_eq_self h]
  | alu op dest source operand => rw [Operation.narrow, Operand.narrow_eq_self h]
  | compare source operand => rw [Operation.narrow, Operand.narrow_eq_self h]
  | setPredicate condition dest => rfl
  | halt => rfl

/-- An instruction that fits loses nothing. -/
theorem Instruction.narrow_eq_self {i : Instruction} (h : i.Fits) : i.narrow = i := by
  rw [Instruction.narrow, Operation.narrow_eq_self h]

end PredicatedCpu

/-
# Encoding and decoding are inverse

An instruction goes into a word and a tag and comes back as what is left of it, and a word
that can be decoded comes back as itself, up to the bits that its opcode does not read.  The
argument goes field by field: first the nine bits that the tag explains, then the word around
them.

* `decode_eq_ok_iff`: what it takes for a word to be an instruction;
* `decode_word`, `word_of_decode`: the two round trips;
* `Unreadable`: the ways of being no instruction, read off the bits of the word, each with the
  exclusion of those that are looked for before it.
-/
import PredicatedCpu.Proofs.Instruction.Fits

namespace PredicatedCpu

/-! ## 1. The nine bits of an operation -/

theorem Operand.field_lt (operand : Operand) : operand.field < 8 := by
  cases operand with
  | register r => exact r.isLt
  | immediate value => exact Nat.mod_lt _ (by decide)

theorem Operation.field_lt (op : Operation) : op.field < 512 := by
  cases op with
  | load address => exact Nat.mod_lt _ (by decide)
  | store address => exact Nat.mod_lt _ (by decide)
  | branch target => exact Nat.mod_lt _ (by decide)
  | alu op dest source operand =>
    have := operand.field_lt
    simp only [Operation.field]
    omega
  | compare source operand =>
    have := operand.field_lt
    simp only [Operation.field]
    omega
  | setPredicate condition dest =>
    have : condition.code < 14 := by cases condition <;> decide
    simp only [Operation.field]
    omega
  | halt => decide

/-- The bits of an operand's own width are all that is read of it. -/
theorem Operand.ofField_of_mod {tag : Tag} {operand : Operand}
    (htag : tag.isImmediate = true ↔ ∃ value, operand = .immediate value) (field : Nat)
    (hfield : field % 8 = operand.field) : Operand.ofField tag field = operand.narrow := by
  cases operand with
  | register r =>
    have hreg : tag.isImmediate = false := by
      rw [← Bool.not_eq_true, htag]
      rintro ⟨value, h⟩
      cases h
    have hr : Fin.ofNat 8 field = r := Fin.ext hfield
    rw [Operand.ofField, if_neg (by rw [hreg]; decide), hr, Operand.narrow]
  | immediate value =>
    have himm : tag.isImmediate = true := htag.mpr ⟨value, rfl⟩
    have hmod : field % 8 = value.toNat % 8 := hfield
    rw [Operand.ofField, if_pos himm, hmod, Word.ofNat_mod_immediate, Operand.narrow]

theorem Operation.isImmediate_tag_alu (op : AluOp) (dest source : Register)
    (operand : Operand) :
    (Operation.alu op dest source operand).tag.isImmediate = true ↔
      ∃ value, operand = .immediate value := by
  cases operand <;> cases op <;> simp [Operation.tag, Tag.isImmediate]

theorem Operation.isImmediate_tag_compare (source : Register) (operand : Operand) :
    (Operation.compare source operand).tag.isImmediate = true ↔
      ∃ value, operand = .immediate value := by
  cases operand <;> simp [Operation.tag, Tag.isImmediate]

/-- Every operation has a tag whose family it belongs to. -/
theorem Operation.admits_opcode (op : Operation) : op.tag.admits op.opcode = true := by
  cases op with
  | alu op dest source operand => cases operand <;> cases op <;> rfl
  | compare source operand => cases operand <;> rfl
  | _ => rfl

/-- **Reading the bits of an operation** gives what they keep of it. -/
theorem Operation.ofField_field {op : Operation} (h : ∀ condition, op ≠ .setPredicate condition 0) :
    Operation.ofField op.tag op.field op.opcode = .ok op.narrow := by
  cases op with
  | load address =>
    simp [Operation.opcode, Operation.ofField, Operation.field, Operation.narrow,
      Word.ofNat_mod_address]
  | store address =>
    simp [Operation.opcode, Operation.ofField, Operation.field, Operation.narrow,
      Word.ofNat_mod_address]
  | branch target =>
    simp [Operation.opcode, Operation.ofField, Operation.field, Operation.narrow,
      Word.ofNat_mod_address]
  | alu op dest source operand =>
    have hlt := operand.field_lt
    have hd : Fin.ofNat 8 ((dest.val * 64 + source.val * 8 + operand.field) / 64) = dest :=
      Fin.ext (by simp only [Fin.val_ofNat]; omega)
    have hs : Fin.ofNat 8 ((dest.val * 64 + source.val * 8 + operand.field) / 8) = source :=
      Fin.ext (by simp only [Fin.val_ofNat]; omega)
    have ho := Operand.ofField_of_mod (Operation.isImmediate_tag_alu op dest source operand)
      (dest.val * 64 + source.val * 8 + operand.field) (by omega)
    simp only [Operation.opcode, Operation.ofField, Operation.field, Operation.narrow, hd, hs, ho]
  | compare source operand =>
    have hlt := operand.field_lt
    have hs : Fin.ofNat 8 ((source.val * 8 + operand.field) / 8) = source :=
      Fin.ext (by simp only [Fin.val_ofNat]; omega)
    have ho := Operand.ofField_of_mod (Operation.isImmediate_tag_compare source operand)
      (source.val * 8 + operand.field) (by omega)
    simp only [Operation.opcode, Operation.ofField, Operation.field, Operation.narrow, hs, ho]
  | setPredicate condition dest =>
    have hc : condition.code < 14 := by cases condition <;> decide
    have hd : Fin.ofNat 4 ((dest.val * 128 + condition.code) / 128) = dest :=
      Fin.ext (by simp only [Fin.val_ofNat]; omega)
    have hm : (dest.val * 128 + condition.code) % 64 = condition.code := by omega
    have hne : dest ≠ 0 := fun e => h condition (by rw [e])
    simp only [Operation.opcode, Operation.ofField, Operation.field, Operation.narrow, hd, hm,
      if_neg hne, Condition.ofCode?_code]
  | halt => rfl

/-- The bits of nine that an opcode reads, the others cleared. -/
def Opcode.readBits (field : Nat) : Opcode → Nat
  | .cmp => field % 64
  | .setp => field / 128 * 128 + field % 64
  | .hlt => 0
  | _ => field

theorem Operation.ofField_setp_of_dest {tag : Tag} {field : Nat}
    (h : Fin.ofNat 4 (field / 128) = (0 : PredicateRegister)) :
    Operation.ofField tag field .setp = .error .readOnlyPredicate := by
  rw [Operation.ofField, if_pos h]

theorem Operation.ofField_setp_of_condition {tag : Tag} {field : Nat}
    (hdest : Fin.ofNat 4 (field / 128) ≠ (0 : PredicateRegister)) (hcode : 14 ≤ field % 64) :
    Operation.ofField tag field .setp = .error (.unknownCondition (field % 64)) := by
  rw [Operation.ofField, if_neg hdest, Condition.ofCode?_eq_none_iff.mpr hcode]

theorem Operation.ofField_setp_eq_ok_iff {tag : Tag} {field : Nat} {op : Operation} :
    Operation.ofField tag field .setp = .ok op ↔
      ∃ condition, Fin.ofNat 4 (field / 128) ≠ (0 : PredicateRegister) ∧
        Condition.ofCode? (field % 64) = some condition ∧
        op = .setPredicate condition (Fin.ofNat 4 (field / 128)) := by
  by_cases hdest : Fin.ofNat 4 (field / 128) = (0 : PredicateRegister)
  · rw [Operation.ofField_setp_of_dest hdest]
    constructor
    · intro h
      cases h
    · rintro ⟨condition, hne, -⟩
      exact absurd hdest hne
  · rw [Operation.ofField, if_neg hdest]
    cases hcode : Condition.ofCode? (field % 64) with
    | none => simp
    | some condition =>
      constructor
      · intro h
        cases h
        exact ⟨condition, hdest, rfl, rfl⟩
      · rintro ⟨condition', -, hcode', rfl⟩
        cases hcode'
        rfl

theorem Operation.opcode_of_ofField {tag : Tag} {field : Nat} {opcode : Opcode} {op : Operation}
    (h : Operation.ofField tag field opcode = .ok op) : op.opcode = opcode := by
  cases opcode with
  | setp =>
    obtain ⟨condition, -, -, rfl⟩ := Operation.ofField_setp_eq_ok_iff.mp h
    rfl
  | _ => cases h; rfl

theorem Operand.fits_ofField (tag : Tag) (field : Nat) : (Operand.ofField tag field).Fits := by
  unfold Operand.ofField
  split
  · have hlt : field % 8 < 8 := Nat.mod_lt _ (by decide)
    rw [Operand.Fits, Word.toNat_ofNat_of_lt (by omega)]
    exact hlt
  · trivial

theorem Operand.field_ofField (tag : Tag) (field : Nat) :
    (Operand.ofField tag field).field = field % 8 := by
  unfold Operand.ofField
  split
  · have hlt : field % 8 < 8 := Nat.mod_lt _ (by decide)
    rw [Operand.field, Word.toNat_ofNat_of_lt (by omega), Nat.mod_mod]
  · rfl

/-- What is read from nine bits fits in them. -/
theorem Operation.fits_of_ofField {tag : Tag} {field : Nat} {opcode : Opcode} {op : Operation}
    (h : Operation.ofField tag field opcode = .ok op) : op.Fits := by
  have haddress : (Word.ofNat (field % 512)).toNat < memorySize := by
    have hlt : field % 512 < 512 := Nat.mod_lt _ (by decide)
    rw [Word.toNat_ofNat_of_lt (by omega)]
    exact hlt
  cases opcode with
  | setp =>
    obtain ⟨condition, hdest, -, rfl⟩ := Operation.ofField_setp_eq_ok_iff.mp h
    exact hdest
  | ldr => cases h; exact haddress
  | str => cases h; exact haddress
  | b => cases h; exact haddress
  | alu op => cases h; exact Operand.fits_ofField tag field
  | cmp => cases h; exact Operand.fits_ofField tag field
  | hlt => cases h; trivial

/-- The tag that an operation would be written with is the one it was read with. -/
theorem Operation.tag_of_ofField {tag : Tag} {field : Nat} {opcode : Opcode} {op : Operation}
    (hadmits : tag.admits opcode = true) (h : Operation.ofField tag field opcode = .ok op) :
    op.tag = tag := by
  cases opcode with
  | setp =>
    obtain ⟨condition, -, -, rfl⟩ := Operation.ofField_setp_eq_ok_iff.mp h
    cases tag <;> first | rfl | simp [Tag.admits] at hadmits
  | alu op =>
    cases h
    cases tag <;> cases op <;> first | rfl | simp [Tag.admits] at hadmits
  | _ =>
    cases h
    cases tag <;> first | rfl | simp [Tag.admits] at hadmits

/-- Written again, the bits of an operation are those that were read. -/
theorem Operation.field_of_ofField {tag : Tag} {field : Nat} {opcode : Opcode} {op : Operation}
    (hlt : field < 512) (h : Operation.ofField tag field opcode = .ok op) :
    op.field = opcode.readBits field := by
  have haddress : (Word.ofNat (field % 512)).toNat % 512 = field := by
    rw [Word.toNat_ofNat_of_lt (by omega)]
    omega
  cases opcode with
  | setp =>
    obtain ⟨condition, -, hcode, rfl⟩ := Operation.ofField_setp_eq_ok_iff.mp h
    have hc := Condition.code_of_ofCode? hcode
    simp only [Operation.field, Opcode.readBits, Fin.val_ofNat, hc]
    omega
  | ldr => cases h; exact haddress
  | str => cases h; exact haddress
  | b => cases h; exact haddress
  | alu op =>
    cases h
    simp only [Operation.field, Opcode.readBits, Fin.val_ofNat, Operand.field_ofField]
    omega
  | cmp =>
    cases h
    simp only [Operation.field, Opcode.readBits, Fin.val_ofNat, Operand.field_ofField]
    omega
  | hlt => cases h; rfl

/-! ## 2. The word around them -/

theorem Instruction.toNat_word (i : Instruction) :
    i.word.toNat = i.opcode.code * 4096 + i.predicate.code * 512 + i.operation.field := by
  have ho := i.opcode.code_lt
  have hp := i.predicate.code_lt
  have hf := i.operation.field_lt
  exact Word.toNat_ofNat_of_lt (by omega)

/-- **What makes a word an instruction.**  Its opcode is of the tag's family, and the nine bits
make the operation. -/
theorem decode_eq_ok_iff {w : Word} {tag : Tag} {i : Instruction} :
    decode w tag = .ok i ↔
      Opcode.ofCode? (w.toNat / 4096) = some i.opcode ∧ tag.admits i.opcode = true ∧
        Predicate.ofCode (w.toNat / 512) = i.predicate ∧
        Operation.ofField tag (w.toNat % 512) i.opcode = .ok i.operation := by
  unfold decode
  constructor
  · intro h
    split at h
    · cases h
    · split at h
      · cases h
      · rename_i opcode hopcode
        split at h
        · rename_i hadmits
          split at h
          · cases h
          · rename_i operation hoperation
            cases h
            have ho : (Instruction.mk (Predicate.ofCode (w.toNat / 512)) operation).opcode =
                opcode := Operation.opcode_of_ofField hoperation
            rw [ho]
            exact ⟨hopcode, hadmits, rfl, hoperation⟩
        · cases h
  · rintro ⟨hopcode, hadmits, hpredicate, hoperation⟩
    have htag : tag ≠ .error := by
      rintro rfl
      simp [Tag.admits] at hadmits
    rw [if_neg htag]
    simp only [hopcode, hadmits, hoperation, if_true, hpredicate]

/-- A word that was made from an instruction is read as the nine bits of its operation. -/
theorem decode_word_eq (i : Instruction) :
    decode i.word i.tag =
      (Operation.ofField i.tag i.operation.field i.opcode).map (Instruction.mk i.predicate) := by
  have hf := i.operation.field_lt
  have hp := i.predicate.code_lt
  have hw := i.toNat_word
  have hopcode : Opcode.ofCode? (i.word.toNat / 4096) = some i.opcode := by
    rw [show i.word.toNat / 4096 = i.opcode.code by omega, Opcode.ofCode?_code]
  have hpredicate : Predicate.ofCode (i.word.toNat / 512) = i.predicate := by
    have hmod : Predicate.ofCode (i.word.toNat / 512) = Predicate.ofCode i.predicate.code := by
      rw [Predicate.ofCode, show i.word.toNat / 512 % 8 = i.predicate.code % 8 by omega,
        ← Predicate.ofCode]
    rw [hmod, Predicate.ofCode_code]
  have hfield : i.word.toNat % 512 = i.operation.field := by omega
  have hadmits : i.tag.admits i.opcode = true := i.operation.admits_opcode
  have htag : i.tag ≠ .error := by
    intro h
    rw [h] at hadmits
    simp [Tag.admits] at hadmits
  rw [decode, if_neg htag, hopcode]
  simp only [hadmits, if_true, hpredicate, hfield]
  cases Operation.ofField i.tag i.operation.field i.opcode <;> rfl

/-- **Encoding, then decoding** leaves what the word has room for. -/
theorem decode_word {i : Instruction} (h : ∀ condition, i.operation ≠ .setPredicate condition 0) :
    decode i.word i.tag = .ok i.narrow := by
  rw [decode_word_eq, Instruction.tag, Instruction.opcode, Operation.ofField_field h]
  rfl

/-- An instruction that fits is decoded as it was encoded. -/
theorem decode_word_of_fits {i : Instruction} (h : i.Fits) : decode i.word i.tag = .ok i := by
  rw [decode_word, Instruction.narrow_eq_self h]
  intro condition hop
  rw [Instruction.Fits, hop] at h
  exact h rfl

/-- A word that would set `P0` is refused. -/
theorem decode_word_readOnly (predicate : Predicate) (condition : Condition) :
    decode (Instruction.mk predicate (.setPredicate condition 0)).word .setPredicate =
      .error .readOnlyPredicate := by
  have hdest : Fin.ofNat 4 ((Operation.setPredicate condition 0).field / 128) =
      (0 : PredicateRegister) := by
    cases condition <;> rfl
  have h := decode_word_eq ⟨predicate, .setPredicate condition 0⟩
  rw [Instruction.opcode, Operation.opcode, Operation.ofField_setp_of_dest hdest] at h
  exact h

/-! ## 3. The bits that are not read -/

/-- The bits of a word that an opcode does not read. -/
def Opcode.ignoredBits : Opcode → Word
  | .cmp => 0x01C0
  | .setp => 0x0040
  | .hlt => 0x01FF
  | _ => 0

/-- Clearing the bits from `low` on and below `high` leaves the digits above and below them. -/
theorem Word.toNat_clear (w mask : Word) (low high : Nat) (hle : low ≤ high)
    (hmask : ∀ k < 16, mask.getLsbD k = decide (low ≤ k ∧ k < high)) :
    (w &&& ~~~mask).toNat = w.toNat / 2 ^ high * 2 ^ high + w.toNat % 2 ^ low := by
  apply Nat.eq_of_testBit_eq
  intro k
  have hlt : w.toNat % 2 ^ low < 2 ^ high :=
    Nat.lt_of_lt_of_le (Nat.mod_lt _ (Nat.two_pow_pos low))
      (Nat.pow_le_pow_right (by decide) hle)
  rw [Nat.mul_comm, Nat.testBit_two_pow_mul_add _ hlt, Nat.testBit_mod_two_pow,
    Nat.testBit_div_two_pow]
  simp only [BitVec.testBit_toNat, BitVec.getLsbD_and, BitVec.getLsbD_not]
  by_cases hk : k < 16
  · rw [hmask k hk]
    by_cases hkh : k < high
    · by_cases hkl : k < low
      · simp [hk, hkh, hkl, Nat.not_le.mpr hkl]
      · simp [hk, hkh, hkl, Nat.not_lt.mp hkl]
    · have hsub : k - high + high = k := by omega
      simp [hk, hkh, hsub]
  · have hout : w.getLsbD k = false := BitVec.getLsbD_of_ge w k (by omega)
    by_cases hkh : k < high
    · simp [hk, hkh, hout]
    · have hsub : k - high + high = k := by omega
      simp [hk, hkh, hsub, hout]

/-- What an opcode reads of a word, as a number. -/
theorem Opcode.toNat_and_not_ignoredBits (opcode : Opcode) (w : Word) :
    (w &&& ~~~opcode.ignoredBits).toNat =
      w.toNat / 512 * 512 + opcode.readBits (w.toNat % 512) := by
  have hnone : (w &&& ~~~(0 : Word)).toNat = w.toNat / 512 * 512 + w.toNat % 512 := by
    have h := w.toNat_clear 0 0 0 (Nat.le_refl 0) (by simp)
    simp only [Nat.pow_zero, Nat.div_one, Nat.mul_one, Nat.mod_one] at h
    omega
  cases opcode with
  | cmp =>
    have h := w.toNat_clear 0x01C0 6 9 (by decide) (by decide)
    rw [Opcode.ignoredBits, h, Opcode.readBits]
    omega
  | setp =>
    have h := w.toNat_clear 0x0040 6 7 (by decide) (by decide)
    rw [Opcode.ignoredBits, h, Opcode.readBits]
    omega
  | hlt =>
    have h := w.toNat_clear 0x01FF 0 9 (by decide) (by decide)
    rw [Opcode.ignoredBits, h, Opcode.readBits]
    omega
  | _ => exact hnone

/-- **Decoding, then encoding** clears the bits that the opcode does not read. -/
theorem word_of_decode {w : Word} {tag : Tag} {i : Instruction} (h : decode w tag = .ok i) :
    i.word = w &&& ~~~i.opcode.ignoredBits := by
  obtain ⟨hopcode, -, hpredicate, hoperation⟩ := decode_eq_ok_iff.mp h
  have hcode : i.opcode.code = w.toNat / 4096 := Opcode.code_of_ofCode? hopcode
  have hguard : i.predicate.code = w.toNat / 512 % 8 := by
    rw [← hpredicate, Predicate.code_ofCode]
  have hfield := Operation.field_of_ofField (Nat.mod_lt _ (by decide)) hoperation
  apply BitVec.eq_of_toNat_eq
  rw [Instruction.toNat_word, Opcode.toNat_and_not_ignoredBits, hfield, hcode, hguard]
  omega

theorem fits_of_decode {w : Word} {tag : Tag} {i : Instruction} (h : decode w tag = .ok i) :
    i.Fits :=
  Operation.fits_of_ofField (decode_eq_ok_iff.mp h).2.2.2

theorem tag_of_decode {w : Word} {tag : Tag} {i : Instruction} (h : decode w tag = .ok i) :
    i.tag = tag := by
  obtain ⟨-, hadmits, -, hoperation⟩ := decode_eq_ok_iff.mp h
  exact Operation.tag_of_ofField hadmits hoperation

/-! ## 4. Words that are no instruction -/

/-- The opcodes that a tag can stand beside. -/
def Tag.family : Tag → List Opcode
  | .memory => [.ldr, .str]
  | .branch => [.b]
  | .immediateAlu | .registerAlu =>
    [.alu .add, .alu .sub, .alu .and, .alu .orr, .alu .xor, .alu .lshl, .alu .lshr]
  | .immediateMove | .registerMove => [.alu .mov]
  | .immediateCompare | .registerCompare => [.cmp]
  | .setPredicate => [.setp]
  | .halt => [.hlt]
  | .error => []

/-- Why a word is no instruction under a tag, read off its bits.  Each cause excludes those
that stand before it. -/
inductive Unreadable (w : Word) (tag : Tag) : DecodeError → Prop where
  | noInstruction (htag : tag = .error) : Unreadable w tag .noInstruction
  | unknownOpcode {code : Nat} (htag : tag ≠ .error) (hcode : (w >>> 12).toNat = code)
      (hunknown : code = 13 ∨ code = 14) : Unreadable w tag (.unknownOpcode code)
  | mismatch {opcode : Opcode} (htag : tag ≠ .error) (hcode : (w >>> 12).toNat = opcode.code)
      (hfamily : opcode ∉ tag.family) : Unreadable w tag (.mismatch opcode tag)
  | readOnlyPredicate (htag : tag = .setPredicate) (hcode : (w >>> 12).toNat = 11)
      (hdest : (w >>> 7) &&& 3 = 0) : Unreadable w tag .readOnlyPredicate
  | unknownCondition {code : Nat} (htag : tag = .setPredicate) (hcode : (w >>> 12).toNat = 11)
      (hdest : (w >>> 7) &&& 3 ≠ 0) (hcondition : (w &&& 0x3F).toNat = code)
      (hunknown : 14 ≤ code) : Unreadable w tag (.unknownCondition code)

theorem Tag.admits_iff_mem_family (tag : Tag) (opcode : Opcode) :
    tag.admits opcode = true ↔ opcode ∈ tag.family := by
  cases opcode with
  | alu op => cases tag <;> cases op <;> decide
  | _ => cases tag <;> decide

theorem Opcode.ofCode?_eq_none_iff {code : Nat} (h : code < 16) :
    Opcode.ofCode? code = none ↔ code = 13 ∨ code = 14 := by
  revert code
  decide

theorem Opcode.ofCode?_eq_some_iff {code : Nat} {opcode : Opcode} :
    Opcode.ofCode? code = some opcode ↔ code = opcode.code := by
  constructor
  · exact fun h => (Opcode.code_of_ofCode? h).symm
  · rintro rfl
    exact Opcode.ofCode?_code opcode

theorem Word.toNat_shift_opcode (w : Word) : (w >>> 12).toNat = w.toNat / 4096 := by
  rw [BitVec.toNat_ushiftRight, Nat.shiftRight_eq_div_pow]

theorem Word.shift_dest_eq_zero_iff (w : Word) :
    (w >>> 7) &&& 3 = 0 ↔ Fin.ofNat 4 (w.toNat % 512 / 128) = (0 : PredicateRegister) := by
  have hmask : ((w >>> 7) &&& 3).toNat = (w >>> 7).toNat % 4 :=
    Word.toNat_and_low (w >>> 7) 2 (by decide)
  have hshift : (w >>> 7).toNat = w.toNat / 128 := by
    rw [BitVec.toNat_ushiftRight, Nat.shiftRight_eq_div_pow]
  rw [← BitVec.toNat_inj, hmask, hshift, Fin.ext_iff, Fin.val_ofNat]
  change w.toNat / 128 % 4 = 0 ↔ w.toNat % 512 / 128 % 4 = 0
  omega

theorem Word.toNat_and_condition (w : Word) : (w &&& 0x3F).toNat = w.toNat % 512 % 64 := by
  have hmask : (w &&& 0x3F).toNat = w.toNat % 64 := w.toNat_and_low 6 (by decide)
  omega

/-- Of the operations only setting a predicate can fail, once the family is right. -/
theorem Operation.cases_of_ofField_error {tag : Tag} {field : Nat} {opcode : Opcode}
    {error : DecodeError} (h : Operation.ofField tag field opcode = .error error) :
    opcode = .setp ∧
      (Fin.ofNat 4 (field / 128) = (0 : PredicateRegister) ∧ error = .readOnlyPredicate ∨
        Fin.ofNat 4 (field / 128) ≠ (0 : PredicateRegister) ∧ 14 ≤ field % 64 ∧
          error = .unknownCondition (field % 64)) := by
  cases opcode with
  | setp =>
    refine ⟨rfl, ?_⟩
    by_cases hdest : Fin.ofNat 4 (field / 128) = (0 : PredicateRegister)
    · rw [Operation.ofField_setp_of_dest hdest] at h
      cases h
      exact .inl ⟨hdest, rfl⟩
    · by_cases hcode : 14 ≤ field % 64
      · rw [Operation.ofField_setp_of_condition hdest hcode] at h
        cases h
        exact .inr ⟨hdest, hcode, rfl⟩
      · cases hcondition : Condition.ofCode? (field % 64) with
        | none => exact absurd (Condition.ofCode?_eq_none_iff.mp hcondition) hcode
        | some condition =>
          rw [Operation.ofField_setp_eq_ok_iff.mpr ⟨condition, hdest, hcondition, rfl⟩] at h
          cases h
  | _ => cases h

theorem unreadable_of_decode {w : Word} {tag : Tag} {error : DecodeError}
    (h : decode w tag = .error error) : Unreadable w tag error := by
  have hshift := w.toNat_shift_opcode
  have hrange : w.toNat / 4096 < 16 := by omega
  unfold decode at h
  split at h
  · rename_i htag
    cases h
    exact .noInstruction htag
  rename_i htag
  split at h
  · rename_i hopcode
    cases h
    exact .unknownOpcode htag hshift ((Opcode.ofCode?_eq_none_iff hrange).mp hopcode)
  rename_i opcode hopcode
  have hcode := Opcode.ofCode?_eq_some_iff.mp hopcode
  split at h
  · rename_i hadmits
    split at h
    · rename_i error' hfield
      cases h
      obtain ⟨rfl, hcases⟩ := Operation.cases_of_ofField_error hfield
      have hset : tag = .setPredicate := by
        cases tag <;> first | rfl | simp [Tag.admits] at hadmits
      obtain ⟨hdest, rfl⟩ | ⟨hdest, hcondition, rfl⟩ := hcases
      · exact .readOnlyPredicate hset (hshift.trans hcode) (w.shift_dest_eq_zero_iff.mpr hdest)
      · exact .unknownCondition hset (hshift.trans hcode)
          (fun hzero => hdest (w.shift_dest_eq_zero_iff.mp hzero)) w.toNat_and_condition hcondition
    · cases h
  · rename_i hadmits
    cases h
    refine .mismatch htag (hshift.trans hcode) ?_
    rwa [← Tag.admits_iff_mem_family]

theorem decode_of_unreadable {w : Word} {tag : Tag} {error : DecodeError}
    (h : Unreadable w tag error) : decode w tag = .error error := by
  have hshift := w.toNat_shift_opcode
  have hrange : w.toNat / 4096 < 16 := by omega
  unfold decode
  cases h with
  | noInstruction htag => rw [if_pos htag]
  | unknownOpcode htag hcode hunknown =>
    have hopcode : Opcode.ofCode? (w.toNat / 4096) = none :=
      (Opcode.ofCode?_eq_none_iff hrange).mpr (by omega)
    rw [if_neg htag, hopcode, ← hcode, hshift]
  | @mismatch opcode htag hcode hfamily =>
    have hopcode : Opcode.ofCode? (w.toNat / 4096) = some opcode :=
      Opcode.ofCode?_eq_some_iff.mpr (hshift.symm.trans hcode)
    rw [← Tag.admits_iff_mem_family] at hfamily
    simp only [if_neg htag, hopcode, if_neg hfamily]
  | readOnlyPredicate htag hcode hdest =>
    have hopcode : Opcode.ofCode? (w.toNat / 4096) = some .setp :=
      Opcode.ofCode?_eq_some_iff.mpr (hshift.symm.trans hcode)
    subst htag
    simp only [hopcode, Tag.admits, if_true, reduceCtorEq, if_false,
      Operation.ofField_setp_of_dest (w.shift_dest_eq_zero_iff.mp hdest)]
  | unknownCondition htag hcode hdest hcondition hunknown =>
    have hopcode : Opcode.ofCode? (w.toNat / 4096) = some .setp :=
      Opcode.ofCode?_eq_some_iff.mpr (hshift.symm.trans hcode)
    have hdest' : Fin.ofNat 4 (w.toNat % 512 / 128) ≠ (0 : PredicateRegister) :=
      fun hzero => hdest (w.shift_dest_eq_zero_iff.mpr hzero)
    rw [w.toNat_and_condition] at hcondition
    subst htag hcondition
    simp only [hopcode, Tag.admits, if_true, reduceCtorEq, if_false,
      Operation.ofField_setp_of_condition hdest' hunknown]

/-! ## 5. Both directions and every failure -/

/-- **The format is exact.**  An instruction comes back from its word as what the word has room
for, a word comes back from its instruction without the bits that are not read, and a word
that is no instruction is refused for the first cause there is. -/
theorem encode_decode_exact :
    (∀ i : Instruction, (∀ condition, i.operation ≠ .setPredicate condition 0) →
      decode i.encode.1 i.encode.2 = .ok i.narrow) ∧
    (∀ (i : Instruction) (condition : Condition), i.operation = .setPredicate condition 0 →
      decode i.encode.1 i.encode.2 = .error .readOnlyPredicate) ∧
    (∀ (w : Word) (tag : Tag) (i : Instruction), decode w tag = .ok i →
      i.Fits ∧ i.tag = tag ∧ i.encode = (w &&& ~~~i.opcode.ignoredBits, tag) ∧
        decode (w &&& ~~~i.opcode.ignoredBits) tag = .ok i) ∧
    (∀ (w : Word) (tag : Tag) (error : DecodeError),
      decode w tag = .error error ↔ Unreadable w tag error) := by
  refine ⟨fun i h => decode_word h, ?_, ?_, ?_⟩
  · rintro ⟨predicate, operation⟩ condition rfl
    exact decode_word_readOnly predicate condition
  · intro w tag i h
    have hfits := fits_of_decode h
    have htag := tag_of_decode h
    have hword := word_of_decode h
    refine ⟨hfits, htag, ?_, ?_⟩
    · rw [Instruction.encode, hword, htag]
    · rw [← hword, ← htag]
      exact decode_word_of_fits hfits
  · exact fun w tag error => ⟨unreadable_of_decode, decode_of_unreadable⟩

/-- An immediate that is too wide, a `SETP` into `P0`, a comparison with bits to spare, and a
word that could be refused for its destination and for its condition. -/
theorem encode_decode_exact_instances :
    decode (Instruction.mk .p1 (.alu .add 2 0 (.immediate 0x1A))).word .immediateAlu =
        .ok ⟨.p1, .alu .add 2 0 (.immediate 2)⟩ ∧
      decode (Instruction.mk .always (.setPredicate .le 0)).word .setPredicate =
        .error .readOnlyPredicate ∧
      (decode 0x8FEE .registerCompare = .ok ⟨.p3, .compare 5 (.register 6)⟩ ∧
        (Instruction.mk .p3 (.compare 5 (.register 6))).word = 0x8FEE &&& ~~~0x01C0) ∧
      (Unreadable 0xB00F .setPredicate .readOnlyPredicate ∧
        decode 0xB00F .setPredicate = .error .readOnlyPredicate) := by
  obtain ⟨hnarrow, hreadOnly, hexact, hfailure⟩ := encode_decode_exact
  have hcompare : decode 0x8FEE .registerCompare = .ok ⟨.p3, .compare 5 (.register 6)⟩ := rfl
  obtain ⟨-, -, hencode, -⟩ := hexact _ _ _ hcompare
  have hunreadable : Unreadable 0xB00F .setPredicate .readOnlyPredicate :=
    .readOnlyPredicate rfl (by decide) (by decide)
  exact ⟨hnarrow ⟨.p1, .alu .add 2 0 (.immediate 0x1A)⟩ (fun _ h => by cases h),
    hreadOnly ⟨.always, .setPredicate .le 0⟩ .le rfl,
    ⟨hcompare, congrArg Prod.fst hencode⟩, hunreadable, (hfailure _ _ _).mpr hunreadable⟩

end PredicatedCpu

/-
# Instruction words

An instruction word is read in base two from the left: four bits of opcode, three of
predicate, and nine that the format tag explains.

    15    12 11   9 8                 0
    opcode   pred   address                LDR, STR, B
    opcode   pred   dest   source   low    computing: three bits each
    opcode   pred   -      source   low    CMP
    opcode   pred   dest  -  condition     SETP: two bits, one unused, six bits
    opcode   pred   -                      HLT

The fields are given by place value, so that a statement about them is one of arithmetic.

* `Instruction.word`, `Instruction.encode`: from an instruction to a word and its tag;
* `decode`: back, or the reason why a word and a tag make no instruction.
-/
import PredicatedCpu.Instruction.Basic

namespace PredicatedCpu

/-! ## 1. Writing -/

/-- The three bits of an operand. -/
def Operand.field : Operand → Nat
  | .register r => r.val
  | .immediate value => value.toNat % 8

/-- The nine bits of an operation.  Of an address they hold the nine low bits, of an immediate
the three low ones. -/
def Operation.field : Operation → Nat
  | .load address => address.toNat % 512
  | .store address => address.toNat % 512
  | .branch target => target.toNat % 512
  | .alu _ dest source operand => dest.val * 64 + source.val * 8 + operand.field
  | .compare source operand => source.val * 8 + operand.field
  | .setPredicate condition dest => dest.val * 128 + condition.code
  | .halt => 0

/-- The word of an instruction. -/
def Instruction.word (i : Instruction) : Word :=
  Word.ofNat (i.opcode.code * 4096 + i.predicate.code * 512 + i.operation.field)

/-- The word of an instruction and the tag to read it with. -/
def Instruction.encode (i : Instruction) : Word × Tag := (i.word, i.tag)

/-! ## 2. Reading -/

/-- Why a word and a tag make no instruction. -/
inductive DecodeError where
  /-- Nothing was ever put at this address. -/
  | noInstruction
  | unknownOpcode (code : Nat)
  /-- The opcode does not belong to the family that the tag stands for. -/
  | mismatch (opcode : Opcode) (tag : Tag)
  | unknownCondition (code : Nat)
  /-- The word would set `P0`. -/
  | readOnlyPredicate
  deriving DecidableEq, Repr

def DecodeError.message : DecodeError → String
  | noInstruction => "no valid instruction at this address"
  | unknownOpcode code => "unknown opcode 0x" ++ Text.lowerHex 1 code
  | mismatch opcode tag =>
    "opcode " ++ opcode.mnemonic ++ " cannot be executed with format " ++ tag.name
  | unknownCondition code => "unknown condition code " ++ Text.decimal code
  | readOnlyPredicate => "SETP cannot write P0"

/-- Whether an opcode belongs to the **family** of a tag. -/
def Tag.admits : Tag → Opcode → Bool
  | .memory, .ldr => true
  | .memory, .str => true
  | .branch, .b => true
  | .immediateAlu, .alu op => op != .mov
  | .registerAlu, .alu op => op != .mov
  | .immediateMove, .alu op => op == .mov
  | .registerMove, .alu op => op == .mov
  | .immediateCompare, .cmp => true
  | .registerCompare, .cmp => true
  | .setPredicate, .setp => true
  | .halt, .hlt => true
  | _, _ => false

/-- The operand in three bits, as the tag says. -/
def Operand.ofField (tag : Tag) (field : Nat) : Operand :=
  if tag.isImmediate then .immediate (Word.ofNat (field % 8)) else .register (Fin.ofNat 8 field)

/-- The operation that an opcode and nine bits make when the tag is of the opcode's family. -/
def Operation.ofField (tag : Tag) (field : Nat) : Opcode → Except DecodeError Operation
  | .ldr => .ok (.load (Word.ofNat (field % 512)))
  | .str => .ok (.store (Word.ofNat (field % 512)))
  | .b => .ok (.branch (Word.ofNat (field % 512)))
  | .alu op =>
    .ok (.alu op (Fin.ofNat 8 (field / 64)) (Fin.ofNat 8 (field / 8)) (.ofField tag field))
  | .cmp => .ok (.compare (Fin.ofNat 8 (field / 8)) (.ofField tag field))
  | .setp =>
    let dest : PredicateRegister := Fin.ofNat 4 (field / 128)
    if dest = 0 then .error .readOnlyPredicate
    else match Condition.ofCode? (field % 64) with
      | none => .error (.unknownCondition (field % 64))
      | some condition => .ok (.setPredicate condition dest)
  | .hlt => .ok .halt

/-- **Decoding**: the instruction in a word, read with its tag.  Of several faults the first
one here is named: no instruction, no opcode, the wrong family, the destination, the
condition. -/
def decode (word : Word) (tag : Tag) : Except DecodeError Instruction :=
  if tag = .error then .error .noInstruction
  else match Opcode.ofCode? (word.toNat / 4096) with
    | none => .error (.unknownOpcode (word.toNat / 4096))
    | some opcode =>
      if tag.admits opcode then
        match Operation.ofField tag (word.toNat % 512) opcode with
        | .error e => .error e
        | .ok operation => .ok ⟨Predicate.ofCode (word.toNat / 512), operation⟩
      else .error (.mismatch opcode tag)

/-- `ADD R2, R0, #2` under `P1`. -/
example : decode 0x2682 .immediateAlu = .ok ⟨.p1, .alu .add 2 0 (.immediate 2)⟩ := rfl

/-- The same word as a register form. -/
example : decode 0x2682 .registerAlu = .ok ⟨.p1, .alu .add 2 0 (.register 2)⟩ := rfl

end PredicatedCpu

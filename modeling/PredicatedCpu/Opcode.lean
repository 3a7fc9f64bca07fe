/-
# Opcodes

Four bits of an instruction word select what is to be done.  Fourteen of the sixteen codes
stand for an opcode; eight of those compute, and they share their operands and their layout.
-/
import PredicatedCpu.Word
import PredicatedCpu.Text.Case

namespace PredicatedCpu

/-! ## 1. Computing -/

/-- An operation on two words that yields one. -/
inductive AluOp where
  | add | sub | and | orr | xor | mov | lshl | lshr
  deriving DecidableEq, Repr

namespace AluOp

/-- Every computing operation, in the order of the opcodes. -/
def all : List AluOp := [add, sub, and, orr, xor, mov, lshl, lshr]

def mnemonic : AluOp → String
  | add => "ADD" | sub => "SUB" | and => "AND" | orr => "ORR" | xor => "XOR" | mov => "MOV"
  | lshl => "LSHL" | lshr => "LSHR"

/-- The result for two words.  Sums and differences wrap round; `mov` passes the second word
on; a shift goes by as many places as the three low bits of the second word say. -/
def apply (a b : Word) : AluOp → Word
  | add => a + b
  | sub => a - b
  | and => a &&& b
  | orr => a ||| b
  | xor => a ^^^ b
  | mov => b
  | lshl => a <<< (b.toNat % 8)
  | lshr => a >>> (b.toNat % 8)

end AluOp

/-! ## 2. All opcodes -/

/-- What an instruction does, before its operands are known. -/
inductive Opcode where
  | ldr
  | str
  | alu (op : AluOp)
  | cmp
  | setp
  | b
  | hlt
  deriving DecidableEq, Repr

/-- What kind of operands an opcode is written with. -/
inductive OperandShape where
  | memory
  | branch
  | dataProcessing
  | setPredicate
  | halt
  deriving DecidableEq, Repr

namespace Opcode

/-- Every opcode, in the order of the codes. -/
def all : List Opcode :=
  [ldr, str, alu .add, alu .sub, alu .and, alu .orr, alu .xor, alu .mov, cmp, alu .lshl,
    alu .lshr, setp, b, hlt]

/-- The number that stands for an opcode in an instruction word. -/
def code : Opcode → Nat
  | ldr => 0
  | str => 1
  | alu .add => 2
  | alu .sub => 3
  | alu .and => 4
  | alu .orr => 5
  | alu .xor => 6
  | alu .mov => 7
  | cmp => 8
  | alu .lshl => 9
  | alu .lshr => 10
  | setp => 11
  | b => 12
  | hlt => 15

/-- The opcode of a code.  13, 14 and everything above 15 stand for nothing. -/
def ofCode? (code : Nat) : Option Opcode := all.find? fun opcode => opcode.code == code

def mnemonic : Opcode → String
  | ldr => "LDR"
  | str => "STR"
  | alu op => op.mnemonic
  | cmp => "CMP"
  | setp => "SETP"
  | b => "B"
  | hlt => "HLT"

/-- The opcode of a mnemonic, in either case. -/
def ofName? (name : String) : Option Opcode :=
  all.find? fun opcode => opcode.mnemonic == Text.upper name

def shape : Opcode → OperandShape
  | ldr | str => .memory
  | b => .branch
  | alu _ | cmp => .dataProcessing
  | setp => .setPredicate
  | hlt => .halt

/-- How many operands an opcode is written with. -/
def arity : Opcode → Nat
  | ldr | str | b => 1
  | alu _ => 3
  | cmp | setp => 2
  | hlt => 0

@[simp] theorem ofCode?_code (o : Opcode) : ofCode? o.code = some o := by
  rcases o with _ | _ | op | _ | _ | _ | _
  case alu => cases op <;> rfl
  all_goals rfl

theorem code_of_ofCode? {n : Nat} {o : Opcode} (h : ofCode? n = some o) : o.code = n := by
  simpa using List.find?_some h

theorem code_lt (o : Opcode) : o.code < 16 := by
  rcases o with _ | _ | op | _ | _ | _ | _
  case alu => cases op <;> decide
  all_goals decide

/-- A mnemonic is read back as its opcode. -/
theorem ofName?_mnemonic (o : Opcode) : ofName? o.mnemonic = some o := by
  rcases o with _ | _ | op | _ | _ | _ | _
  case alu => cases op <;> decide
  all_goals decide

end Opcode
end PredicatedCpu

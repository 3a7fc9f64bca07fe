/-
# The text of an instruction

Every instruction has one canonical text, the one that listings and traces show.  It is
written the way a source line is: the predicate in parentheses unless it is "always", the
mnemonic, the operands between commas.
-/
import PredicatedCpu.Instruction.Encoding

namespace PredicatedCpu

/-- An address as it is written: at least three hexadecimal digits behind their mark. -/
def addressText (address : Nat) : String := "0x" ++ Text.hex 3 address

/-- A word as it is written: four hexadecimal digits behind their mark. -/
def wordText (word : Word) : String := "0x" ++ Text.hex 4 word.toNat

def Operand.text : Operand → String
  | .register r => r.name
  | .immediate value => "#" ++ Text.decimal value.toNat

/-- The operands of an operation, with a blank in front of the first. -/
def Operation.operandText : Operation → String
  | .load address => " " ++ addressText address.toNat
  | .store address => " " ++ addressText address.toNat
  | .branch target => " " ++ addressText target.toNat
  | .alu _ dest source operand =>
    " " ++ dest.name ++ ", " ++ source.name ++ ", " ++ operand.text
  | .compare source operand => " " ++ source.name ++ ", " ++ operand.text
  | .setPredicate condition dest => " " ++ condition.name ++ ", " ++ dest.name
  | .halt => ""

/-- What stands in front of an instruction's mnemonic. -/
def Predicate.guardText : Predicate → String
  | .always => ""
  | predicate => "(" ++ predicate.name ++ ") "

/-- The canonical text of an instruction. -/
def Instruction.text (i : Instruction) : String :=
  i.predicate.guardText ++ i.opcode.mnemonic ++ i.operation.operandText

example : (Instruction.mk .notP1 (.alu .lshl 2 0 (.immediate 3))).text = "(!P1) LSHL R2, R0, #3" := by
  decide

example : (Instruction.mk .always (.store 0x1F1)).text = "STR 0x1F1" := by decide

end PredicatedCpu

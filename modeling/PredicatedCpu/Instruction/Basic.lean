/-
# Instructions

An instruction is an operation under a predicate.  The immediate and the register form of an
operation share one layout, so a word of memory cannot say which of the two it is: beside
every word stands a **format tag** that says how its operand field is to be read.

Addresses and immediates are whole words here.  An address that is to be encoded has nine bits
and an immediate three; what a wider one loses is said in `Instruction.Encoding`.
-/
import PredicatedCpu.Flags
import PredicatedCpu.Opcode
import PredicatedCpu.Predicate

namespace PredicatedCpu

/-! ## 1. Format tags -/

/-- How the operand field of a word is to be read. -/
inductive Tag where
  | memory
  | branch
  | immediateAlu
  | registerAlu
  | immediateMove
  | registerMove
  | immediateCompare
  | registerCompare
  | setPredicate
  | halt
  /-- There is no instruction in this word. -/
  | error
  deriving DecidableEq, Repr

namespace Tag

/-- Every tag. -/
def all : List Tag :=
  [memory, branch, immediateAlu, registerAlu, immediateMove, registerMove, immediateCompare,
    registerCompare, setPredicate, halt, error]

def name : Tag → String
  | memory => "MEMORY"
  | branch => "BRANCH"
  | immediateAlu => "I_ALU"
  | registerAlu => "R_ALU"
  | immediateMove => "I_MOV"
  | registerMove => "R_MOV"
  | immediateCompare => "I_CMP"
  | registerCompare => "R_CMP"
  | setPredicate => "SETP"
  | halt => "HLT"
  | error => "ERROR"

/-- The tag of a name, which must be written as it is. -/
def ofName? (name : String) : Option Tag := all.find? fun tag => tag.name == name

/-- Whether the last operand of a word with this tag is a number. -/
def isImmediate : Tag → Bool
  | immediateAlu | immediateMove | immediateCompare => true
  | _ => false

end Tag

/-! ## 2. Operations -/

/-- The last operand of a computing or comparing operation. -/
inductive Operand where
  | register (r : Register)
  | immediate (value : Word)
  deriving DecidableEq, Repr

/-- What an instruction does when its predicate holds. -/
inductive Operation where
  /-- Fill the transfer register from an address. -/
  | load (address : Word)
  /-- Send the transfer register to an address. -/
  | store (address : Word)
  /-- Go on at an address. -/
  | branch (target : Word)
  /-- Put the result of computing with a register and an operand into `dest`. -/
  | alu (op : AluOp) (dest source : Register) (operand : Operand)
  /-- Set the flags from a register minus an operand. -/
  | compare (source : Register) (operand : Operand)
  /-- Put the answer to a condition into a one-bit register. -/
  | setPredicate (condition : Condition) (dest : PredicateRegister)
  | halt
  deriving DecidableEq, Repr

namespace Operation

def opcode : Operation → Opcode
  | load _ => .ldr
  | store _ => .str
  | branch _ => .b
  | alu op _ _ _ => .alu op
  | compare _ _ => .cmp
  | setPredicate _ _ => .setp
  | halt => .hlt

/-- The format tag that says how the operation is laid out. -/
def tag : Operation → Tag
  | load _ | store _ => .memory
  | branch _ => .branch
  | alu .mov _ _ (.immediate _) => .immediateMove
  | alu .mov _ _ (.register _) => .registerMove
  | alu _ _ _ (.immediate _) => .immediateAlu
  | alu _ _ _ (.register _) => .registerAlu
  | compare _ (.immediate _) => .immediateCompare
  | compare _ (.register _) => .registerCompare
  | setPredicate _ _ => .setPredicate
  | halt => .halt

end Operation

/-! ## 3. Instructions -/

/-- An operation and the predicate under which it takes effect. -/
structure Instruction where
  predicate : Predicate
  operation : Operation
  deriving DecidableEq, Repr

namespace Instruction

def opcode (i : Instruction) : Opcode := i.operation.opcode

def tag (i : Instruction) : Tag := i.operation.tag

end Instruction
end PredicatedCpu

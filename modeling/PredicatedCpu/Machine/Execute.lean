/-
# Executing an instruction

One instruction is executed as a whole.  What came of it is an `Outcome`, a value that says
which part of the machine was written and with what, so that traces, warnings and the
questions "did it halt?" and "does it wait?" are all read off it.

* `Operation.perform`: an operation carried out;
* `Instruction.execute`: the same under the instruction's predicate;
* `execute`: a word with its tag, which may be no instruction at all: that is a fault, and it
  halts the machine.
-/
import PredicatedCpu.Instruction.Disassembly
import PredicatedCpu.Machine.Basic

namespace PredicatedCpu

/-! ## 1. What comes of an instruction -/

/-- What an instruction did. -/
inductive Outcome where
  /-- Its predicate did not hold, and it did nothing. -/
  | skipped
  /-- It filled the transfer register from memory. -/
  | loaded (value : Word)
  /-- It asked for input. -/
  | suspended (address : Word)
  /-- It read an address of the window where nothing can be read, and got zero. -/
  | nothingToRead (address : Word)
  | stored (address value : Word)
  /-- It stored to the window. -/
  | sent (record : OutputRecord)
  | jumped (target : Word)
  | computed (dest : Register) (value : Word)
  | compared (flags : Flags)
  | tested (dest : PredicateRegister) (value : Bool)
  | halted
  deriving DecidableEq, Repr

/-- A bit as it is written. -/
def bitText (bit : Bool) : String := if bit then "1" else "0"

/-- The part of a trace that tells of a register. -/
def registerText (r : Register) (value : Word) : String := r.name ++ " = " ++ wordText value

def Outcome.text : Outcome → String
  | skipped => "skipped"
  | loaded value => registerText .transfer value
  | suspended address => "waiting for input at " ++ addressText address.toNat
  | nothingToRead _ => registerText .transfer 0
  | stored address value =>
    "mem[" ++ addressText address.toNat ++ "] = " ++ wordText value
  | sent record =>
    "output " ++ wordText record.value ++ " to " ++ addressText record.address.toNat
  | jumped target => "PC = " ++ addressText target.toNat
  | computed dest value => registerText dest value
  | compared flags =>
    "Z=" ++ bitText flags.zero ++ " N=" ++ bitText flags.negative ++
      " C=" ++ bitText flags.carry ++ " V=" ++ bitText flags.overflow
  | tested dest value => dest.name ++ " = " ++ bitText value
  | halted => "halted"

/-- The warning for an address of the window where nothing can be read. -/
def missingDeviceText (address : Word) : String :=
  "No input device at " ++ addressText address.toNat ++ ", read 0."

/-- An executed instruction and what it did. -/
structure Effect where
  instruction : Instruction
  outcome : Outcome
  deriving DecidableEq, Repr

namespace Effect

/-- The instruction and its result, as a trace shows them. -/
def trace (e : Effect) : String := e.instruction.text ++ " -> " ++ e.outcome.text

/-- Whether the machine stopped for good. -/
def halted (e : Effect) : Bool := e.outcome == .halted

/-- Whether the machine now waits for input. -/
def suspended (e : Effect) : Bool :=
  match e.outcome with
  | .suspended _ => true
  | _ => false

/-- The address of the window that was read in vain, if one was. -/
def missingDevice? (e : Effect) : Option Word :=
  match e.outcome with
  | .nothingToRead address => some address
  | _ => none

/-- What is worth a warning, though execution goes on. -/
def warning? (e : Effect) : Option String := e.missingDevice?.map missingDeviceText

end Effect

/-- A word that could not be executed. -/
structure Fault where
  /-- The address it was fetched from. -/
  origin : Nat
  word : Word
  tag : Tag
  cause : DecodeError
  deriving DecidableEq, Repr

def Fault.message (f : Fault) : String :=
  "Invalid instruction " ++ wordText f.word ++ " (" ++ f.tag.name ++ ") at " ++
    addressText f.origin ++ ": " ++ f.cause.message

/-! ## 2. Execution -/

/-- The value of an operand. -/
def Operand.value (m : Machine) : Operand → Word
  | .register r => m.register r
  | .immediate value => value

namespace Operation

/-- A load.  In the window only the input address can be read, and not at once. -/
def performLoad (address : Word) (m : Machine) : Outcome × Machine :=
  if address.isWindow then
    if address.toNat = inputAddress then
      (.suspended address, { m with pending := some ⟨address, .transfer⟩ })
    else (.nothingToRead address, m.setRegister .transfer 0)
  else
    let value := m.word (.ofWord address)
    (.loaded value, m.setRegister .transfer value)

/-- A store.  In the window it is output and leaves memory alone. -/
def performStore (address : Word) (m : Machine) : Outcome × Machine :=
  let value := m.register .transfer
  if address.isWindow then (.sent ⟨address, value⟩, m.send ⟨address, value⟩)
  else (.stored address value, m.setWord (.ofWord address) value)

/-- What an operation does. -/
def perform (m : Machine) : Operation → Outcome × Machine
  | .load address => performLoad address m
  | .store address => performStore address m
  | .branch target => (.jumped target, { m with pc := .ofWord target })
  | .alu op dest source operand =>
    let value := op.apply (m.register source) (operand.value m)
    (.computed dest value, m.setRegister dest value)
  | .compare source operand =>
    let flags := Flags.ofSub (m.register source) (operand.value m)
    (.compared flags, { m with flags })
  | .setPredicate condition dest =>
    let value := condition.holds m.flags
    (.tested dest value, m.setPredicate dest value)
  | .halt => (.halted, m.halt)

end Operation

/-- What an instruction does: nothing unless its predicate holds. -/
def Instruction.execute (i : Instruction) (m : Machine) : Outcome × Machine :=
  if i.predicate.holds m.predicates then i.operation.perform m else (.skipped, m)

/-- **Executing** a word with its tag.  The program counter of `m` already points past
`origin`, the address the word came from. -/
def execute (origin : Nat) (word : Word) (tag : Tag) (m : Machine) :
    Except Fault Effect × Machine :=
  match decode word tag with
  | .error cause => (.error ⟨origin, word, tag, cause⟩, m.halt)
  | .ok instruction =>
    let (outcome, m') := instruction.execute m
    (.ok ⟨instruction, outcome⟩, m')

/-- Fetching the word at the program counter and executing it. -/
def Machine.step (m : Machine) : Except Fault Effect × Machine :=
  execute m.pc.val (m.word m.pc) (m.tag m.pc) m.advance

end PredicatedCpu

/-
# The machine

All that a running program can see or change: the program counter, the registers, the flags
and the memory, and beside every word of memory the format tag it was loaded with.  A store
changes the word and never the tag.

Input and output go through the window.  A load from the input address leaves a **pending
input**: the machine cannot go on until a value is put into the register that waits for it.
A store to the window leaves a record in the output.
-/
import PredicatedCpu.Program.Basic

namespace PredicatedCpu

/-- A load that waits for a value. -/
structure PendingInput where
  address : Word
  dest : Register
  deriving DecidableEq, Repr

/-- A store to the window. -/
structure OutputRecord where
  address : Word
  value : Word
  deriving DecidableEq, Repr

/-- The state of a machine. -/
structure Machine where
  pc : Address
  registers : Vector Word 8
  flags : Flags
  predicates : Vector Bool 4
  memory : Vector Word 512
  tags : Vector Tag 512
  halted : Bool
  pending : Option PendingInput
  /-- Every store to the window so far, the first one first. -/
  output : Array OutputRecord
  deriving DecidableEq, Repr

namespace Machine

/-- A machine without a program: everything is zero and no address holds an instruction. -/
def blank : Machine where
  pc := 0
  registers := .replicate 8 0
  flags := .clear
  predicates := .replicate 4 false
  memory := .replicate 512 0
  tags := .replicate 512 .error
  halted := false
  pending := none
  output := #[]

/-- The word that a program puts at an address: zero past its end. -/
def wordOf (slots : Array Slot) (address : Nat) : Word :=
  match slots[address]? with
  | some slot => slot.word
  | none => 0

/-- The tag that a program puts at an address: none past its end. -/
def tagOf (slots : Array Slot) (address : Nat) : Tag :=
  match slots[address]? with
  | some slot => slot.tag
  | none => .error

/-- A machine with a program in its memory, from address zero on. -/
def ofProgram (p : Program) : Machine :=
  let slots := p.slots.toArray
  { blank with
    memory := .ofFn fun i => wordOf slots i.val
    tags := .ofFn fun i => tagOf slots i.val }

/-! ## 1. Looking -/

def register (m : Machine) (r : Register) : Word := m.registers.get r

def word (m : Machine) (a : Address) : Word := m.memory.get a

def tag (m : Machine) (a : Address) : Tag := m.tags.get a

/-- Whether the machine waits for input. -/
def waiting (m : Machine) : Bool := m.pending.isSome

/-! ## 2. Changing -/

def setRegister (m : Machine) (r : Register) (value : Word) : Machine :=
  { m with registers := m.registers.set r value }

def setPredicate (m : Machine) (p : PredicateRegister) (value : Bool) : Machine :=
  { m with predicates := m.predicates.set p value }

def setWord (m : Machine) (a : Address) (value : Word) : Machine :=
  { m with memory := m.memory.set a value }

def send (m : Machine) (record : OutputRecord) : Machine :=
  { m with output := m.output.push record }

def halt (m : Machine) : Machine := { m with halted := true }

/-- The machine with the program counter on the next address.  After the last address comes
the first. -/
def advance (m : Machine) : Machine := { m with pc := m.pc + 1 }

/-- Puts a value into the register that waits for it. -/
def resume (m : Machine) (pending : PendingInput) (value : Word) : Machine :=
  { m with pending := none }.setRegister pending.dest value

end Machine
end PredicatedCpu

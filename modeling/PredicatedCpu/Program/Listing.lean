/-
# Listings

A listing shows a program slot by slot: address, word, tag and the text of the instruction.
Where an address has a label, the first one defined for it stands on a line of its own above.
A slot that holds no instruction shows question marks instead of a text.
-/
import PredicatedCpu.Instruction.Disassembly
import PredicatedCpu.Program.Basic

namespace PredicatedCpu

/-- What a slot shows of its instruction. -/
def Slot.text (slot : Slot) : String :=
  match slot.decode with
  | .ok instruction => instruction.text
  | .error _ => "???"

/-- The line of a slot. -/
def Slot.line (slot : Slot) (address : Nat) : String :=
  "  " ++ addressText address ++ "  " ++ Text.hex 4 slot.word.toNat ++ "  " ++
    Text.alignLeft 6 slot.tag.name ++ "  " ++ slot.text ++ "\n"

/-- The line above the slot at an address: the label there, if there is one. -/
def SymbolTable.labelLine (table : SymbolTable) (address : Nat) : String :=
  match table.labelAt? address with
  | some label => label ++ ":\n"
  | none => ""

/-- The lines of slots that begin at `address`. -/
def listingFrom (symbols : SymbolTable) (address : Nat) : List Slot → List String
  | [] => []
  | slot :: rest =>
    (symbols.labelLine address ++ slot.line address) :: listingFrom symbols (address + 1) rest

/-- The listing of a program. -/
def Program.listing (p : Program) : String := String.join (listingFrom p.symbols 0 p.slots)

end PredicatedCpu

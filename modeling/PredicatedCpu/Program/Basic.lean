/-
# Programs

A program is a sequence of slots, one for each address from zero on, and the symbols of the
source it came from.  A slot is a word together with the tag that it is to be read with.
Programs come from the assembler or from words and tags that were stored apart.
-/
import PredicatedCpu.Instruction.Encoding
import PredicatedCpu.SymbolTable

namespace PredicatedCpu

/-- A word and the tag it is to be read with. -/
structure Slot where
  word : Word
  tag : Tag
  deriving DecidableEq, Repr

/-- The slot that holds an instruction. -/
def Slot.ofInstruction (i : Instruction) : Slot := ⟨i.word, i.tag⟩

/-- The instruction in a slot. -/
def Slot.decode (slot : Slot) : Except DecodeError Instruction :=
  PredicatedCpu.decode slot.word slot.tag

/-- What is loaded into memory, from address zero on. -/
structure Program where
  slots : List Slot
  symbols : SymbolTable
  deriving DecidableEq, Repr

/-- Why words and tags make no program. -/
inductive LoadError where
  | lengthMismatch (words tags : Nat)
  | tooLarge (words : Nat)
  deriving DecidableEq, Repr

def LoadError.message : LoadError → String
  | lengthMismatch words tags =>
    Text.decimal words ++ " words were given with " ++ Text.decimal tags ++ " format tags"
  | tooLarge words =>
    "program of " ++ Text.decimal words ++ " words does not fit in " ++
      Text.decimal memorySize ++ " words of memory"

namespace Program

def words (p : Program) : List Word := p.slots.map Slot.word

def tags (p : Program) : List Tag := p.slots.map Slot.tag

/-- How many addresses a program occupies. -/
def size (p : Program) : Nat := p.slots.length

/-- The program of words and tags that belong together in pairs.  It has no symbols. -/
def ofParts (words : List Word) (tags : List Tag) : Except LoadError Program :=
  if words.length ≠ tags.length then .error (.lengthMismatch words.length tags.length)
  else if memorySize < words.length then .error (.tooLarge words.length)
  else .ok ⟨List.zipWith Slot.mk words tags, .empty⟩

end Program
end PredicatedCpu

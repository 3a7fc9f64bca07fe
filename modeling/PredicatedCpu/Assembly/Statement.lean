/-
# Statements

A source is read line by line.  A semicolon begins a comment that goes on to the end of its
line; what is left, if anything, is a statement: a label before a colon, or an instruction, or
both.  A label that stands alone names the next instruction.

Places within a statement are counted from the front of its line, so that a statement is a
matter of the line alone; where the line lies in the source is added at the end.

* `sourceLines`: the lines of a source, numbered and located;
* `Statement.ofLine?`: the statement of a line;
* `layout`: the statements of a source with their addresses.
-/
import PredicatedCpu.Text.Fragment

namespace PredicatedCpu

/-! ## 1. Lines -/

/-- A line of a source, without its line ending. -/
structure SourceLine where
  /-- Its number, from one on. -/
  number : Nat
  /-- The byte at which it begins. -/
  start : Nat
  chars : List Char
  deriving DecidableEq, Repr

/-- A line without the carriage return that is part of its line ending. -/
def dropReturn (cs : List Char) : List Char :=
  if cs.getLast? = some '\r' then cs.dropLast else cs

/-- Numbers and locates the pieces that line feeds leave of a source.  The last piece ends
with the source: it keeps a carriage return, and is no line at all if it is empty. -/
def numberLines (number start : Nat) : List (List Char) → List SourceLine
  | [] => []
  | [last] => if last.isEmpty then [] else [⟨number, start, last⟩]
  | piece :: rest =>
    ⟨number, start, dropReturn piece⟩ ::
      numberLines (number + 1) (start + Text.byteWidth piece + 1) rest

/-- The lines of a source. -/
def sourceLines (source : String) : List SourceLine :=
  numberLines 1 0 (source.toList.splitOn '\n')

/-! ## 2. Statements -/

/-- What a line says. -/
structure Statement where
  label? : Option Fragment
  /-- The instruction, or an empty fragment if there is only a label. -/
  body : Fragment
  deriving DecidableEq, Repr

namespace Statement

/-- The statement of a line; nothing if the line is blank or only a comment. -/
def ofLine? (line : List Char) : Option Statement :=
  let code := ((Fragment.mk 0 line).takeWhile (· != ';')).trim
  if code.isEmpty then none
  else match code.splitFirst? (· == ':') with
    | some (name, rest) => some ⟨some name.trim, rest.trim⟩
    | none => some ⟨none, code⟩

/-- Whether the statement has an instruction, and so takes an address. -/
def isInstruction (s : Statement) : Bool := !s.body.isEmpty

/-- How many addresses the statement takes. -/
def size (s : Statement) : Nat := if s.isInstruction then 1 else 0

end Statement

/-! ## 3. Addresses -/

/-- A statement in its place. -/
structure Entry where
  /-- The number of its line. -/
  line : Nat
  /-- The byte at which its line begins. -/
  start : Nat
  statement : Statement
  /-- How many instructions come before it: its own address, if it has an instruction. -/
  address : Nat
  deriving DecidableEq, Repr

/-- The statements of some lines, the first at `address`. -/
def layout (address : Nat) : List SourceLine → List Entry
  | [] => []
  | line :: rest =>
    match Statement.ofLine? line.chars with
    | none => layout address rest
    | some statement =>
      ⟨line.number, line.start, statement, address⟩ :: layout (address + statement.size) rest

namespace Entry

def isInstruction (e : Entry) : Bool := e.statement.isInstruction

end Entry

/-- The statements of a source. -/
def entries (source : String) : List Entry := layout 0 (sourceLines source)

end PredicatedCpu

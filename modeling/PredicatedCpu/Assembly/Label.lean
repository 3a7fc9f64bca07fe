/-
# Labels

A label is an identifier of ASCII: a letter or an underscore, then letters, digits and
underscores.  Names that mean something in an instruction are **reserved** and cannot be
labels: registers, conditions, mnemonics, and `AL`, which as a predicate means "always".
-/
import PredicatedCpu.Flags
import PredicatedCpu.Opcode
import PredicatedCpu.Register

namespace PredicatedCpu

/-- Whether a character can begin an identifier. -/
def isIdentifierStart (c : Char) : Bool := c.isAlpha || c == '_'

/-- Whether a character can go on in an identifier. -/
def isIdentifierPart (c : Char) : Bool := c.isAlphanum || c == '_'

/-- Whether a text is an identifier. -/
def isIdentifier : List Char → Bool
  | [] => false
  | c :: rest => isIdentifierStart c && rest.all isIdentifierPart

/-- Whether a name is reserved, in either case. -/
def isReserved (name : String) : Bool :=
  (Register.ofName? name).isSome || (PredicateRegister.ofName? name).isSome ||
    (Condition.ofName? name).isSome || (Opcode.ofName? name).isSome ||
    Text.upper name == "AL"

end PredicatedCpu

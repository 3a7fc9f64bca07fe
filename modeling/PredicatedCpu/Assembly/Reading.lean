/-
# Reading an instruction

From the text of an instruction to the instruction, or to the first thing that is wrong with
it.  The parts are read from left to right: the predicate, the mnemonic, the number of
operands, then each operand.  Each function takes a fragment, which says where to point if the
reading fails.

Names may be written in either case, and blanks may stand around the predicate, the mnemonic
and every operand.  Labels are looked up in a symbol table that is complete already, so a
label may be used before the line that defines it.
-/
import PredicatedCpu.Assembly.Diagnostic
import PredicatedCpu.Assembly.Label
import PredicatedCpu.SymbolTable

namespace PredicatedCpu

/-- A finding that points at a fragment. -/
def Fragment.finding (f : Fragment) (problem : Problem) : Finding := ⟨problem, f.span⟩

/-! ## 1. Operands -/

/-- A word register. -/
def readRegister (f : Fragment) : Except Finding Register :=
  match Register.ofName? f.text with
  | some r => .ok r
  | none => .error (f.finding (.notRegister f.text))

/-- An immediate behind its `#`: a decimal, hexadecimal or binary numeral up to seven.  Where
the value is not even below 2^32 the text is not taken for a numeral. -/
def readImmediate (f : Fragment) (digits : List Char) : Except Finding Operand :=
  match Text.numeralBelow? (.pow 2 32) .all digits with
  | none => .error (f.finding (.malformedImmediate f.text))
  | some value =>
    if 7 < value then .error (f.finding (.wideImmediate f.text))
    else .ok (.immediate (Word.ofNat value))

/-- The last operand of a computing or comparing instruction. -/
def readOperand (f : Fragment) : Except Finding Operand :=
  match f.chars with
  | '#' :: digits => readImmediate f digits
  | _ =>
    match Register.ofName? f.text with
    | some r => .ok (.register r)
    | none => .error (f.finding (.notOperand f.text))

/-- The number that an address stands for, not yet held against the size of memory.  A text
that begins with a digit is a decimal or hexadecimal numeral, and an identifier is a label. -/
def addressValue (symbols : SymbolTable) (f : Fragment) : Except Finding Nat :=
  if (f.chars.head?.map Char.isDigit).getD false then
    match Text.numeralBelow? (.pow 2 32) .hex f.chars with
    | some value => .ok value
    | none => .error (f.finding (.malformedAddress f.text))
  else if isIdentifier f.chars then
    match symbols.get? f.text with
    | some address => .ok address
    | none => .error (f.finding (.undefinedLabel f.text))
  else .error (f.finding (.malformedAddress f.text))

/-- The address of a load, a store or a branch. -/
def readAddress (symbols : SymbolTable) (f : Fragment) : Except Finding Word := do
  let value ← addressValue symbols f
  if value < memorySize then .ok (Word.ofNat value)
  else .error (f.finding (.farAddress f.text))

/-- The condition that is to be answered. -/
def readCondition (f : Fragment) : Except Finding Condition :=
  match Condition.ofName? f.text with
  | some condition => .ok condition
  | none => .error (f.finding (.unknownCondition f.text))

/-- The one-bit register that is to be set, which is not `P0`. -/
def readDestination (f : Fragment) : Except Finding PredicateRegister :=
  match PredicateRegister.ofName? f.text with
  | none => .error (f.finding (.notPredicateRegister f.text))
  | some p => if p = 0 then .error (f.finding .readOnlyPredicate) else .ok p

/-! ## 2. Operations -/

/-- The operands in a text: what stands between commas, and none at all if it is empty. -/
def splitOperands (f : Fragment) : List Fragment :=
  if f.isEmpty then [] else (f.splitOn ',').map Fragment.trim

/-- An operation from its opcode and its operands.  `miscounted` is the finding for the wrong
number of operands. -/
def readOperation (symbols : SymbolTable) (miscounted : Finding) :
    Opcode → List Fragment → Except Finding Operation
  | .ldr, [address] => do return .load (← readAddress symbols address)
  | .str, [address] => do return .store (← readAddress symbols address)
  | .b, [target] => do return .branch (← readAddress symbols target)
  | .alu op, [dest, source, operand] => do
    let dest ← readRegister dest
    let source ← readRegister source
    return .alu op dest source (← readOperand operand)
  | .cmp, [source, operand] => do
    let source ← readRegister source
    return .compare source (← readOperand operand)
  | .setp, [condition, dest] => do
    let condition ← readCondition condition
    return .setPredicate condition (← readDestination dest)
  | .hlt, [] => .ok .halt
  | _, _ => .error miscounted

/-- An operation from the text of a mnemonic and the text of all its operands. -/
def readOperationOf (symbols : SymbolTable) (mnemonic operands : Fragment) :
    Except Finding Operation :=
  match Opcode.ofName? mnemonic.text with
  | none => .error (mnemonic.finding (.unknownMnemonic mnemonic.text))
  | some opcode =>
    let fragments := splitOperands operands
    let place := if operands.isEmpty then mnemonic else operands
    readOperation symbols (place.finding (.operandCount opcode fragments.length)) opcode
      fragments

/-! ## 3. Instructions -/

/-- The predicate in front of an instruction, in parentheses, and what follows it.  Without
parentheses the predicate is "always". -/
def readPredicate (body : Fragment) : Except Finding (Predicate × Fragment) :=
  match body.chars with
  | '(' :: _ =>
    match body.splitFirst? (· == ')') with
    | none => .error (body.finding .unclosedPredicate)
    | some (opened, rest) =>
      let inner := opened.chars.drop 1
      match Predicate.ofText? (String.ofList inner) with
      | some predicate => .ok (predicate, rest.trimStart)
      | none =>
        .error ⟨.unknownPredicate (String.ofList (Text.trim inner)),
          ⟨body.start, rest.start - body.start⟩⟩
  | _ => .ok (.always, body)

/-- The mnemonic at the front of a text and the text of the operands behind it. -/
def splitMnemonic (f : Fragment) : Fragment × Fragment :=
  match f.splitFirst? Text.isBlank with
  | some (mnemonic, operands) => (mnemonic, operands.trim)
  | none => (f, ⟨f.stop, []⟩)

/-- **Reading an instruction.**  `body` is the text of a line without label and comment. -/
def readInstruction (symbols : SymbolTable) (body : Fragment) : Except Finding Instruction := do
  let (predicate, rest) ← readPredicate body
  let (mnemonic, operands) := splitMnemonic rest
  if mnemonic.isEmpty then .error (body.finding .missingInstruction)
  else return ⟨predicate, ← readOperationOf symbols mnemonic operands⟩

end PredicatedCpu

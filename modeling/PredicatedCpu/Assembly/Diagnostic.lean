/-
# Diagnostics

What can be wrong with a source line, what is said about it, and where it points.

* `Problem`: the causes, one constructor for each, with what the message quotes;
* `Category`: the eight kinds into which problems are sorted, each with a code, a hint and a
  label for the marked place;
* `Finding`: a problem and its place within a line;
* `Diagnostic`: a problem, its line and its place in the whole source.
-/
import PredicatedCpu.Instruction.Disassembly
import PredicatedCpu.Text.Fragment

namespace PredicatedCpu

/-! ## 1. Causes -/

/-- What is wrong with a line. -/
inductive Problem where
  /-- A label for an address that memory does not have. -/
  | labelPastEnd (name : String) (address : Nat)
  | malformedLabel (name : String)
  | reservedLabel (name : String)
  | duplicateLabel (name : String) (existing : Nat)
  /-- More instructions than there are addresses. -/
  | programTooLarge (instructions : Nat)
  | unclosedPredicate
  | unknownPredicate (text : String)
  /-- Nothing follows the predicate. -/
  | missingInstruction
  | unknownMnemonic (text : String)
  | operandCount (opcode : Opcode) (found : Nat)
  | notRegister (text : String)
  | notOperand (text : String)
  | malformedImmediate (text : String)
  /-- An immediate above seven. -/
  | wideImmediate (text : String)
  | malformedAddress (text : String)
  | undefinedLabel (text : String)
  /-- An address that memory does not have. -/
  | farAddress (text : String)
  | unknownCondition (text : String)
  /-- `P0` as a destination. -/
  | readOnlyPredicate
  | notPredicateRegister (text : String)
  deriving DecidableEq, Repr

/-! ## 2. Categories -/

/-- The kinds of problems. -/
inductive Category where
  | unknownMnemonic
  | operandCount
  | outOfRange
  | undefinedLabel
  | duplicateLabel
  | reservedLabel
  | programTooLarge
  | malformed
  deriving DecidableEq, Repr

namespace Category

/-- The short name under which a category can be looked up. -/
def code : Category → String
  | unknownMnemonic => "asm::mnemonic"
  | operandCount => "asm::operands"
  | outOfRange => "asm::range"
  | undefinedLabel => "asm::undefined_label"
  | duplicateLabel => "asm::duplicate_label"
  | reservedLabel => "asm::reserved_label"
  | programTooLarge => "asm::too_large"
  | malformed => "asm::syntax"

/-- What helps against a problem of the category. -/
def help : Category → String
  | unknownMnemonic =>
    "available mnemonics: LDR STR ADD SUB AND ORR XOR MOV CMP LSHL LSHR SETP B HLT"
  | operandCount => "check the operands for this instruction"
  | outOfRange => "addresses range from 0 to 511 and immediates from #0 to #7"
  | undefinedLabel => "labels must be defined somewhere in the file"
  | duplicateLabel => "labels are only allowed once per file"
  | reservedLabel => "register, predicate, condition and mnemonic names cannot be labels"
  | programTooLarge => "programs may contain at most 512 instructions"
  | malformed => "check the syntax of this line"

/-- What is written at the marked place. -/
def label : Category → String
  | unknownMnemonic => "unknown mnemonic"
  | operandCount => "wrong operand count"
  | outOfRange => "out of range"
  | undefinedLabel => "undefined label"
  | duplicateLabel => "duplicate label"
  | reservedLabel => "reserved name"
  | programTooLarge => "does not fit in memory"
  | malformed => "invalid syntax"

end Category

namespace Problem

def category : Problem → Category
  | labelPastEnd .. => .outOfRange
  | malformedLabel .. => .malformed
  | reservedLabel .. => .reservedLabel
  | duplicateLabel .. => .duplicateLabel
  | programTooLarge .. => .programTooLarge
  | unclosedPredicate => .malformed
  | unknownPredicate .. => .malformed
  | missingInstruction => .malformed
  | unknownMnemonic .. => .unknownMnemonic
  | operandCount .. => .operandCount
  | notRegister .. => .malformed
  | notOperand .. => .malformed
  | malformedImmediate .. => .outOfRange
  | wideImmediate .. => .outOfRange
  | malformedAddress .. => .outOfRange
  | undefinedLabel .. => .undefinedLabel
  | farAddress .. => .outOfRange
  | unknownCondition .. => .malformed
  | readOnlyPredicate => .malformed
  | notPredicateRegister .. => .malformed

/-! ## 3. Messages -/

/-- A piece of the source, set off from the sentence that quotes it. -/
def quoted (text : String) : String := "`" ++ text ++ "`"

def message : Problem → String
  | labelPastEnd name address =>
    "Label " ++ quoted name ++ " would point past the end of memory (" ++
      addressText address ++ ")"
  | malformedLabel name => "Invalid label name " ++ quoted name
  | reservedLabel name => "Label " ++ quoted name ++ " uses a reserved name"
  | duplicateLabel name existing =>
    "Label " ++ quoted name ++ " is already defined at " ++ addressText existing
  | programTooLarge instructions =>
    "Program has " ++ Text.decimal instructions ++ " instructions but memory holds " ++
      Text.decimal memorySize
  | unclosedPredicate => "Unclosed predicate, expected `)`"
  | unknownPredicate text => "Unknown predicate " ++ quoted ("(" ++ text ++ ")")
  | missingInstruction => "Expected an instruction after the predicate"
  | unknownMnemonic text => "Unknown mnemonic " ++ quoted text
  | operandCount opcode found =>
    opcode.mnemonic ++ " expects " ++ Text.decimal opcode.arity ++ " " ++
      Text.plural opcode.arity "operand" ++ ", found " ++ Text.decimal found
  | notRegister text => "Expected register R0-R7, found " ++ quoted text
  | notOperand text => "Expected register or #immediate, found " ++ quoted text
  | malformedImmediate text => "Invalid immediate " ++ quoted text
  | wideImmediate text => "Immediate " ++ text ++ " does not fit in 3 bits (#0 to #7)"
  | malformedAddress text => "Invalid address " ++ quoted text
  | undefinedLabel text => "Undefined label " ++ quoted text
  | farAddress text => "Address " ++ quoted text ++ " is outside memory (0 to 511)"
  | unknownCondition text => "Unknown condition " ++ quoted text
  | readOnlyPredicate => "SETP cannot write P0, use P1, P2 or P3"
  | notPredicateRegister text =>
    "Expected predicate register P1-P3, found " ++ quoted text

end Problem

/-! ## 4. Places -/

/-- A problem and its place, counted from the front of the line. -/
structure Finding where
  problem : Problem
  span : Span
  deriving DecidableEq, Repr

/-- A problem of a source. -/
structure Diagnostic where
  problem : Problem
  /-- The number of the line, from one on. -/
  line : Nat
  /-- The place, counted from the front of the source. -/
  span : Span
  deriving DecidableEq, Repr

/-- What is said about a diagnostic where nothing can be marked. -/
def Diagnostic.text (d : Diagnostic) : String :=
  "line " ++ Text.decimal d.line ++ ": " ++ d.problem.message

/-- The headline over diagnostics. -/
def Diagnostic.headline (ds : List Diagnostic) : String :=
  "Assembly failed with " ++ Text.decimal ds.length ++ " " ++ Text.plural ds.length "error"

/-- All that is said about a source that cannot be assembled. -/
def Diagnostic.report (ds : List Diagnostic) : String :=
  headline ds ++ String.join (ds.map fun d => "\n  " ++ d.text)

end PredicatedCpu

/-
# Assembling

A source is assembled as a whole: either every statement is in order and a program comes out,
or everything that is wrong with it comes out, line by line.

The statements are gone through twice.  The first pass defines the labels, each for the number
of instructions before it, and ends by asking whether memory holds all instructions.  The second
one reads the instructions, which may refer to labels further down.  What either of them finds
wrong is put down as it is found, so it takes a stable sort to get it in the order of the lines.

A statement that is wrong keeps its address, so it does not move what follows it, and it has
no part in what is wrong with any other.
-/
import PredicatedCpu.Assembly.Reading
import PredicatedCpu.Assembly.Statement
import PredicatedCpu.Program.Basic

namespace PredicatedCpu

/-! ## 1. Labels -/

/-- Defines a label for an address, or finds what is wrong with it. -/
def defineLabel (table : SymbolTable) (name : Fragment) (address : Nat) :
    Except Finding SymbolTable :=
  if memorySize ≤ address then .error (name.finding (.labelPastEnd name.text address))
  else if !isIdentifier name.chars then .error (name.finding (.malformedLabel name.text))
  else if isReserved name.text then .error (name.finding (.reservedLabel name.text))
  else match table.insert name.text address with
    | .ok table' => .ok table'
    | .error existing => .error (name.finding (.duplicateLabel name.text existing))

namespace Entry

/-- Defines the label of a statement, if it has one. -/
def defineLabel (table : SymbolTable) (e : Entry) : Except Finding SymbolTable :=
  match e.statement.label? with
  | none => .ok table
  | some name => PredicatedCpu.defineLabel table name e.address

/-- The table after a statement.  A label that is wrong defines nothing. -/
def extend (table : SymbolTable) (e : Entry) : SymbolTable :=
  match e.defineLabel table with
  | .ok table' => table'
  | .error _ => table

/-- The instruction of a statement. -/
def instruction (symbols : SymbolTable) (e : Entry) : Except Finding Instruction :=
  readInstruction symbols e.statement.body

/-- A finding about a statement, located in the whole source. -/
def diagnostic (e : Entry) (finding : Finding) : Diagnostic :=
  ⟨finding.problem, e.line, finding.span.shift e.start⟩

end Entry

/-- The labels of some statements. -/
def symbolsOf (es : List Entry) : SymbolTable := es.foldl Entry.extend .empty

/-! ## 2. Two passes -/

/-- What a result complains of. -/
def complaints {α : Type} : Except Finding α → List Finding
  | .ok _ => []
  | .error finding => [finding]

namespace Entry

/-- What is wrong with the label of a statement, given the labels before it. -/
def labelFindings (before : SymbolTable) (e : Entry) : List Finding :=
  complaints (e.defineLabel before)

/-- What is wrong with the instruction of a statement, given all labels. -/
def instructionFindings (symbols : SymbolTable) (e : Entry) : List Finding :=
  complaints (e.instruction symbols)

end Entry

/-- **The first pass**: what is wrong with the labels of some statements, each of which is defined
behind those before it. -/
def labelDiagnostics (before : SymbolTable) : List Entry → List Diagnostic
  | [] => []
  | e :: rest =>
    (e.labelFindings before).map e.diagnostic ++ labelDiagnostics (e.extend before) rest

/-- The end of the first pass: the first of the instructions that memory does not hold is blamed
for all that follow. -/
def sizeDiagnostics (instructions : List Entry) : List Diagnostic :=
  match instructions[memorySize]? with
  | none => []
  | some e => [e.diagnostic (e.statement.body.finding (.programTooLarge instructions.length))]

/-- **The second pass**: what is wrong with the instructions, all labels being known. -/
def instructionDiagnostics (symbols : SymbolTable) (instructions : List Entry) :
    List Diagnostic :=
  instructions.flatMap fun e => (e.instructionFindings symbols).map e.diagnostic

/-- The statements of a source that have an instruction. -/
def instructionEntries (source : String) : List Entry :=
  (entries source).filter Entry.isInstruction

/-- All that is wrong with a source, in the order in which it is **found**. -/
def found (source : String) : List Diagnostic :=
  labelDiagnostics .empty (entries source) ++ sizeDiagnostics (instructionEntries source) ++
    instructionDiagnostics (symbolsOf (entries source)) (instructionEntries source)

/-- Diagnostics in the order of their lines.  Those of one line stay as they are. -/
def inLineOrder (ds : List Diagnostic) : List Diagnostic :=
  ds.mergeSort fun d d' => d.line ≤ d'.line

/-! ## 3. Programs -/

/-- The slot of a statement.  A statement that is wrong leaves none. -/
def Entry.slot? (symbols : SymbolTable) (e : Entry) : Option Slot :=
  match e.instruction symbols with
  | .ok instruction => some (.ofInstruction instruction)
  | .error _ => none

/-- **Assembling** a source: its program, or all that is wrong with it. -/
def assemble (source : String) : Except (List Diagnostic) Program :=
  match found source with
  | [] =>
    let symbols := symbolsOf (entries source)
    .ok ⟨(instructionEntries source).filterMap (Entry.slot? symbols), symbols⟩
  | ds => .error (inLineOrder ds)

end PredicatedCpu

import PredicatedCpu.Assembly.Assemble
import PredicatedCpu.Assembly.Diagnostic
import PredicatedCpu.Assembly.Label
import PredicatedCpu.Assembly.Reading
import PredicatedCpu.Assembly.Statement
import PredicatedCpu.CommandLine.Invocation
import PredicatedCpu.CommandLine.Path
import PredicatedCpu.CommandLine.Perform
import PredicatedCpu.Flags
import PredicatedCpu.Instruction.Basic
import PredicatedCpu.Instruction.Disassembly
import PredicatedCpu.Instruction.Encoding
import PredicatedCpu.Machine.Basic
import PredicatedCpu.Machine.Execute
import PredicatedCpu.Machine.InputValue
import PredicatedCpu.Main
import PredicatedCpu.Opcode
import PredicatedCpu.Predicate
import PredicatedCpu.Program.Basic
import PredicatedCpu.Program.Listing
import PredicatedCpu.Proofs.Assembly.Acceptance
import PredicatedCpu.Proofs.Assembly.Canonical
import PredicatedCpu.Proofs.Assembly.Casing
import PredicatedCpu.Proofs.Assembly.Diagnosis
import PredicatedCpu.Proofs.Assembly.Findings
import PredicatedCpu.Proofs.Assembly.Lines
import PredicatedCpu.Proofs.Assembly.Linking
import PredicatedCpu.Proofs.Assembly.Order
import PredicatedCpu.Proofs.Assembly.Range
import PredicatedCpu.Proofs.Assembly.RoundTrip
import PredicatedCpu.Proofs.Assembly.Statements
import PredicatedCpu.Proofs.Assembly.WellFormed
import PredicatedCpu.Proofs.Instruction.Fits
import PredicatedCpu.Proofs.Instruction.RoundTrip
import PredicatedCpu.Proofs.Machine.CompareAndBranch
import PredicatedCpu.Proofs.Machine.Comparison
import PredicatedCpu.Proofs.Machine.Feeding
import PredicatedCpu.Proofs.Machine.Frame
import PredicatedCpu.Proofs.Machine.InputValue
import PredicatedCpu.Proofs.Machine.Stepping
import PredicatedCpu.Proofs.Session.Appearance
import PredicatedCpu.Proofs.Session.Chronicle
import PredicatedCpu.Proofs.Session.Lockstep
import PredicatedCpu.Proofs.Session.MemoryCommand
import PredicatedCpu.Proofs.Session.Output
import PredicatedCpu.Proofs.Session.Steps
import PredicatedCpu.Proofs.Session.Unattended
import PredicatedCpu.Proofs.Simulator.Input
import PredicatedCpu.Proofs.Simulator.Lifetime
import PredicatedCpu.Proofs.Simulator.LoadedProgram
import PredicatedCpu.Proofs.Simulator.Memory
import PredicatedCpu.Proofs.Simulator.Output
import PredicatedCpu.Proofs.Simulator.Pacing
import PredicatedCpu.Proofs.Simulator.Past
import PredicatedCpu.Proofs.Simulator.Predication
import PredicatedCpu.Proofs.Simulator.Provenance
import PredicatedCpu.Proofs.Simulator.Refusal
import PredicatedCpu.Proofs.Simulator.Replay
import PredicatedCpu.Proofs.Simulator.Restart
import PredicatedCpu.Proofs.Simulator.Standstill
import PredicatedCpu.Proofs.Simulator.Status
import PredicatedCpu.Proofs.Simulator.StraightLine
import PredicatedCpu.Proofs.Simulator.Transition
import PredicatedCpu.Proofs.Text.Casing
import PredicatedCpu.Proofs.Text.Cutting
import PredicatedCpu.Proofs.Text.Numerals
import PredicatedCpu.Proofs.Text.Pieces
import PredicatedCpu.Proofs.Text.Written
import PredicatedCpu.Register
import PredicatedCpu.Session.Basic
import PredicatedCpu.Session.Command
import PredicatedCpu.Session.Debugged
import PredicatedCpu.Session.Report
import PredicatedCpu.Session.Unattended
import PredicatedCpu.Settings
import PredicatedCpu.Simulator.Basic
import PredicatedCpu.Simulator.Journal
import PredicatedCpu.Simulator.Request
import PredicatedCpu.Simulator.Status
import PredicatedCpu.SymbolTable
import PredicatedCpu.Terminal.Colour
import PredicatedCpu.Terminal.Console
import PredicatedCpu.Text.Blank
import PredicatedCpu.Text.Case
import PredicatedCpu.Text.Column
import PredicatedCpu.Text.Fragment
import PredicatedCpu.Text.Numeral
import PredicatedCpu.Word
import PredicatedCpu.Proofs.Assembly.Literals
import PredicatedCpu.Proofs.Assembly.Placement
import PredicatedCpu.Proofs.Assembly.Locality
import PredicatedCpu.Proofs.Text.Tokens
import PredicatedCpu.Proofs.Assembly.Grammar
import PredicatedCpu.Proofs.Assembly.Layout
import PredicatedCpu.Proofs.Simulator.StatusLine
import PredicatedCpu.Proofs.Simulator.Journal
import PredicatedCpu.Proofs.Text.Words
import PredicatedCpu.Proofs.Session.Stepping
import PredicatedCpu.Proofs.Session.Sources
import PredicatedCpu.Proofs.Terminal.Visible
import PredicatedCpu.Proofs.SymbolTable
import PredicatedCpu.Proofs.Program.Listing
import PredicatedCpu.Proofs.Session.Wording
import PredicatedCpu.Proofs.Session.Colour

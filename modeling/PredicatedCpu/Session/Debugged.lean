/-
# Debugged sessions

With a debugger a session executes commands until it is told to quit or there are no more.
They come either from a script, which is one text with commands between semicolons and line
feeds, or from the lines of the standard input, for each of which there is a prompt.
-/
import PredicatedCpu.Session.Command
import PredicatedCpu.Program.Listing
import PredicatedCpu.Session.Unattended

namespace PredicatedCpu
namespace Session

/-! ## 1. Commands -/

/-- Executes up to `count` instructions, one by one.  It ends early when the machine cannot go
on. -/
def stepMany : Nat → Session → Session
  | 0, s => s
  | count + 1, s =>
    let (response, stepped) := s.ask .step
    let flushed := stepped.flush
    match response.complaint? with
    | some text => flushed.complain text
    | none =>
      if flushed.simulator.status = .paused then stepMany count flushed else flushed

/-- Runs until the machine halts or waits. -/
def runToEnd (limit : Nat) (interval? : Option Nat) (s : Session) : Option Session :=
  let (response, begun) := s.ask (.run (interval?.getD s.interval) s.clock)
  match response.complaint? with
  | some text => some (begun.complain text)
  | none => (begun.drive limit).map reportStatus

/-- Gives a value to the machine if it waits for one. -/
def provide (value : String) (s : Session) : Session :=
  let (response, provided) := s.ask (.provideInput value)
  match response.complaint? with
  | some text => provided.complain text
  | none => provided.flush

/-- Counts the output records from the start again, as a fresh machine does. -/
def rewind (s : Session) : Session := { s with printed := 0 }

/-- Loads the program again, if there is one. -/
def restart (s : Session) : Session :=
  let (response, restarted) := s.ask .restart
  match response.complaint? with
  | some text => restarted.complain text
  | none => restarted.rewind.flush

/-- Shows the program that was loaded last. -/
def showListing (s : Session) : Session :=
  match s.simulator.program? with
  | some p => s.tell p.listing
  | none => s.complain "No program loaded"

/-- What a command does. -/
def execute (limit : Nat) (s : Session) : Command → Option Session
  | .step count => some (s.stepMany count).reportStatus
  | .run interval? => s.runToEnd limit interval?
  | .input value => some (s.provide value)
  | .registers => some (s.tell (Report.registers s.console.minimal s.simulator.machine))
  | .memory first count =>
    some (s.tell (Report.memory s.console.minimal s.simulator.machine first count))
  | .output => some (s.tell (Report.output s.simulator.machine))
  | .list => some s.showListing
  | .status => some s.reportStatus
  | .reset => some (s.ask .reset).2.rewind.flush.reportStatus
  | .restart => some s.restart.reportStatus
  | .help => some (s.tell (Command.helpText ++ "\n"))
  | .quit => some s

/-! ## 2. Sources of commands -/

/-- Where commands come from. -/
inductive CommandSource where
  | script (text : String)
  | terminal
  deriving DecidableEq, Repr

/-- The commands of a script. -/
def scriptCommands (text : String) : List String :=
  (((text.toList.splitOnP fun c => c == ';' || c == '\n').map Text.trim).filter
    fun command => !command.isEmpty).map String.ofList

/-- Asks for a command. -/
def promptCommand (s : Session) : Session :=
  let c := s.console.startLine
  { s with console := c.mention (c.paint .blue ">" ++ " ") }

/-- What happens before a command is read: nothing if it comes from a script. -/
def awaitCommand (source : CommandSource) (s : Session) : Session :=
  match source with
  | .script _ => s
  | .terminal => s.promptCommand

/-- What happens when a command has been read. -/
def commandRead (source : CommandSource) (s : Session) : Session :=
  match source with
  | .script _ => s
  | .terminal => { s with console := s.console.lineEntered }

/-- Whether nothing is on a line but blanks. -/
def isBlankLine (line : String) : Bool := line.toList.all Text.isBlank

/-- Reads and executes commands until one is to quit or no line is left. -/
def obey (limit : Nat) (source : CommandSource) : List String → Session → Option Session
  | [], s => some (s.awaitCommand source)
  | line :: rest, s =>
    let s := (s.awaitCommand source).commandRead source
    if isBlankLine line then obey limit source rest s
    else match Command.parse line with
      | .ok .quit => some s
      | .ok command =>
        match s.execute limit command with
        | none => none
        | some s' => obey limit source rest s'
      | .error e => obey limit source rest (s.complain e.message)

/-- The lines that hold the commands. -/
def CommandSource.lines (stdin : String) : CommandSource → List String
  | .script text => scriptCommands text
  | .terminal => inputLines stdin

/-- **A debugged session** from its start to its end. -/
def runDebugged (limit : Nat) (source : CommandSource) (stdin : String) (s : Session) :
    Option Session :=
  s.obey limit source (source.lines stdin)

end Session
end PredicatedCpu

/-
# Unattended sessions

Without a debugger a session runs its program from the start to the end.  Whenever the machine
waits for input it is given the next answer: first those that were queued up, then the lines of
the standard input, for each of which it prompts.  It ends when the machine halts, or when it
waits and no answer is left.
-/
import PredicatedCpu.Session.Basic

namespace PredicatedCpu

/-- What can be given to a machine that waits. -/
inductive Answer where
  /-- A text that was there from the start. -/
  | queued (text : String)
  /-- A line of the standard input, read after a prompt. -/
  | typed (line : String)
  deriving DecidableEq, Repr

/-- The text of an answer. -/
def Answer.text : Answer → String
  | queued text => text
  | typed line => line

/-- The lines of the standard input as they are read: without blanks at the end, the line
ending among them.  The last piece is a line if anything is in it. -/
def inputLines (stdin : String) : List String :=
  let pieces := stdin.toList.splitOn '\n'
  let lines := match pieces.getLast? with
    | some [] => pieces.dropLast
    | _ => pieces
  lines.map fun line => String.ofList (Text.trimEnd line)

namespace Session

/-- Asks for a value. -/
def promptInput (s : Session) : Session :=
  let c := s.console.startLine
  { s with console := c.tell (c.margin .green "Input" ++ " ") }

/-- Gives an answer to the waiting machine; a typed one after a prompt. -/
def give (s : Session) (answer : Answer) : Session :=
  let asked := match answer with
    | .queued _ => s
    | .typed _ => { s.promptInput with console := s.promptInput.console.lineEntered }
  match asked.ask (.provideInput answer.text) with
  | (.done, s') => s'.flush
  | (response, s') => s'.complain (response.complaint?.getD "")

/-- Finds that no answer is left. -/
def giveUp (s : Session) : Session :=
  let asked := s.promptInput
  asked.tell (asked.console.paint .yellow "No more input. Stopping." ++ "\n")

/-- Runs until the machine halts or no answer is left.  Beside the session there are the
answers that nobody asked for. -/
def runAnswering (limit : Nat) (answers : List Answer) (s : Session) :
    Option (Session × List Answer) :=
  match s.ask (.run s.interval s.clock) with
  | (.done, begun) =>
    match begun.drive limit with
    | none => none
    | some stopped =>
      if stopped.simulator.status = .waitingForInput then
        match answers with
        | [] => some (stopped.giveUp, [])
        | answer :: rest => runAnswering limit rest (stopped.give answer)
      else some (stopped, answers)
  | (response, s') => some (s'.complain (response.complaint?.getD ""), answers)

/-- Tells of a halt. -/
def reportHalt (s : Session) : Session :=
  if s.simulator.status = .halted then
    let c := s.console.startLine
    { s with
      console := c.tell (c.margin .cyan "Halted" ++ " " ++ s.simulator.statusLine.text ++ "\n") }
  else s

/-- The answers of a session, in the order in which they are given. -/
def answers (queued : List String) (stdin : String) : List Answer :=
  queued.map .queued ++ (inputLines stdin).map .typed

/-- **An unattended session** from its start to its end, and the answers left over. -/
def runUnattended (limit : Nat) (queued : List String) (stdin : String) (s : Session) :
    Option (Session × List Answer) :=
  (s.runAnswering limit (answers queued stdin)).map fun (s', rest) => (s'.reportHalt, rest)

end Session
end PredicatedCpu

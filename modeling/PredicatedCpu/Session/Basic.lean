/-
# Sessions

A session runs one program on a simulator and reports on a console.  It takes the entries of
the journal and the new output records after every step, so that they appear in the order in
which they came about.

A run may go on for ever.  Whatever drives one is therefore given a `limit` on the number of
scheduled steps, and has no result if the run has not ended by then; a limit that is high
enough makes no other difference.
-/
import PredicatedCpu.Session.Report
import PredicatedCpu.Simulator.Request

namespace PredicatedCpu

/-- How a session behaves. -/
structure Session.Options where
  /-- Whether every executed instruction is reported. -/
  trace : Bool
  minimal : Bool
  colour : Bool
  /-- The milliseconds between the steps of a run. -/
  interval : Nat
  deriving DecidableEq, Repr

/-- A simulator, its console and how far the one was reported on the other. -/
structure Session where
  simulator : Simulator
  console : Console
  trace : Bool
  interval : Nat
  /-- How many of the machine's output records were written. -/
  printed : Nat
  /-- The present moment. -/
  clock : Time
  deriving DecidableEq, Repr

namespace Session

/-- A session with a program loaded and nothing reported. -/
def start (p : Program) (options : Options) : Session where
  simulator := (Simulator.initial.load p).drain.2
  console := .fresh options.colour options.minimal
  trace := options.trace
  interval := options.interval
  printed := 0
  clock := 0

/-! ## 1. Reporting -/

def tell (s : Session) (text : String) : Session := { s with console := s.console.tell text }

def complain (s : Session) (text : String) : Session :=
  { s with console := s.console.complain text }

/-- Reports an entry of the journal.  Entries that are only information count as trace. -/
def reportEvent (s : Session) (event : Event) : Session :=
  match event.level with
  | .info =>
    if s.trace then { s with console := s.console.mention (Report.entry s.console event) } else s
  | .warning | .error => s.tell (Report.entry s.console event)

/-- Reports what the journal holds, and empties it. -/
def reportJournal (s : Session) : Session :=
  let (events, simulator) := s.simulator.drain
  events.foldl reportEvent { s with simulator }

/-- Writes the output records that were not written yet. -/
def reportOutput (s : Session) : Session :=
  let output := s.simulator.machine.output
  { s with
    console := (output.extract s.printed output.size).foldl
      (fun c record => c.write (Report.outputLine record)) s.console
    printed := output.size }

/-- Reports everything new. -/
def flush (s : Session) : Session := s.reportJournal.reportOutput

/-- Reports where the simulator stands. -/
def reportStatus (s : Session) : Session := s.tell (Report.status s.simulator)

/-! ## 2. Driving -/

/-- Puts a request to the simulator. -/
def ask (s : Session) (request : Request) : Response × Session :=
  let (response, simulator) := s.simulator.respond request
  (response, { s with simulator })

/-- Executes the next scheduled step, at the moment when it is due. -/
def tick (s : Session) (schedule : Schedule) : Session :=
  let now := max s.clock schedule.due
  { (s.ask (.tick now)).2 with clock := now }.flush

/-- Executes scheduled steps until the schedule ends. -/
def drive : Nat → Session → Option Session
  | 0, _ => none
  | limit + 1, s =>
    match s.simulator.schedule? with
    | none => some s
    | some schedule => drive limit (s.tick schedule)

end Session
end PredicatedCpu

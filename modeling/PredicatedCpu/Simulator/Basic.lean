/-
# The simulator

The simulator owns a machine and decides when it executes.  Running is a schedule and not a
loop: `run` makes a step due, and whoever holds the simulator calls `tick` as time goes by.
Time is an argument, in nanoseconds from any fixed moment, so that nothing here has to ask for
it.

Every function is a request that is answered: it yields a `Response` and the simulator after
it.  A request that cannot be met is refused, and then nothing has changed.  At most one
instruction is executed on one request.
-/
import PredicatedCpu.Assembly.Assemble
import PredicatedCpu.Machine.InputValue
import PredicatedCpu.Simulator.Journal
import PredicatedCpu.Simulator.Status

namespace PredicatedCpu

/-! ## 1. State -/

/-- A moment, in nanoseconds. -/
abbrev Time := Int

/-- When steps are to be executed. -/
structure Schedule where
  /-- The least time between two steps, in nanoseconds. -/
  interval : Nat
  /-- The moment from which the next step may be executed. -/
  due : Time
  deriving DecidableEq, Repr

/-- The schedule of a run that begins now.  An interval is at least a millisecond. -/
def Schedule.starting (milliseconds : Nat) (now : Time) : Schedule :=
  ⟨max milliseconds 1 * 1000000, now⟩

/-- A machine and what is known of its program and its progress. -/
structure Simulator where
  machine : Machine
  /-- The program loaded last, whether or not it is still in the machine. -/
  program? : Option Program
  loaded : Bool
  schedule? : Option Schedule
  /-- How many instructions were executed since the program was loaded. -/
  steps : Nat
  statusLine : StatusLine
  /-- The entries that nobody has taken yet, the oldest one first. -/
  journal : Array Event
  deriving DecidableEq, Repr

/-- Why a request cannot be met. -/
inductive Refusal where
  | notLoaded
  | halted
  | waitingForInput
  | alreadyRunning
  | notWaiting
  deriving DecidableEq, Repr

def Refusal.message : Refusal → String
  | notLoaded => "No program is loaded"
  | halted => "Machine is halted, reset to continue"
  | waitingForInput => "Machine is waiting for input"
  | alreadyRunning => "Machine is already running"
  | notWaiting => "Machine is not waiting for input"

/-- What a request is answered with. -/
inductive Response where
  /-- It was met, and there is nothing to tell. -/
  | done
  /-- An instruction was executed. -/
  | executed (effect : Effect)
  /-- No step was due. -/
  | notDue
  /-- The entries taken from the journal. -/
  | drained (events : List Event)
  | refused (refusal : Refusal)
  /-- What was to be executed is no instruction, and the machine is halted. -/
  | faulted (fault : Fault)
  | notLoadable (error : LoadError)
  | notAssembled (diagnostics : List Diagnostic)
  deriving DecidableEq, Repr

/-- What is said of a request that failed, and nothing otherwise. -/
def Response.complaint? : Response → Option String
  | refused refusal => some refusal.message
  | faulted fault => some fault.message
  | notLoadable error => some ("Cannot load program: " ++ error.message)
  | notAssembled diagnostics => some (Diagnostic.report diagnostics)
  | _ => none

namespace Simulator

/-- A simulator that was never given a program. -/
def initial : Simulator where
  machine := .blank
  program? := none
  loaded := false
  schedule? := none
  steps := 0
  statusLine := .nothingLoaded
  journal := #[]

def status (s : Simulator) : Status :=
  if !s.loaded then .idle
  else if s.machine.halted then .halted
  else if s.machine.waiting then .waitingForInput
  else if s.schedule?.isSome then .running
  else if 0 < s.steps then .paused
  else .ready

/-- Adds an entry to the journal. -/
def record (s : Simulator) (event : Event) : Simulator :=
  { s with journal := s.journal.push event }

/-! ## 2. Loading -/

/-- Replaces the machine by a fresh one with a program in it. -/
def load (p : Program) (s : Simulator) : Simulator :=
  { s with
    machine := .ofProgram p
    program? := some p
    loaded := true
    schedule? := none
    steps := 0
    statusLine := .ready }.record (.loaded p.size)

/-- Loads words and tags that were stored apart. -/
def loadParts (words : List Word) (tags : List Tag) (s : Simulator) : Response × Simulator :=
  match Program.ofParts words tags with
  | .ok p => (.done, s.load p)
  | .error e => (.notLoadable e, s)

/-- Assembles a source and loads its program. -/
def loadSource (source : String) (s : Simulator) : Response × Simulator :=
  match assemble source with
  | .ok p => (.done, s.load p)
  | .error ds => (.notAssembled ds, s)

/-- Empties the machine.  The program is remembered but no longer loaded. -/
def reset (s : Simulator) : Simulator :=
  { s with
    machine := .blank
    loaded := false
    schedule? := none
    steps := 0
    statusLine := .reset }.record .reset

/-- Empties the machine and loads the last program again. -/
def restart (s : Simulator) : Response × Simulator :=
  match s.program? with
  | none => (.refused .notLoaded, s)
  | some p => (.done, s.reset.load p)

/-! ## 3. Executing -/

/-- Why no instruction can be executed, if there is a reason. -/
def stepRefusal? (s : Simulator) : Option Refusal :=
  if !s.loaded then some .notLoaded
  else if s.machine.halted then some .halted
  else if s.machine.waiting then some .waitingForInput
  else none

/-- The status line after an instruction from `origin`. -/
def lineAfter (origin : Nat) (effect : Effect) (m : Machine) : StatusLine :=
  if effect.halted then .halted origin
  else if effect.suspended then .waitingForInput
  else .arrived m.pc.val

/-- The entries that an instruction from `origin` leaves in the journal. -/
def eventsOf (origin : Nat) (effect : Effect) : List Event :=
  .executed origin effect :: effect.missingDevice?.toList.map .missingDevice

/-- Takes over the machine after an instruction.  A machine that cannot go on has no
schedule. -/
def moveTo (m : Machine) (s : Simulator) : Simulator :=
  { s with
    machine := m
    steps := s.steps + 1
    schedule? := if m.halted || m.waiting then none else s.schedule? }

/-- Executes one instruction, whatever the status. -/
def advance (s : Simulator) : Response × Simulator :=
  let origin := s.machine.pc.val
  match s.machine.step with
  | (.ok effect, m) =>
    (.executed effect,
      { (eventsOf origin effect).foldl record (s.moveTo m) with
        statusLine := lineAfter origin effect m })
  | (.error fault, m) =>
    (.faulted fault,
      { (s.moveTo m).record (.faulted fault) with statusLine := .faulted fault })

/-- **Stepping**: executes one instruction if that is possible. -/
def step (s : Simulator) : Response × Simulator :=
  match s.stepRefusal? with
  | some refusal => (.refused refusal, s)
  | none => s.advance

/-! ## 4. Running -/

/-- Why no run can begin, if there is a reason. -/
def runRefusal? (s : Simulator) : Option Refusal :=
  if !s.loaded then some .notLoaded
  else if s.schedule?.isSome then some .alreadyRunning
  else s.stepRefusal?

/-- Begins a run: a step every so many milliseconds, the first one now. -/
def run (milliseconds : Nat) (now : Time) (s : Simulator) : Response × Simulator :=
  match s.runRefusal? with
  | some refusal => (.refused refusal, s)
  | none =>
    (.done,
      { s with schedule? := some (.starting milliseconds now), statusLine := .running })

/-- The least time between two steps of the run, if there is one. -/
def interval? (s : Simulator) : Option Nat := s.schedule?.map Schedule.interval

/-- The moment from which the next step of the run may be executed, if there is one. -/
def due? (s : Simulator) : Option Time := s.schedule?.map Schedule.due

/-- Ends a run.  Without one, nothing happens. -/
def stop (s : Simulator) : Simulator :=
  match s.schedule? with
  | none => s
  | some _ => { s with schedule? := none, statusLine := .paused }

/-- Changes the interval of a run: the run begins anew.  Without one, nothing happens. -/
def setInterval (milliseconds : Nat) (now : Time) (s : Simulator) : Response × Simulator :=
  match s.schedule? with
  | none => (.done, s)
  | some _ => s.stop.run milliseconds now

/-- **Ticking**: executes one instruction if the schedule says that one is due. -/
def tick (now : Time) (s : Simulator) : Response × Simulator :=
  match s.schedule? with
  | none => (.notDue, s)
  | some schedule =>
    if now < schedule.due then (.notDue, s)
    else
      match { s with schedule? := some ⟨schedule.interval, now + schedule.interval⟩ }.step with
      | (.executed effect, s') => (.executed effect, s')
      | (response, s') => (response, { s' with schedule? := none })

/-! ## 5. Input and the journal -/

/-- The entries that a text given as input leaves in the journal. -/
def inputEvents (dest : Register) (text : String) : List Event :=
  match inputValue? text with
  | some value => [.inputTaken dest value]
  | none => [.unreadableInput text, .inputTaken dest 0]

/-- Gives the waiting load its value: zero if the text is no input value. -/
def provideInput (text : String) (s : Simulator) : Response × Simulator :=
  match s.machine.pending with
  | none => (.refused .notWaiting, s)
  | some pending =>
    (.done,
      { (inputEvents pending.dest text).foldl record s with
        machine := s.machine.resume pending ((inputValue? text).getD 0)
        statusLine := .paused })

/-- Takes the entries from the journal. -/
def drain (s : Simulator) : List Event × Simulator :=
  (s.journal.toList, { s with journal := #[] })

end Simulator
end PredicatedCpu

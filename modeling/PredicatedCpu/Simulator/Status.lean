/-
# Status

Two summaries of a simulator.  The **status** is the state of its life cycle, and decides
which requests are accepted.  The **status line** is kept for people: it tells what last
changed, with the address or the cause.
-/
import PredicatedCpu.Machine.Execute

namespace PredicatedCpu

/-- Where a simulator stands. -/
inductive Status where
  /-- Nothing is loaded. -/
  | idle
  /-- Loaded, and nothing executed yet. -/
  | ready
  /-- Steps are scheduled. -/
  | running
  /-- Something was executed, and nothing is scheduled. -/
  | paused
  /-- A load waits for input. -/
  | waitingForInput
  | halted
  deriving DecidableEq, Repr

def Status.text : Status → String
  | idle => "idle"
  | ready => "ready"
  | running => "running"
  | paused => "paused"
  | waitingForInput => "waiting for input"
  | halted => "halted"

/-- What last changed. -/
inductive StatusLine where
  | nothingLoaded
  | ready
  | running
  | paused
  | reset
  /-- The program counter after an instruction. -/
  | arrived (pc : Nat)
  | waitingForInput
  /-- Halted by the instruction at this address. -/
  | halted (origin : Nat)
  | faulted (fault : Fault)
  deriving DecidableEq, Repr

def StatusLine.text : StatusLine → String
  | nothingLoaded => "No program loaded"
  | ready => "Ready"
  | running => "Running"
  | paused => "Paused"
  | reset => "Reset"
  | arrived pc => "PC at " ++ addressText pc
  | waitingForInput => "Waiting for input"
  | halted origin => "Halted at " ++ addressText origin
  | faulted fault => "Halted: " ++ fault.message

end PredicatedCpu

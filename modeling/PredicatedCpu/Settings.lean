/-
# Settings

Two variables of the environment set what no option sets: whether to trace, and how long to
wait between steps.  They are read once, before anything else: to ask for a setting earlier,
or to read them again, is a mistake of the program and not of its user.
-/
import PredicatedCpu.Text.Blank
import PredicatedCpu.Text.Numeral

namespace PredicatedCpu

/-- What the environment sets. -/
structure Settings where
  trace : Bool
  /-- The milliseconds between the steps of a run. -/
  interval : Nat
  deriving DecidableEq, Repr

namespace Settings

/-- The variable that turns tracing on. -/
def traceVariable : String := "PREDSIM_TRACE"

/-- The variable that sets the interval. -/
def intervalVariable : String := "PREDSIM_INTERVAL"

/-- The settings that the values of the two variables stand for.  Tracing is on for exactly
`1`.  The interval is a count below 2^64, with blanks around it; where there is no such count
it is zero. -/
def ofVariables (trace? interval? : Option String) : Settings where
  trace := trace? == some "1"
  interval :=
    ((interval?.bind fun text => Text.countBelow? (.pow 2 64) (Text.trim text.toList))).getD 0

/-- What can go wrong with reading settings once. -/
inductive Misuse where
  | notRead
  | readTwice
  deriving DecidableEq, Repr

def Misuse.message : Misuse → String
  | notRead => "tried to access environment state before initialization"
  | readTwice => "tried to initialize environment state multiple times"

/-- Keeps settings that were read, unless there are some already. -/
def keep (kept : Option Settings) (read : Settings) : Except Misuse (Option Settings) :=
  match kept with
  | none => .ok (some read)
  | some _ => .error .readTwice

/-- The settings that were kept. -/
def kept (kept : Option Settings) : Except Misuse Settings :=
  match kept with
  | some settings => .ok settings
  | none => .error .notRead

/-- The settings after the variables were read so many times. -/
def afterReading (read : Settings) : Nat → Except Misuse (Option Settings)
  | 0 => .ok none
  | times + 1 => do keep (← afterReading read times) read

end Settings
end PredicatedCpu

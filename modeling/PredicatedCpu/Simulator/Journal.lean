/-
# The journal

A simulator keeps a journal of what happened to its machine until somebody takes the entries
away.  An entry is an event; how it is worded and how urgent it is are read off it.
-/
import PredicatedCpu.Machine.Execute

namespace PredicatedCpu

/-- How urgent an entry is. -/
inductive Level where
  | info
  | warning
  | error
  deriving DecidableEq, Repr

/-- An entry of the journal. -/
inductive Event where
  /-- A program of this size was loaded. -/
  | loaded (size : Nat)
  | reset
  /-- An instruction was fetched from an address and executed. -/
  | executed (origin : Nat) (effect : Effect)
  /-- A load found nothing to read at an address of the window. -/
  | missingDevice (address : Word)
  /-- The machine was halted by something that is no instruction. -/
  | faulted (fault : Fault)
  /-- A text was given as input that is no input value. -/
  | unreadableInput (text : String)
  /-- A waiting load was given a value. -/
  | inputTaken (dest : Register) (value : Word)
  deriving DecidableEq, Repr

namespace Event

def level : Event → Level
  | missingDevice _ | unreadableInput _ => .warning
  | faulted _ => .error
  | loaded _ | reset | executed _ _ | inputTaken _ _ => .info

def message : Event → String
  | loaded size => "Loaded " ++ Text.decimal size ++ " instructions"
  | reset => "Machine reset"
  | executed origin effect => addressText origin ++ "  " ++ effect.trace
  | missingDevice address => missingDeviceText address
  | faulted fault => fault.message
  | unreadableInput text =>
    "Input `" ++ String.ofList (Text.trim text.toList) ++ "` is not a valid number, using 0."
  | inputTaken dest value => registerText dest value ++ " from input"

end Event
end PredicatedCpu

/-
# Debugger commands

A command is a word and its arguments, between blanks.  The word may be written in either case
and most have a short form.

* `Command.parse`: the command of a line, or what is wrong with it.  Too many arguments are
  complained of first, then the arguments from left to right.
-/
import PredicatedCpu.Machine.InputValue
import PredicatedCpu.Text.Case

namespace PredicatedCpu

/-- What a debugger can be told to do. -/
inductive Command where
  | step (count : Nat)
  /-- Runs, at an interval of so many milliseconds if one is given. -/
  | run (interval? : Option Nat)
  | input (value : String)
  | registers
  | memory (first count : Nat)
  | output
  | list
  | status
  | reset
  | restart
  | help
  | quit
  deriving DecidableEq, Repr

/-- What can be wrong with a command. -/
inductive CommandError where
  | unknown (word : String)
  | missing (command argument : String)
  | invalid (command value : String)
  | tooMany (command : String)
  deriving DecidableEq, Repr

def CommandError.message : CommandError → String
  | unknown word => "Not a command: `" ++ word ++ "`"
  | missing command argument => "Missing argument `" ++ argument ++ "` for `" ++ command ++ "`"
  | invalid command value => "Invalid argument `" ++ value ++ "` for `" ++ command ++ "`"
  | tooMany command => "Too many arguments for `" ++ command ++ "`"

namespace Command

/-! ## 1. Arguments -/

/-- A number of steps: positive and below 2^32. -/
def stepCount (argument : String) : Except CommandError Nat :=
  match Text.countBelow? (.pow 2 32) argument.toList with
  | some (count + 1) => .ok (count + 1)
  | _ => .error (.invalid "step" argument)

/-- A number of milliseconds, below 2^64. -/
def milliseconds (argument : String) : Except CommandError Nat :=
  match Text.countBelow? (.pow 2 64) argument.toList with
  | some count => .ok count
  | none => .error (.invalid "run" argument)

/-- A number up to the last address, written like an input value. -/
def memoryNumber (argument : String) : Except CommandError Nat :=
  match inputValue? argument with
  | some value =>
    if value.toNat < memorySize then .ok value.toNat else .error (.invalid "memory" argument)
  | none => .error (.invalid "memory" argument)

/-- A command that takes no arguments. -/
def bare (name : String) (command : Command) : List String → Except CommandError Command
  | [] => .ok command
  | _ => .error (.tooMany name)

def parseStep : List String → Except CommandError Command
  | [] => .ok (.step 1)
  | [count] => do return .step (← stepCount count)
  | _ => .error (.tooMany "step")

def parseRun : List String → Except CommandError Command
  | [] => .ok (.run none)
  | [interval] => do return .run (some (← milliseconds interval))
  | _ => .error (.tooMany "run")

def parseInput : List String → Except CommandError Command
  | [] => .error (.missing "input" "value")
  | [value] => .ok (.input value)
  | _ => .error (.tooMany "input")

/-- At least one word of memory is shown, even if none is asked for. -/
def parseMemory : List String → Except CommandError Command
  | [] => .error (.missing "memory" "address")
  | [first] => do return .memory (← memoryNumber first) 1
  | [first, count] => do
    let first ← memoryNumber first
    return .memory first (max (← memoryNumber count) 1)
  | _ => .error (.tooMany "memory")

/-! ## 2. Commands -/

/-- The command of a word, written as it is, and its arguments. -/
def ofWords (word : String) (arguments : List String) : Except CommandError Command :=
  match Text.lower word with
  | "step" | "s" => parseStep arguments
  | "run" | "r" | "continue" | "c" => parseRun arguments
  | "input" | "i" => parseInput arguments
  | "registers" | "regs" => bare "registers" .registers arguments
  | "memory" | "mem" | "m" => parseMemory arguments
  | "output" | "out" => bare "output" .output arguments
  | "list" | "l" => bare "list" .list arguments
  | "status" => bare "status" .status arguments
  | "reset" => bare "reset" .reset arguments
  | "restart" => bare "restart" .restart arguments
  | "help" | "h" => .ok .help
  | "quit" | "q" | "exit" => .ok .quit
  | _ => .error (.unknown word)

/-- The command of a line. -/
def parse (line : String) : Except CommandError Command :=
  match (Text.words line.toList).map String.ofList with
  | [] => .error (.unknown "")
  | word :: arguments => ofWords word arguments

/-- What each command does. -/
def helpText : String :=
  "step [n]            execute n instructions (default 1)\n" ++
  "run [ms]            run until halt or input, one step every ms\n" ++
  "input <value>       supply a value to a waiting LDR 0x1F0\n" ++
  "registers           show registers, flags and predicates\n" ++
  "memory <addr> [n]   show n words of memory from addr\n" ++
  "output              show everything written to the I/O window\n" ++
  "list                show the assembled program\n" ++
  "status              show the machine status\n" ++
  "reset               clear the machine and unload the program\n" ++
  "restart             reset and load the program again\n" ++
  "help                show this message\n" ++
  "quit                leave the debugger"

end Command
end PredicatedCpu

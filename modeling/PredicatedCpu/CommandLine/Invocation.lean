/-
# Invocations

What the arguments of the command line ask for.  There are five subcommands, each with a file
and some switches; a file alone is run, and no arguments at all show the banner.

The arguments are read from left to right, and the first one that is out of place ends the
reading, as does a request for help.  A switch may be written in full (`--input 3`,
`--input=3`) or as a letter (`-i 3`, `-i3`, `-i=3`), and letters may share a dash (`-mt`).
What begins with a dash is never the value of a switch before it.  After `--` everything is a
file.
-/
import PredicatedCpu.Text.Numeral

namespace PredicatedCpu
namespace CommandLine

/-! ## 1. Switches -/

/-- What can be given with a dash. -/
inductive Switch where
  | interval
  | input
  | trace
  | minimal
  | command
  | help
  | version
  deriving DecidableEq, Repr

namespace Switch

def long : Switch → String
  | interval => "interval"
  | input => "input"
  | trace => "trace"
  | minimal => "minimal"
  | command => "command"
  | help => "help"
  | version => "version"

def letter? : Switch → Option Char
  | interval => none
  | input => some 'i'
  | trace => some 't'
  | minimal => some 'm'
  | command => some 'c'
  | help => some 'h'
  | version => some 'V'

/-- Whether the switch is followed by a value. -/
def takesValue : Switch → Bool
  | interval | input | command => true
  | trace | minimal | help | version => false

end Switch

/-- Why the arguments make no invocation. -/
inductive UsageError where
  | unexpected (argument : String)
  | missingValue (switch : Switch)
  | unneededValue (switch : Switch)
  | repeated (switch : Switch)
  | malformedValue (switch : Switch) (value : String)
  | emptyPath
  | missingPath
  deriving DecidableEq, Repr

def UsageError.message : UsageError → String
  | unexpected argument => "unexpected argument '" ++ argument ++ "' found"
  | missingValue switch => "a value is required for '--" ++ switch.long ++ "'"
  | unneededValue switch => "no value is allowed for '--" ++ switch.long ++ "'"
  | repeated switch => "the argument '--" ++ switch.long ++ "' cannot be used multiple times"
  | malformedValue switch value =>
    "invalid value '" ++ value ++ "' for '--" ++ switch.long ++ "'"
  | emptyPath => "a file name cannot be empty"
  | missingPath => "the name of a file is required"

/-- What ends the reading of arguments early. -/
inductive Stop where
  | help
  | version
  | misuse (error : UsageError)
  deriving DecidableEq, Repr

/-! ## 2. Reading switches -/

/-- What was given so far. -/
structure Draft where
  path? : Option String
  interval? : Option Nat
  inputs : List String
  command? : Option String
  trace : Bool
  minimal : Bool
  deriving DecidableEq, Repr

namespace Draft

def empty : Draft := ⟨none, none, [], none, false, false⟩

/-- Takes a file.  There is room for one. -/
def addPath (d : Draft) (path : String) : Except Stop Draft :=
  if path.isEmpty then .error (.misuse .emptyPath)
  else match d.path? with
    | none => .ok { d with path? := some path }
    | some _ => .error (.misuse (.unexpected path))

/-- Takes a switch with its value.  Only inputs may be given more than once; a comma divides
them. -/
def give (d : Draft) (switch : Switch) (value : String) : Except Stop Draft :=
  match switch with
  | .interval =>
    match d.interval?, Text.countBelow? (.pow 2 64) value.toList with
    | none, some milliseconds => .ok { d with interval? := some milliseconds }
    | some _, some _ => .error (.misuse (.repeated .interval))
    | _, none => .error (.misuse (.malformedValue .interval value))
  | .input =>
    .ok { d with inputs := d.inputs ++ (value.toList.splitOn ',').map String.ofList }
  | .command =>
    match d.command? with
    | none => .ok { d with command? := some value }
    | some _ => .error (.misuse (.repeated .command))
  | _ => .error (.misuse (.unneededValue switch))

/-- Takes a switch without a value. -/
def turnOn (d : Draft) (switch : Switch) : Except Stop Draft :=
  match switch with
  | .help => .error .help
  | .version => .error .version
  | .trace =>
    if d.trace then .error (.misuse (.repeated .trace)) else .ok { d with trace := true }
  | .minimal =>
    if d.minimal then .error (.misuse (.repeated .minimal)) else .ok { d with minimal := true }
  | _ => .error (.misuse (.missingValue switch))

end Draft

/-- A value behind its equals sign; the sign may be left out behind a letter. -/
def attachedValue : List Char → List Char
  | '=' :: value => value
  | value => value

/-- Letters that share a dash.  Beside the draft there is the switch that still needs a value,
if the last letter is one that takes a value. -/
def readLetters (known : List Switch) (argument : String) (d : Draft) :
    List Char → Except Stop (Draft × Option Switch)
  | [] => .ok (d, none)
  | letter :: rest =>
    match known.find? fun switch => switch.letter? == some letter with
    | none => .error (.misuse (.unexpected argument))
    | some switch =>
      if switch.takesValue then
        if rest.isEmpty then .ok (d, some switch)
        else do return (← d.give switch (String.ofList (attachedValue rest)), none)
      else do readLetters known argument (← d.turnOn switch) rest

/-- A switch written in full, without its dashes. -/
def readLong (known : List Switch) (argument : String) (d : Draft) (text : List Char) :
    Except Stop (Draft × Option Switch) :=
  let name := String.ofList (text.takeWhile (· != '='))
  let value := text.dropWhile (· != '=')
  match known.find? fun switch => switch.long == name with
  | none => .error (.misuse (.unexpected argument))
  | some switch =>
    match switch.takesValue, value with
    | true, [] => .ok (d, some switch)
    | true, _ :: value => do return (← d.give switch (String.ofList value), none)
    | false, [] => do return (← d.turnOn switch, none)
    | false, _ => .error (.misuse (.unneededValue switch))

/-- Whether an argument is one or more switches. -/
def isSwitch (argument : String) : Bool :=
  match argument.toList with
  | '-' :: _ :: _ => true
  | _ => false

/-- Takes one argument. -/
def readArgument (known : List Switch) (d : Draft) (argument : String) :
    Except Stop (Draft × Option Switch) :=
  match argument.toList with
  | '-' :: '-' :: text => readLong known argument d text
  | '-' :: letter :: letters => readLetters known argument d (letter :: letters)
  | _ => do return (← d.addPath argument, none)

/-- Takes all arguments.  `pending` is a switch that waits for its value. -/
def readArguments (known : List Switch) (pending : Option Switch) (d : Draft) :
    List String → Except Stop Draft
  | [] =>
    match pending with
    | none => .ok d
    | some switch => .error (.misuse (.missingValue switch))
  | argument :: rest =>
    match pending with
    | some switch =>
      if isSwitch argument then .error (.misuse (.missingValue switch))
      else do readArguments known none (← d.give switch argument) rest
    | none =>
      if argument = "--" then rest.foldlM Draft.addPath d
      else do
        let (d, pending) ← readArgument known d argument
        readArguments known pending d rest

/-! ## 3. Subcommands -/

/-- The first word of an invocation. -/
inductive Subcommand where
  | run
  | debug
  | check
  | list
  | watch
  deriving DecidableEq, Repr

namespace Subcommand

def all : List Subcommand := [run, debug, check, list, watch]

def name : Subcommand → String
  | run => "run"
  | debug => "debug"
  | check => "check"
  | list => "list"
  | watch => "watch"

def ofName? (name : String) : Option Subcommand :=
  all.find? fun subcommand => subcommand.name == name

/-- The switches that may be given with a subcommand. -/
def switches : Subcommand → List Switch
  | run => [.interval, .input, .trace, .minimal, .help]
  | debug => [.command, .minimal, .help]
  | check | list | watch => [.help]

end Subcommand

/-- What is asked for. -/
inductive Invocation where
  /-- Nothing, so the program presents itself. -/
  | banner
  | help
  | version
  | run (path : String) (interval? : Option Nat) (inputs : List String) (trace minimal : Bool)
  | debug (path : String) (command? : Option String) (minimal : Bool)
  | check (path : String)
  | list (path : String)
  | watch (path : String)
  deriving DecidableEq, Repr

/-- The invocation of a subcommand, which needs a file. -/
def Subcommand.invocation (d : Draft) (subcommand : Subcommand) : Except Stop Invocation :=
  match d.path? with
  | none => .error (.misuse .missingPath)
  | some path =>
    match subcommand with
    | run => .ok (.run path d.interval? d.inputs d.trace d.minimal)
    | debug => .ok (.debug path d.command? d.minimal)
    | check => .ok (.check path)
    | list => .ok (.list path)
    | watch => .ok (.watch path)

/-- Whether there is help on a word: on every subcommand, and on asking for help itself. -/
def isTopic (word : String) : Bool := word == "help" || (Subcommand.ofName? word).isSome

/-- Help is asked for by a subcommand of its own, on nothing or on one topic.  No topic has
topics below it. -/
def readHelp : List String → Except Stop Invocation
  | [] => .ok .help
  | topic :: rest =>
    if isTopic topic then
      match rest with
      | [] => .ok .help
      | extra :: _ => .error (.misuse (.unexpected extra))
    else .error (.misuse (.unexpected topic))

/-- The invocation of a file alone, or of nothing. -/
def bareInvocation (d : Draft) : Invocation :=
  match d.path? with
  | some path => .run path none [] false false
  | none => .banner

/-- Takes arguments until one is a subcommand.  A file before it is of no account. -/
def readTop (d : Draft) : List String → Except Stop Invocation
  | [] => .ok (bareInvocation d)
  | argument :: rest =>
    if argument = "--" then (rest.foldlM Draft.addPath d).map bareInvocation
    else if argument = "help" then readHelp rest
    else match Subcommand.ofName? argument with
      | some subcommand => do
        subcommand.invocation (← readArguments subcommand.switches none .empty rest)
      | none => do
        let (d, _) ← readArgument [.help, .version] d argument
        readTop d rest

/-- **The invocation** that the arguments ask for. -/
def Invocation.ofArguments (arguments : List String) : Except UsageError Invocation :=
  match readTop .empty arguments with
  | .ok invocation => .ok invocation
  | .error .help => .ok .help
  | .error .version => .ok .version
  | .error (.misuse e) => .error e

/-- The file that an invocation reads. -/
def Invocation.path? : Invocation → Option String
  | banner | help | version => none
  | run path .. | debug path .. | check path | list path | watch path => some path

/-- Whether an invocation may read the standard input. -/
def Invocation.readsInput : Invocation → Bool
  | run .. | debug .. => true
  | _ => false

end CommandLine
end PredicatedCpu

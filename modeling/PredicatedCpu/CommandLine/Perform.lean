/-
# Carrying out an invocation

From an invocation and what the program finds around it to what it writes and how it ends.
Results go to the standard output, and all that is said about them to the error stream.  An
invocation ends with 0 if it was carried out, with 1 if something was reported to be wrong,
and with 2 if the arguments made no invocation.
-/
import PredicatedCpu.CommandLine.Invocation
import PredicatedCpu.CommandLine.Path
import PredicatedCpu.Session.Debugged
import PredicatedCpu.Settings

namespace PredicatedCpu
namespace CommandLine

/-! ## 1. Around the program -/

/-- What the program finds when it is started. -/
structure Surroundings where
  /-- What is in the file that the invocation names, if it can be read. -/
  contents? : Option String
  stdin : String
  settings : Settings
  colour : Bool
  deriving DecidableEq, Repr

/-- What the program leaves when it ends. -/
structure Ending where
  code : Nat
  stdout : String
  stderr : String
  deriving DecidableEq, Repr

/-- The end of something that went wrong. -/
def failure (said text : String) : Ending := ⟨1, "", said ++ "Error: " ++ text ++ "\n"⟩

/-! ## 2. Texts -/

/-- The number of this version. -/
def versionNumber : String := "0.1.0"

/-- The name of the program in large letters. -/
def logo : String :=
  "\n                        _     _\n" ++
  "  _ __  _ __ ___  __| |___(_)_ __ ___\n" ++
  " | '_ \\| '__/ _ \\/ _` / __| | '_ ` _ \\\n" ++
  " | |_) | | |  __/ (_| \\__ \\ | | | | | |\n" ++
  " | .__/|_|  \\___|\\__,_|___/_|_| |_| |_|\n" ++
  " |_|"

/-- How the program presents itself. -/
def banner (colour : Bool) : String :=
  "\n~ predsim v" ++ versionNumber ++ " - Copyright (c) 2024 Artemis Rosman ~\n" ++
    (if colour then "\x1b[1;38;2;135;206;235m" ++ logo ++ "\x1b[0m" else logo) ++ "\n" ++
    "\nWelcome to predsim, an assembler and simulator for a predicated 16-bit processor\n" ++
    "with 512 words of memory and an I/O window at 0x1F0.\n" ++
    "Please use `-h` or `--help` to access the usage instructions and documentation.\n\n"

def helpText : String :=
  "Predsim assembles and runs programs for a small predicated 16-bit processor\n\n" ++
  "Usage: predsim [PATH] [COMMAND]\n\n" ++
  "Commands:\n" ++
  "  run    Assemble a `.asm` file and run it, printing output to the terminal\n" ++
  "         [--interval <MS>] [-i, --input <VALUES>] [-t, --trace] [-m, --minimal]\n" ++
  "  debug  Assemble a `.asm` file and step through it with the debugger\n" ++
  "         [-c, --command <COMMANDS>] [-m, --minimal]\n" ++
  "  check  Check a `.asm` file without running it\n" ++
  "  list   Print the assembled program next to its source\n" ++
  "  watch  Place a watch on a `.asm` file to receive constant assembler updates\n" ++
  "  help   Print this message\n\n" ++
  "Arguments:\n" ++
  "  [PATH]  Quickly provide a `.asm` file to run\n\n" ++
  "Options:\n" ++
  "  -h, --help     Print help\n" ++
  "  -V, --version  Print version\n"

/-- A line about what the program is doing. -/
def progress (colour : Bool) (tint : Colour) (word text : String) : String :=
  (Console.fresh colour false).margin tint word ++ " " ++ text ++ "\n"

/-- The same about a file. -/
def progressOn (colour : Bool) (tint : Colour) (word path : String) : String :=
  progress colour tint word ("target " ++ path)

/-! ## 3. Files -/

/-- The program in the file of an invocation, or the end with what was `said` before. -/
def assembled (w : Surroundings) (said path : String) : Except Ending Program :=
  match w.contents? with
  | none => .error (failure said ("cannot read " ++ path))
  | some source =>
    match assemble source with
    | .ok p => .ok p
    | .error ds => .error (failure said (Diagnostic.report ds))

/-- Checks a file. -/
def check (w : Surroundings) (path : String) : Ending :=
  let said := progressOn w.colour .green "Checking" path
  match assembled w said path with
  | .error ending => ending
  | .ok p =>
    ⟨0, "", said ++ progress w.colour .green "Success"
      ("no errors found, " ++ Text.decimal p.size ++ " instructions")⟩

/-- Lists a file. -/
def list (w : Surroundings) (path : String) : Ending :=
  match assembled w "" path with
  | .error ending => ending
  | .ok p => ⟨0, p.listing, ""⟩

/-- Watches a file.  Changes cannot be seen from here, so one check is all. -/
def watch (w : Surroundings) (path : String) : Ending :=
  match w.contents? with
  | none => failure "" "File does not exist. Exiting..."
  | some _ => check w path

/-! ## 4. Sessions -/

/-- Assembles a file and conducts a session on it.  Around the session stand a few lines about
what is being done, which a minimal console leaves out. -/
def session (w : Surroundings) (path : String) (options : Session.Options)
    (conduct : Session → Option Session) : Option Ending :=
  if !isSourcePath path then
    some (failure "" "File must have the `.asm` extension. Exiting...")
  else
    let unlessMinimal (text : String) : String := if options.minimal then "" else text
    let before := unlessMinimal (progressOn w.colour .green "Assembling" path)
    match assembled w before path with
    | .error ending => some ending
    | .ok p =>
      (conduct (.start p options)).map fun s =>
        ⟨0, s.console.stdout,
          before ++ unlessMinimal (progress w.colour .green "Running" "assembled program") ++
            s.console.stderr ++ unlessMinimal (progressOn w.colour .green "Completed" path)⟩

/-- **Carrying out** an invocation.  There is no ending if a run in it takes more than `limit`
scheduled steps. -/
def perform (limit : Nat) (w : Surroundings) : Invocation → Option Ending
  | .banner => some ⟨0, banner w.colour, ""⟩
  | .help => some ⟨0, helpText, ""⟩
  | .version => some ⟨0, "predsim " ++ versionNumber ++ "\n", ""⟩
  | .run path interval? inputs trace minimal =>
    let options : Session.Options :=
      ⟨trace || w.settings.trace, minimal, w.colour, interval?.getD w.settings.interval⟩
    session w path options fun s => (s.runUnattended limit inputs w.stdin).map Prod.fst
  | .debug path command? minimal =>
    let options : Session.Options :=
      ⟨w.settings.trace, minimal, w.colour, w.settings.interval⟩
    let source := match command? with
      | some text => Session.CommandSource.script text
      | none => .terminal
    session w path options fun s => s.runDebugged limit source w.stdin
  | .check path => some (check w path)
  | .list path => some (list w path)
  | .watch path => some (watch w path)

/-- The end of arguments that make no invocation. -/
def rejected (e : UsageError) : Ending :=
  ⟨2, "", "error: " ++ e.message ++ "\n\nFor more information, try '--help'.\n"⟩

end CommandLine
end PredicatedCpu

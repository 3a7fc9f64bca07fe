/-
# The program

The outermost layer: it fetches what `CommandLine.perform` needs from the outside and hands
its results back.  Nothing is decided here.
-/
import PredicatedCpu.CommandLine.Perform

open PredicatedCpu

/-- What is in a file, if it can be read. -/
def readContents (path : String) : IO (Option String) := do
  try
    return some (← IO.FS.readFile path)
  catch _ =>
    return none

/-- What an invocation finds around it. -/
def observeSurroundings (invocation : CommandLine.Invocation) :
    IO CommandLine.Surroundings := do
  let contents? ← match invocation.path? with
    | some path => readContents path
    | none => pure none
  let stdin ← if invocation.readsInput then (← IO.getStdin).readToEnd else pure ""
  let trace? ← IO.getEnv Settings.traceVariable
  let interval? ← IO.getEnv Settings.intervalVariable
  let colour := (← (← IO.getStdout).isTty) && (← IO.getEnv "NO_COLOR").isNone
  return ⟨contents?, stdin, Settings.ofVariables trace? interval?, colour⟩

/-- More scheduled steps than anybody waits for. -/
def stepLimit : Nat := .pow 2 60

/-- Writes what a program leaves. -/
def leave (ending : CommandLine.Ending) : IO UInt32 := do
  IO.print ending.stdout
  IO.eprint ending.stderr
  return UInt32.ofNat ending.code

def main (arguments : List String) : IO UInt32 := do
  match CommandLine.Invocation.ofArguments arguments with
  | .error e => leave (CommandLine.rejected e)
  | .ok invocation =>
    match CommandLine.perform stepLimit (← observeSurroundings invocation) invocation with
    | some ending => leave ending
    | none => leave ⟨1, "", "Error: the run did not end\n"⟩

/-
# Reports

What a session shows of its machine: the table of registers, words of memory, output records
and the status.  A minimal console gets bare values, one line each, and any other gets a table
with every word in three notations.
-/
import PredicatedCpu.Simulator.Basic
import PredicatedCpu.Terminal.Console

namespace PredicatedCpu
namespace Report

/-! ## 1. Words -/

/-- A word in hexadecimal, as an unsigned number and as a signed one. -/
def wordColumns (w : Word) : String :=
  "0x" ++ Text.lowerHex 4 w.toNat ++ "  " ++ Text.alignRight 6 (Text.decimal w.toNat) ++ "  " ++
    Text.alignRight 6 (Text.signedDecimal w.toInt)

def word (minimal : Bool) (w : Word) : String :=
  if minimal then Text.decimal w.toNat else wordColumns w

/-! ## 2. Registers -/

def flags (f : Flags) : String :=
  "Z" ++ bitText f.zero ++ " N" ++ bitText f.negative ++ " C" ++ bitText f.carry ++
    " V" ++ bitText f.overflow

def predicates (bits : Vector Bool 4) : String :=
  "P0" ++ bitText (bits.get 0) ++ " P1" ++ bitText (bits.get 1) ++
    " P2" ++ bitText (bits.get 2) ++ " P3" ++ bitText (bits.get 3)

/-- The registers as bare values. -/
def registerLines (m : Machine) : String :=
  String.join (Register.all.map fun r =>
      r.name ++ " " ++ Text.decimal (m.register r).toNat ++ "\n") ++
    "PC " ++ Text.decimal m.pc.val ++ "\n" ++
    "FLAGS " ++ flags m.flags ++ "\n" ++
    "PREDS " ++ predicates m.predicates ++ "\n"

/-- The left edge of the table, dimmed. -/
def leftEdge : String := "\x1b[2m│\x1b[0m"

/-- The right edge of the table, dimmed, and the end of its row. -/
def rightEdge : String := "\x1b[2m│\x1b[0m\n"

def registerRow (m : Machine) (r : Register) : String :=
  leftEdge ++ " \x1b[1m" ++ r.name ++ "\x1b[0m  " ++ wordColumns (m.register r) ++ " " ++ rightEdge

/-- The registers as a table. -/
def registerTable (m : Machine) : String :=
  "\x1b[2m┌──────────────────────────────┐\x1b[0m\n" ++
    "\x1b[2m│        \x1b[3mhex     uint     int\x1b[0m\x1b[2m │\x1b[0m\n" ++
    String.join (Register.all.map (registerRow m)) ++
    leftEdge ++ " \x1b[1mPC\x1b[0m  0x" ++ Text.lowerHex 3 m.pc.val ++
    "   " ++ Text.alignLeft 17 (flags m.flags) ++ rightEdge ++
    leftEdge ++ "           " ++ Text.alignLeft 19 (predicates m.predicates) ++ rightEdge ++
    "\x1b[2m└──────────────────────────────┘\x1b[0m\n"

def registers (minimal : Bool) (m : Machine) : String :=
  if minimal then registerLines m else registerTable m

/-! ## 3. Memory and output -/

/-- The line of a word of memory with its tag. -/
def memoryLine (minimal : Bool) (m : Machine) (a : Address) : String :=
  addressText a.val ++ "  " ++ word minimal (m.word a) ++ "  " ++ (m.tag a).name ++ "\n"

/-- The addresses from `first` on, as far as memory goes, but no more than `count`. -/
def addressesFrom (first count : Nat) : List Address :=
  ((List.finRange 512).drop first).take count

/-- The lines of some words of memory. -/
def memory (minimal : Bool) (m : Machine) (first count : Nat) : String :=
  String.join ((addressesFrom first count).map (memoryLine minimal m))

/-- The line of an output record in the stream of the machine's output. -/
def outputLine (record : OutputRecord) : String :=
  "OUT " ++ addressText record.address.toNat ++ ": " ++ Text.decimal record.value.toNat ++ "\n"

/-- The lines of all output records. -/
def output (m : Machine) : String :=
  String.join (m.output.toList.map fun record =>
    addressText record.address.toNat ++ ": " ++ Text.decimal record.value.toNat ++ "\n")

/-! ## 4. Status and journal -/

/-- The line that tells where a simulator stands. -/
def status (s : Simulator) : String :=
  s.statusLine.text ++ " (" ++ s.status.text ++ "), PC at " ++ addressText s.machine.pc.val ++ "\n"

/-- The line of an entry of the journal. -/
def entry (c : Console) (event : Event) : String :=
  match event.level with
  | .info => c.margin .cyan "Trace" ++ " " ++ event.message ++ "\n"
  | .warning => c.margin .yellow "Warning" ++ " " ++ c.paint .yellow event.message ++ "\n"
  | .error => c.margin .red "Error" ++ " " ++ c.paint .red event.message ++ "\n"

end Report
end PredicatedCpu

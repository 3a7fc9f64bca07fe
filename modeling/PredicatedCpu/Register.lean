/-
# Registers

Eight registers hold a word each, `R0` to `R7`, and four hold one bit each, `P0` to `P3`.
`R0` is the one through which memory is read and written.  `P0` can be tested but no
instruction sets it.
-/
import PredicatedCpu.Text.Case
import PredicatedCpu.Text.Numeral

namespace PredicatedCpu

/-- A word register. -/
abbrev Register := Fin 8

instance Register.neZero : @NeZero Nat .ofOfNat0 8 := ⟨by decide⟩

/-- A one-bit register. -/
abbrev PredicateRegister := Fin 4

instance PredicateRegister.neZero : @NeZero Nat .ofOfNat0 4 := ⟨by decide⟩

namespace Register

/-- The register that loads fill and stores send. -/
def transfer : Register := 0

def all : List Register := List.finRange 8

def name (r : Register) : String := "R" ++ Text.decimal r.val

/-- The register of a name, in either case. -/
def ofName? (name : String) : Option Register :=
  all.find? fun r => r.name == Text.upper name

end Register

namespace PredicateRegister

def all : List PredicateRegister := List.finRange 4

def name (p : PredicateRegister) : String := "P" ++ Text.decimal p.val

/-- The one-bit register of a name, in either case. -/
def ofName? (name : String) : Option PredicateRegister :=
  all.find? fun p => p.name == Text.upper name

end PredicateRegister

/-- A register's name is read back as that register. -/
theorem Register.ofName?_name (r : Register) : Register.ofName? r.name = some r := by
  revert r; decide

/-- A one-bit register's name is read back as that register. -/
theorem PredicateRegister.ofName?_name (p : PredicateRegister) :
    PredicateRegister.ofName? p.name = some p := by
  revert p; decide

end PredicatedCpu

/-
# Flags and conditions

A comparison subtracts and keeps only four facts about the difference: the flags.  A condition
is a question about the flags, and fourteen of them have a name and a code.

* `Flags.ofSub`: the flags of `a - b`;
* `Condition.holds`: the answer of the flags to each question.
-/
import PredicatedCpu.Word
import PredicatedCpu.Text.Case

namespace PredicatedCpu

/-! ## 1. Flags -/

/-- What a comparison leaves behind. -/
structure Flags where
  /-- The difference is zero. -/
  zero : Bool
  /-- The difference has its sign bit set. -/
  negative : Bool
  /-- Nothing had to be borrowed. -/
  carry : Bool
  /-- The difference of the signed numbers does not fit in a word. -/
  overflow : Bool
  deriving DecidableEq, Repr

namespace Flags

/-- The flags of a machine that has compared nothing yet. -/
def clear : Flags := ⟨false, false, false, false⟩

/-- The flags of `a - b`.  Subtraction overflows exactly when the operands differ in sign and
the difference has not the sign of the first. -/
def ofSub (a b : Word) : Flags where
  zero := a - b == 0
  negative := (a - b).msb
  carry := decide (b.toNat ≤ a.toNat)
  overflow := a.msb != b.msb && (a - b).msb != a.msb

/-- The four flags in the order Z, N, C, V. -/
def toList (flags : Flags) : List Bool :=
  [flags.zero, flags.negative, flags.carry, flags.overflow]

end Flags

/-! ## 2. Conditions -/

/-- A named question about the flags. -/
inductive Condition where
  | eq | ne | cs | cc | mi | pl | vs | vc | hi | ls | ge | lt | gt | le
  deriving DecidableEq, Repr

namespace Condition

/-- Every condition, in the order of the codes. -/
def all : List Condition := [eq, ne, cs, cc, mi, pl, vs, vc, hi, ls, ge, lt, gt, le]

/-- The number that stands for a condition in an instruction word. -/
def code : Condition → Nat
  | eq => 0 | ne => 1 | cs => 2 | cc => 3 | mi => 4 | pl => 5 | vs => 6 | vc => 7
  | hi => 8 | ls => 9 | ge => 10 | lt => 11 | gt => 12 | le => 13

/-- The condition of a code.  The codes from 14 on stand for nothing. -/
def ofCode? (code : Nat) : Option Condition := all[code]?

def name : Condition → String
  | eq => "EQ" | ne => "NE" | cs => "CS" | cc => "CC" | mi => "MI" | pl => "PL"
  | vs => "VS" | vc => "VC" | hi => "HI" | ls => "LS" | ge => "GE" | lt => "LT"
  | gt => "GT" | le => "LE"

/-- The condition of a name, in either case.  `HS` and `LO` are second names of `CS` and
`CC`: an unsigned comparison reads better with them. -/
def ofName? (name : String) : Option Condition :=
  let key := Text.upper name
  if key = "HS" then some cs
  else if key = "LO" then some cc
  else all.find? fun condition => condition.name == key

/-- Whether the flags answer a condition with yes. -/
def holds (flags : Flags) : Condition → Bool
  | eq => flags.zero
  | ne => !flags.zero
  | cs => flags.carry
  | cc => !flags.carry
  | mi => flags.negative
  | pl => !flags.negative
  | vs => flags.overflow
  | vc => !flags.overflow
  | hi => flags.carry && !flags.zero
  | ls => !flags.carry || flags.zero
  | ge => flags.negative == flags.overflow
  | lt => flags.negative != flags.overflow
  | gt => !flags.zero && flags.negative == flags.overflow
  | le => flags.zero || flags.negative != flags.overflow

@[simp] theorem ofCode?_code (c : Condition) : ofCode? c.code = some c := by
  cases c <;> rfl

theorem code_of_ofCode? {n : Nat} {c : Condition} (h : ofCode? n = some c) : c.code = n := by
  obtain ⟨hn, rfl⟩ := List.getElem?_eq_some_iff.1 h
  revert n
  decide

theorem ofCode?_eq_none_iff {n : Nat} : ofCode? n = none ↔ 14 ≤ n := by
  simp [ofCode?, all]

/-- A condition's name is read back as that condition. -/
theorem ofName?_name (c : Condition) : ofName? c.name = some c := by
  cases c <;> decide

end Condition
end PredicatedCpu

/-
# Predicates

Every instruction carries a predicate, and takes effect only if the predicate holds.  Three
bits select it.  Seven tests fit beside "always", so `P3` can be tested for being set but not
for being clear.
-/
import PredicatedCpu.Register
import PredicatedCpu.Text.Blank

namespace PredicatedCpu

/-- What an instruction asks before it takes effect. -/
inductive Predicate where
  | always
  | p0 | notP0 | p1 | notP1 | p2 | notP2 | p3
  deriving DecidableEq, Repr

namespace Predicate

/-- Every predicate, in the order of the codes. -/
def all : List Predicate := [always, p0, notP0, p1, notP1, p2, notP2, p3]

/-- The number that stands for a predicate in an instruction word. -/
def code : Predicate → Nat
  | always => 0 | p0 => 1 | notP0 => 2 | p1 => 3 | notP1 => 4 | p2 => 5 | notP2 => 6 | p3 => 7

/-- The predicate whose code is the three low bits of a number. -/
def ofCode (code : Nat) : Predicate :=
  match code % 8 with
  | 0 => always | 1 => p0 | 2 => notP0 | 3 => p1 | 4 => notP1 | 5 => p2 | 6 => notP2 | _ => p3

def name : Predicate → String
  | always => "AL" | p0 => "P0" | notP0 => "!P0" | p1 => "P1" | notP1 => "!P1"
  | p2 => "P2" | notP2 => "!P2" | p3 => "P3"

/-- The predicate that the text between two parentheses names, in either case.  Blanks around
the name do not count. -/
def ofText? (text : String) : Option Predicate :=
  let key := Text.upper (String.ofList (Text.trim text.toList))
  all.find? fun predicate => predicate.name == key

/-- Whether a predicate holds of the one-bit registers. -/
def holds (bits : Vector Bool 4) : Predicate → Bool
  | always => true
  | p0 => bits[0]
  | notP0 => !bits[0]
  | p1 => bits[1]
  | notP1 => !bits[1]
  | p2 => bits[2]
  | notP2 => !bits[2]
  | p3 => bits[3]

@[simp] theorem ofCode_code (p : Predicate) : ofCode p.code = p := by
  cases p <;> rfl

@[simp] theorem code_ofCode (n : Nat) : (ofCode n).code = n % 8 := by
  have h : ∀ m : Fin 8, (ofCode m.val).code = m.val := by decide
  have := h ⟨n % 8, Nat.mod_lt n (by omega)⟩
  simpa [ofCode] using this

theorem code_lt (p : Predicate) : p.code < 8 := by
  cases p <;> decide

/-- A predicate's name is read back as that predicate. -/
theorem ofText?_name (p : Predicate) : ofText? p.name = some p := by
  cases p <;> decide

end Predicate
end PredicatedCpu

/-
# Numerals

The notations for natural numbers and their values.  A numeral is a non-empty run of digits
of one radix, with a radix mark in front of it unless it is decimal: `0x` for sixteen, and
where `Marks.all` are admitted also `0b` for two.  There is no sign and no digit separator,
and a run of digits may be of any length; whether a value fits where it is to go is for the
reader of it to decide.

* `ofDigits?`: the value of a run of digits;
* `numeral?`: the value of a numeral;
* `decimal`, `hex`, `lowerHex`: how values are written.
-/
import PredicatedCpu.Text.Column

namespace PredicatedCpu
namespace Text

/-! ## 1. Digits -/

/-- What a character counts as a digit; letters count on from ten, in either case. -/
def digitValue? (c : Char) : Option Nat :=
  if '0' ≤ c ∧ c ≤ '9' then some (c.toNat - '0'.toNat)
  else if 'a' ≤ c ∧ c ≤ 'z' then some (c.toNat - 'a'.toNat + 10)
  else if 'A' ≤ c ∧ c ≤ 'Z' then some (c.toNat - 'A'.toNat + 10)
  else none

/-- The value of a digit of the given radix. -/
def digit? (radix : Nat) (c : Char) : Option Nat :=
  (digitValue? c).filter fun value => decide (value < radix)

/-- The number that digits denote, the first one counting most. -/
def ofDigitValues (radix : Nat) (digits : List Nat) : Nat :=
  digits.foldl (fun value digit => value * radix + digit) 0

/-- The value of a non-empty run of digits, and nothing for any other text. -/
def ofDigits? (radix : Nat) (cs : List Char) : Option Nat :=
  if cs.isEmpty then none else (cs.mapM (digit? radix)).map (ofDigitValues radix)

/-! ## 2. Radix marks -/

/-- Which radix marks a notation admits. -/
inductive Marks where
  /-- Only `0x`. -/
  | hex
  /-- `0x` and `0b`. -/
  | all
  deriving DecidableEq, Repr

/-- The radix of a text and what follows the mark.  Without a mark the radix is ten. -/
def splitMark (marks : Marks) : List Char → Nat × List Char
  | '0' :: 'x' :: digits => (16, digits)
  | '0' :: 'X' :: digits => (16, digits)
  | '0' :: 'b' :: digits => if marks = .all then (2, digits) else (10, '0' :: 'b' :: digits)
  | '0' :: 'B' :: digits => if marks = .all then (2, digits) else (10, '0' :: 'B' :: digits)
  | digits => (10, digits)

/-- The value of a **numeral**. -/
def numeral? (marks : Marks) (cs : List Char) : Option Nat :=
  ofDigits? (splitMark marks cs).1 (splitMark marks cs).2

/-- The value of a numeral that is below `bound`. -/
def numeralBelow? (bound : Nat) (marks : Marks) (cs : List Char) : Option Nat :=
  (numeral? marks cs).filter fun value => decide (value < bound)

/-- The value of a decimal count below `bound`.  One plus sign in front of it is allowed. -/
def countBelow? (bound : Nat) (cs : List Char) : Option Nat :=
  let digits := match cs with
    | '+' :: rest => rest
    | _ => cs
  (ofDigits? 10 digits).filter fun value => decide (value < bound)

example : numeral? .all ['0', 'B', '1', '0', '1'] = some 5 := by decide
example : numeral? .hex ['0', 'b', '1'] = none := by decide
example : numeral? .hex ['0', 'x'] = none := by decide
example : countBelow? 100 ['+', '0', '9'] = some 9 := by decide

/-! ## 3. Writing -/

/-- The decimal numeral of a value. -/
def decimal (value : Nat) : String := String.ofList (Nat.toDigits 10 value)

/-- The decimal numeral of a signed value. -/
def signedDecimal (value : Int) : String :=
  if value < 0 then "-" ++ decimal value.natAbs else decimal value.natAbs

/-- At least `width` hexadecimal digits, letters in upper case, without a mark. -/
def hex (width value : Nat) : String :=
  zeroPad width (String.ofList ((Nat.toDigits 16 value).map Char.toUpper))

/-- At least `width` hexadecimal digits, letters in lower case, without a mark. -/
def lowerHex (width value : Nat) : String :=
  zeroPad width (String.ofList (Nat.toDigits 16 value))

end Text
end PredicatedCpu

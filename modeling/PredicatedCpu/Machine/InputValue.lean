/-
# Input values

The value for a waiting load arrives as text.  It is a decimal, hexadecimal or binary numeral,
possibly with a minus sign in front of it and blanks around it, and is taken modulo the size
of a word.  Numbers of more than 63 bits are not accepted, however they would come out.
-/
import PredicatedCpu.Text.Blank
import PredicatedCpu.Text.Numeral
import PredicatedCpu.Word

namespace PredicatedCpu

/-- The word that a text stands for as input. -/
def inputValue? (text : String) : Option Word :=
  match Text.trim text.toList with
  | '-' :: digits =>
    (Text.numeralBelow? (.pow 2 63) .all digits).map fun magnitude => -Word.ofNat magnitude
  | digits => (Text.numeralBelow? (.pow 2 63) .all digits).map Word.ofNat

end PredicatedCpu

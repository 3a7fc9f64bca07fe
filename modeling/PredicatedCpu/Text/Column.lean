/-
# Columns

Reports and listings set texts in columns.  A text shorter than its column is filled up on
one side; a longer one is left as it is.
-/
namespace PredicatedCpu
namespace Text

/-- The filling that brings `text` up to `width` characters. -/
def filling (fill : Char) (width : Nat) (text : String) : String :=
  String.ofList (List.replicate (width - text.length) fill)

/-- `text` at the right edge of a column. -/
def alignRight (width : Nat) (text : String) : String := filling ' ' width text ++ text

/-- `text` at the left edge of a column. -/
def alignLeft (width : Nat) (text : String) : String := text ++ filling ' ' width text

/-- `text` filled up with leading zeros. -/
def zeroPad (width : Nat) (text : String) : String := filling '0' width text ++ text

/-- The word that counts `n` things: `one` for exactly one, and `one` with an `s` otherwise. -/
def plural (n : Nat) (one : String) : String := if n = 1 then one else one ++ "s"

end Text
end PredicatedCpu

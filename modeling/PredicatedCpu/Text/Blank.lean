/-
# Blank characters

Where this assembler lets text be spaced out, any character with the Unicode property
White_Space will do: the line feed and the tab, but also the no-break space and the
ideographic one.  Core's `Char.isWhitespace` knows four of them, so the property is given
here as a table, and the three ways of trimming are read off it.

* `isBlank`: the property, by table;
* `trimStart`, `trimEnd`, `trim`: a text without the blanks at one end, or at both;
* `words`: the maximal runs of characters that are not blank.
-/
namespace PredicatedCpu
namespace Text

/-! ## 1. The property -/

/-- The code points with the property White_Space, as closed ranges in ascending order. -/
def blankRanges : List (Nat × Nat) :=
  [(0x0009, 0x000D), (0x0020, 0x0020), (0x0085, 0x0085), (0x00A0, 0x00A0), (0x1680, 0x1680),
    (0x2000, 0x200A), (0x2028, 0x2029), (0x202F, 0x202F), (0x205F, 0x205F), (0x3000, 0x3000)]

/-- Whether a character is **blank**: one of the 25 with the property White_Space. -/
def isBlank (c : Char) : Bool :=
  blankRanges.any fun range => decide (range.1 ≤ c.toNat) && decide (c.toNat ≤ range.2)

/-- The ranges ascend and do not touch. -/
example : (blankRanges.zip blankRanges.tail).all (fun p => p.1.2 + 1 < p.2.1) = true := by decide

/-- There are 25 of them. -/
example : (blankRanges.map fun range => range.2 + 1 - range.1).sum = 25 := by decide

/-! ## 2. Trimming -/

/-- A text without its leading blanks. -/
def trimStart (cs : List Char) : List Char := cs.dropWhile isBlank

/-- A text without its trailing blanks. -/
def trimEnd (cs : List Char) : List Char := (cs.reverse.dropWhile isBlank).reverse

/-- A text without blanks at either end. -/
def trim (cs : List Char) : List Char := trimStart (trimEnd cs)

/-! ## 3. Words -/

/-- The words of a text: what is left between blanks, empty pieces dropped. -/
def words (cs : List Char) : List (List Char) :=
  (cs.splitOnP isBlank).filter fun piece => !piece.isEmpty

example : words [' ', 'a', 'b', '\t', '\t', 'c', ' '] = [['a', 'b'], ['c']] := by decide

end Text
end PredicatedCpu

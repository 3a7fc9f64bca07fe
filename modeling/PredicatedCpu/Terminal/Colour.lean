/-
# Coloured text

Colour is written into a text as escape sequences: an escape character, some parameters and
the letter `m`.  `paint` puts a text between the sequence that sets a colour and the one that
resets it; `plain` takes every sequence out again.
-/
namespace PredicatedCpu

/-- The colours in use. -/
inductive Colour where
  | red | green | yellow | blue | cyan
  deriving DecidableEq, Repr

namespace Terminal

/-- The character that begins an escape sequence. -/
def escape : Char := '\x1b'

/-! ## 1. Taking colour out -/

/-- The visible part of a text: everything but the sequences, each of which goes from an
escape through the next `m`, or to the end if there is none.  `inside` says whether the text
begins within a sequence. -/
def visible (inside : Bool) : List Char → List Char
  | [] => []
  | c :: rest =>
    if inside then visible (c != 'm') rest
    else if c = escape then visible true rest
    else c :: visible false rest

/-- A text without its escape sequences. -/
def plain (text : String) : String := String.ofList (visible false text.toList)

/-! ## 2. Putting colour in -/

/-- The sequence that goes back to no colour. -/
def reset : String := "\x1b[0m"

end Terminal

/-- The sequence that sets a colour. -/
def Colour.sequence : Colour → String
  | red => "\x1b[31m"
  | green => "\x1b[32m"
  | yellow => "\x1b[33m"
  | blue => "\x1b[34m"
  | cyan => "\x1b[36m"

namespace Terminal

/-- A text in which every reset is followed by `style`, so that the style goes on. -/
def restyle (style : List Char) : List Char → List Char
  | '\x1b' :: '[' :: '0' :: 'm' :: rest => reset.toList ++ style ++ restyle style rest
  | c :: rest => c :: restyle style rest
  | [] => []

/-- A text in a colour. -/
def paint (colour : Colour) (text : String) : String :=
  colour.sequence ++ String.ofList (restyle colour.sequence.toList text.toList) ++ reset

end Terminal
end PredicatedCpu

/-
# Fragments

A fragment is a piece of a text that remembers where it began, so that a complaint about it
can point back into the text.  Positions and lengths are counted in bytes of the UTF-8
encoding, while the pieces themselves are lists of characters; a cut therefore always falls
between two characters.

* `Fragment.trim` and its halves: a fragment without the blanks around it.  Where nothing but
  blanks is there, `trim` leaves the empty fragment at the front and `trimStart` the empty
  fragment at the end;
* `Fragment.splitFirst?`: before and after the first character of a kind;
* `Fragment.splitOn`: between all separators.
-/
import PredicatedCpu.Text.Blank

namespace PredicatedCpu

/-! ## 1. Positions -/

/-- A range of bytes. -/
structure Span where
  start : Nat
  length : Nat
  deriving DecidableEq, Repr

/-- The same range counted from `offset` bytes further to the front. -/
def Span.shift (offset : Nat) (span : Span) : Span := ⟨offset + span.start, span.length⟩

/-- How many bytes a text takes in UTF-8. -/
def Text.byteWidth : List Char → Nat
  | [] => 0
  | c :: rest => c.utf8Size + byteWidth rest

theorem Text.byteWidth_append (cs ds : List Char) :
    Text.byteWidth (cs ++ ds) = Text.byteWidth cs + Text.byteWidth ds := by
  induction cs with
  | nil => simp [Text.byteWidth]
  | cons c rest ih => simp [Text.byteWidth, ih, Nat.add_assoc]

/-- A piece of a text and the byte at which it begins. -/
structure Fragment where
  start : Nat
  chars : List Char
  deriving DecidableEq, Repr

namespace Fragment

/-- The fragment as a string of its own. -/
def text (f : Fragment) : String := String.ofList f.chars

/-- Where the fragment lies. -/
def span (f : Fragment) : Span := ⟨f.start, Text.byteWidth f.chars⟩

/-- The byte after the last one. -/
def stop (f : Fragment) : Nat := f.start + Text.byteWidth f.chars

def isEmpty (f : Fragment) : Bool := f.chars.isEmpty

/-! ## 2. Cutting at one place -/

/-- The longest front part whose characters all satisfy `p`. -/
def takeWhile (p : Char → Bool) (f : Fragment) : Fragment := ⟨f.start, f.chars.takeWhile p⟩

/-- What `takeWhile` leaves. -/
def dropWhile (p : Char → Bool) (f : Fragment) : Fragment :=
  ⟨f.start + Text.byteWidth (f.chars.takeWhile p), f.chars.dropWhile p⟩

def trimStart (f : Fragment) : Fragment := f.dropWhile Text.isBlank

def trimEnd (f : Fragment) : Fragment := ⟨f.start, Text.trimEnd f.chars⟩

def trim (f : Fragment) : Fragment := f.trimEnd.trimStart

/-- The parts before and after the first character that satisfies `p`, if there is one. -/
def splitFirst? (p : Char → Bool) (f : Fragment) : Option (Fragment × Fragment) :=
  let before := f.takeWhile fun c => !p c
  match f.chars.dropWhile fun c => !p c with
  | [] => none
  | c :: after => some (before, ⟨before.stop + c.utf8Size, after⟩)

/-! ## 3. Cutting at every separator -/

/-- Pieces laid out one after the other from `start`, with a separator between any two. -/
def place (separator : Char) (start : Nat) : List (List Char) → List Fragment
  | [] => []
  | piece :: rest =>
    ⟨start, piece⟩ ::
      place separator (start + Text.byteWidth piece + separator.utf8Size) rest

/-- The fragments between the separators, in order; the separators belong to none. -/
def splitOn (separator : Char) (f : Fragment) : List Fragment :=
  place separator f.start (f.chars.splitOn separator)

@[simp] theorem chars_place (separator : Char) (start : Nat) (pieces : List (List Char)) :
    (place separator start pieces).map chars = pieces := by
  induction pieces generalizing start with
  | nil => rfl
  | cons piece rest ih => simp [place, ih]

theorem chars_splitOn (separator : Char) (f : Fragment) :
    (f.splitOn separator).map chars = f.chars.splitOn separator := by
  simp [splitOn]

end Fragment
end PredicatedCpu

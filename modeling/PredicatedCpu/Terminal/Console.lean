/-
# The console

What a session writes: the output of the machine on one stream, and what the tool has to say
on the other.  Both appear on one screen, so they share the knowledge of whether the cursor is
at the start of a line.

A **minimal** console is for programs that read along.  It writes no colour and leaves out
what is only there for people.
-/
import PredicatedCpu.Terminal.Colour
import PredicatedCpu.Text.Column

namespace PredicatedCpu

/-- The two streams and how they are written to. -/
structure Console where
  /-- Whether messages are coloured. -/
  colour : Bool
  minimal : Bool
  atLineStart : Bool
  /-- The output of the machine so far. -/
  stdout : String
  /-- The messages of the tool so far. -/
  stderr : String
  deriving DecidableEq, Repr

namespace Console

/-- A console to which nothing was written. -/
def fresh (colour minimal : Bool) : Console := ⟨colour, minimal, true, "", ""⟩

/-- A text in a colour, if this console has colours. -/
def paint (c : Console) (colour : Colour) (text : String) : String :=
  if c.colour then Terminal.paint colour text else text

/-- Where the cursor is after a text: at the start of a line if the last visible character
ends one.  A text of which nothing is visible leaves the cursor where it is. -/
def lineStartAfter (before : Bool) (text : String) : Bool :=
  match (Terminal.visible false text.toList).getLast? with
  | some c => c == '\n'
  | none => before

/-- Moves the cursor as a text does. -/
def moveCursor (c : Console) (text : String) : Console :=
  { c with atLineStart := lineStartAfter c.atLineStart text }

/-- Writes output of the machine. -/
def write (c : Console) (text : String) : Console :=
  { c.moveCursor text with stdout := c.stdout ++ text }

/-- Writes a message that must not be missed. -/
def tell (c : Console) (text : String) : Console :=
  { c.moveCursor text with
    stderr := c.stderr ++ if c.minimal then Terminal.plain text else text }

/-- Writes a message that a minimal console leaves out. -/
def mention (c : Console) (text : String) : Console :=
  if c.minimal then c else c.tell text

/-- Goes to the start of a line. -/
def startLine (c : Console) : Console :=
  if c.atLineStart then c else c.tell "\n"

/-- A word in a colour at the right edge of the first column. -/
def margin (c : Console) (colour : Colour) (word : String) : String :=
  c.paint colour (Text.alignRight 12 word)

/-- Writes a line that says why something was not done. -/
def complain (c : Console) (text : String) : Console := c.tell (c.paint .red text ++ "\n")

/-- The cursor after the person at the console has ended a line. -/
def lineEntered (c : Console) : Console := { c with atLineStart := true }

end Console
end PredicatedCpu

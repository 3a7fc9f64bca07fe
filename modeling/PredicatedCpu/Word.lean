/-
# Words and addresses

The processor computes with words of 16 bits and has 512 words of memory, so an address has
nine bits.  Words are bit vectors and addresses are numbers below 512: arithmetic on either
wraps round by itself.

The last sixteen addresses are the **window** through which the machine talks to the outside.
One of them, the **input address**, is where it asks for a value.
-/
namespace PredicatedCpu

/-- A machine word. -/
abbrev Word := BitVec 16

/-- How many words of memory there are. -/
abbrev memorySize : Nat := 512

/-- The address of a word of memory. -/
abbrev Address := Fin 512

instance Address.neZero : @NeZero Nat .ofOfNat0 512 := ⟨by decide⟩

/-- The first address of the window. -/
def windowBase : Nat := 0x1F0

/-- The address that asks for input. -/
def inputAddress : Nat := 0x1F0

/-- The number in a word, as one that counts from 0 to 65535. -/
def Word.ofNat (value : Nat) : Word := BitVec.ofNat 16 value

/-- The nine low bits of a word. -/
def Address.ofWord (word : Word) : Address := Fin.ofNat 512 word.toNat

/-- Whether a word, taken as an address, lies in the window. -/
def Word.isWindow (word : Word) : Bool := decide (windowBase ≤ word.toNat)

end PredicatedCpu

/-
# Names without regard to case

Mnemonics, registers, conditions, labels and the commands of the debugger may be written in
either case.  Only the letters of ASCII have a case here: `é` and `É` are two characters.
-/
namespace PredicatedCpu
namespace Text

/-- A name with its ASCII letters in upper case.  Two names are **the same up to case** when
this makes them equal. -/
def upper (name : String) : String := String.ofList (name.toList.map Char.toUpper)

/-- A name with its ASCII letters in lower case. -/
def lower (name : String) : String := String.ofList (name.toList.map Char.toLower)

@[simp] theorem toList_upper (name : String) :
    (upper name).toList = name.toList.map Char.toUpper := by
  simp [upper]

end Text
end PredicatedCpu

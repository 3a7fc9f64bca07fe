/-
# File names

A program is only run from a file whose name has the extension `asm`, written so.  The name of
a file is the last component of its path; slashes at the end and components that are a single
dot do not count.  Its extension is what follows its last dot, unless that dot is its first
character.
-/
namespace PredicatedCpu
namespace CommandLine

/-- The components of a path. -/
def pathComponents (path : String) : List (List Char) :=
  (path.toList.splitOn '/').filter fun component => component ≠ [] ∧ component ≠ ['.']

/-- The name of the file at a path.  A path that ends by going up names none. -/
def fileName? (path : String) : Option (List Char) :=
  (pathComponents path).getLast?.filter fun name => name ≠ ['.', '.']

/-- The extension of a file's name. -/
def extension? (name : List Char) : Option (List Char) :=
  match name.reverse.dropWhile (· != '.') with
  | [] | [_] => none
  | _ :: _ :: _ => some (name.reverse.takeWhile (· != '.')).reverse

/-- Whether the file at a path has the extension of assembly sources. -/
def isSourcePath (path : String) : Bool :=
  (fileName? path).bind extension? == some ['a', 's', 'm']

example : isSourcePath "a.b.asm" = true ∧ isSourcePath ".asm" = false := by decide

end CommandLine
end PredicatedCpu

/-
# Symbol tables

A symbol table gives names to addresses.  It keeps the names in the order in which they were
defined, upper-cased: two names that differ only in the case of ASCII letters are one name,
and it can be defined once.

* `insert`: defines a name, or tells where it is defined already;
* `get?`: the address of a name;
* `labelAt?`: the name of an address, the first one defined if there are several.
-/
import PredicatedCpu.Text.Case

namespace PredicatedCpu

/-- Names and their addresses, in the order of definition. -/
structure SymbolTable where
  entries : List (String × Nat)
  deriving DecidableEq, Repr

namespace SymbolTable

def empty : SymbolTable := ⟨[]⟩

/-- The address of a name, in either case. -/
def get? (table : SymbolTable) (name : String) : Option Nat :=
  table.entries.lookup (Text.upper name)

/-- Defines a name.  If it is defined already, the answer is the address it has. -/
def insert (table : SymbolTable) (name : String) (address : Nat) : Except Nat SymbolTable :=
  match table.get? name with
  | some existing => .error existing
  | none => .ok ⟨table.entries ++ [(Text.upper name, address)]⟩

/-- The first name that was defined for an address. -/
def labelAt? (table : SymbolTable) (address : Nat) : Option String :=
  (table.entries.find? fun entry => entry.2 == address).map Prod.fst

/-- How many names there are. -/
def size (table : SymbolTable) : Nat := table.entries.length

@[simp] theorem get?_empty (name : String) : empty.get? name = none := rfl

theorem entries_of_insert {table table' : SymbolTable} {name : String} {address : Nat}
    (h : table.insert name address = .ok table') :
    table'.entries = table.entries ++ [(Text.upper name, address)] := by
  unfold insert at h
  split at h
  · cases h
  · cases h; rfl

theorem insert_eq_error_iff {table : SymbolTable} {name : String} {address existing : Nat} :
    table.insert name address = .error existing ↔ table.get? name = some existing := by
  unfold insert
  split <;> simp_all

end SymbolTable
end PredicatedCpu

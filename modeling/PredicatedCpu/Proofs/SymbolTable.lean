/-
# A symbol table records its history

Names are defined one after the other, and some of the attempts fail, because the name is taken.
What a table knows after all of them could depend on more than was defined: on an attempt that
failed and overwrote an address, on the case in which a name came first, or on a letter outside of
ASCII that has a second case somewhere.  It depends on none of this.  The table is the list of the
definitions that were made, in order, and every question is answered from that list.

* `SameName`: two names that differ in nothing but the case of ASCII letters, and
  `upper_eq_upper_iff`: upper-casing makes just these equal;
* `defineAll`, `made`: a table after any attempts, and those of them that succeeded;
* `Records`: a table that answers from a list of definitions;
* `records_made`: every table does, and its list grows with each attempt that succeeds and with no
  other.
-/
import Mathlib.Data.List.Forall2
import Mathlib.Data.List.Induction
import Mathlib.Data.List.Nodup
import PredicatedCpu.Proofs.Assembly.Linking
import PredicatedCpu.Proofs.Text.Casing

namespace PredicatedCpu

/-! ## 1. Names up to case -/

/-- Whether two characters are the same, or **one letter of ASCII in its two cases**: the 26 small
letters stand 32 places behind the capital ones. -/
def SameLetter (c d : Char) : Prop :=
  c = d ∨ (97 ≤ c.toNat ∧ c.toNat ≤ 122 ∧ c.toNat = d.toNat + 32) ∨
    97 ≤ d.toNat ∧ d.toNat ≤ 122 ∧ d.toNat = c.toNat + 32

/-- Whether two names are **the same up to case**. -/
def SameName (name name' : String) : Prop :=
  List.Forall₂ SameLetter name.toList name'.toList

theorem toNat_toUpper (c : Char) :
    c.toUpper.toNat = if 97 ≤ c.toNat ∧ c.toNat ≤ 122 then c.toNat - 32 else c.toNat := by
  have hlower : c.isLower = true ↔ 97 ≤ c.toNat ∧ c.toNat ≤ 122 := by
    simp [Char.isLower, UInt32.le_iff_toNat_le]
  by_cases h : c.isLower = true
  · rw [if_pos (hlower.mp h), Char.toUpper_eq_of_isLower h, Char.toNat_ofNat, if_pos]
    have hrange := hlower.mp h
    exact .inl (by omega)
  · rw [if_neg fun hrange => h (hlower.mpr hrange), Char.toUpper_eq_of_not_isLower h]

theorem toUpper_eq_toUpper_iff {c d : Char} : c.toUpper = d.toUpper ↔ SameLetter c d := by
  rw [SameLetter, ← Char.toNat_inj, ← Char.toNat_inj, toNat_toUpper, toNat_toUpper]
  split <;> split <;> omega

/-- **Upper-casing makes equal** what is the same up to case, and nothing else. -/
theorem upper_eq_upper_iff {name name' : String} :
    Text.upper name = Text.upper name' ↔ SameName name name' := by
  have hletters : SameLetter = fun c d => c.toUpper = d.toUpper :=
    funext fun c => funext fun d => propext toUpper_eq_toUpper_iff.symm
  rw [← String.toList_inj, Text.toList_upper, Text.toList_upper, ← List.forall₂_eq_eq_eq,
    List.forall₂_map_left_iff, List.forall₂_map_right_iff, SameName, hletters]

namespace SymbolTable

/-! ## 2. Attempts -/

/-- What stands in a table for a definition that was made. -/
def entryOf (definition : String × Nat) : String × Nat :=
  (Text.upper definition.1, definition.2)

/-- The table after an attempt to define a name.  One that fails changes nothing. -/
def define (table : SymbolTable) (attempt : String × Nat) : SymbolTable :=
  match table.insert attempt.1 attempt.2 with
  | .ok table' => table'
  | .error _ => table

/-- The table after some attempts. -/
def defineAll (table : SymbolTable) (attempts : List (String × Nat)) : SymbolTable :=
  attempts.foldl define table

/-- The definitions that were **made** in some attempts: those attempts that succeeded. -/
def made (table : SymbolTable) : List (String × Nat) → List (String × Nat)
  | [] => []
  | attempt :: rest =>
    match table.insert attempt.1 attempt.2 with
    | .ok table' => attempt :: table'.made rest
    | .error _ => table.made rest

theorem made_cons (table : SymbolTable) (attempt : String × Nat) (rest : List (String × Nat)) :
    table.made (attempt :: rest) =
      match table.insert attempt.1 attempt.2 with
      | .ok table' => attempt :: table'.made rest
      | .error _ => table.made rest :=
  rfl

/-- What comes of one more attempt. -/
theorem defineAll_concat (table : SymbolTable) (attempts : List (String × Nat))
    (attempt : String × Nat) :
    table.defineAll (attempts ++ [attempt]) = (table.defineAll attempts).define attempt := by
  rw [defineAll, List.foldl_append, List.foldl_cons, List.foldl_nil, defineAll]

/-- It is added to what was made if it succeeds.  The induction is on the attempts before it. -/
theorem made_concat (table : SymbolTable) (attempts : List (String × Nat))
    (attempt : String × Nat) :
    table.made (attempts ++ [attempt]) =
      match (table.defineAll attempts).insert attempt.1 attempt.2 with
      | .ok _ => table.made attempts ++ [attempt]
      | .error _ => table.made attempts := by
  induction attempts generalizing table with
  | nil =>
    rw [List.nil_append, made_cons, defineAll, List.foldl_nil]
    cases table.insert attempt.1 attempt.2 <;> rfl
  | cons first rest ih =>
    rw [List.cons_append, made_cons, made_cons, defineAll, List.foldl_cons, define]
    cases table.insert first.1 first.2 with
    | ok table' =>
      dsimp only
      rw [ih, defineAll]
      cases (rest.foldl define table').insert attempt.1 attempt.2 <;> rfl
    | error existing => exact ih table

/-! ## 3. What a table knows -/

/-- Whether a table **answers from a list of definitions**. -/
structure Records (definitions : List (String × Nat)) (table : SymbolTable) : Prop where
  /-- The entries are the definitions, with their names in upper case. -/
  entries : table.entries = definitions.map entryOf
  size : table.size = definitions.length
  /-- No name was defined twice. -/
  once : definitions.Pairwise fun d d' => ¬ SameName d.1 d'.1
  /-- A name can be defined if it was not defined, in either case. -/
  insert_ok : ∀ name address,
    (∃ table', table.insert name address = .ok table') ↔ ∀ d ∈ definitions, ¬ SameName d.1 name
  /-- Otherwise the answer is the address that it was defined with. -/
  insert_error : ∀ name address existing,
    table.insert name address = .error existing ↔
      ∃ d ∈ definitions, SameName d.1 name ∧ d.2 = existing
  get_some : ∀ name address,
    table.get? name = some address ↔ ∃ d ∈ definitions, SameName d.1 name ∧ d.2 = address
  get_none : ∀ name, table.get? name = none ↔ ∀ d ∈ definitions, ¬ SameName d.1 name
  /-- The label of an address is the first name that was defined with it. -/
  label_some : ∀ address label,
    table.labelAt? address = some label ↔
      ∃ before d after, definitions = before ++ d :: after ∧ d.2 = address ∧
        Text.upper d.1 = label ∧ ∀ d' ∈ before, d'.2 ≠ address
  label_none : ∀ address, table.labelAt? address = none ↔ ∀ d ∈ definitions, d.2 ≠ address

variable {table : SymbolTable} {definitions : List (String × Nat)}

/-- A name is found with its address, if no two entries have one name. -/
theorem get?_eq_some_iff (h : table.names.Nodup) {name : String} {address : Nat} :
    table.get? name = some address ↔ (Text.upper name, address) ∈ table.entries := by
  constructor
  · exact mem_entries_of_get?
  · intro hmem
    cases hget : table.get? name with
    | none => exact absurd (List.mem_map_of_mem hmem) (get?_eq_none_iff.mp hget)
    | some other =>
      have hother := mem_entries_of_get? hget
      rw [(Prod.mk.inj (List.inj_on_of_nodup_map h hother hmem rfl)).2]

theorem insert_eq_ok_iff {name : String} {address : Nat} {table' : SymbolTable} :
    table.insert name address = .ok table' ↔
      table.get? name = none ∧ table' = ⟨table.entries ++ [entryOf (name, address)]⟩ := by
  unfold insert
  cases table.get? name with
  | none => simp [eq_comm, entryOf]
  | some existing => simp

/-- The label of an address is **the first one that was defined for it**. -/
theorem labelAt?_eq_some_iff {address : Nat} {label : String} :
    table.labelAt? address = some label ↔
      ∃ before after, table.entries = before ++ (label, address) :: after ∧
        ∀ entry ∈ before, entry.2 ≠ address := by
  simp only [labelAt?, Option.map_eq_some_iff, List.find?_eq_some_iff_append, beq_iff_eq,
    Bool.not_eq_true', beq_eq_false_iff_ne]
  constructor
  · rintro ⟨⟨label, address⟩, ⟨rfl, before, after, hentries, hbefore⟩, rfl⟩
    exact ⟨before, after, hentries, hbefore⟩
  · rintro ⟨before, after, hentries, hbefore⟩
    exact ⟨(label, address), ⟨rfl, before, after, hentries, hbefore⟩, rfl⟩

theorem labelAt?_eq_none_iff {address : Nat} :
    table.labelAt? address = none ↔ ∀ entry ∈ table.entries, entry.2 ≠ address := by
  simp only [labelAt?, Option.map_eq_none_iff, List.find?_eq_none, beq_iff_eq, ne_eq]

/-- **Entries tell everything**: a table whose entries are definitions, none of them made twice,
answers from them. -/
theorem records_of_entries (hentries : table.entries = definitions.map entryOf)
    (hdistinct : table.names.Nodup) : table.Records definitions := by
  have hnames : table.names = definitions.map fun d => Text.upper d.1 := by
    rw [names, hentries, List.map_map]
    rfl
  have hnone (name : String) :
      table.get? name = none ↔ ∀ d ∈ definitions, ¬ SameName d.1 name := by
    rw [get?_eq_none_iff, hnames, List.mem_map]
    simp only [upper_eq_upper_iff, not_exists, not_and]
  have hsome (name : String) (address : Nat) :
      table.get? name = some address ↔ ∃ d ∈ definitions, SameName d.1 name ∧ d.2 = address := by
    rw [get?_eq_some_iff hdistinct, hentries, List.mem_map]
    simp only [entryOf, Prod.mk.injEq, upper_eq_upper_iff]
  constructor
  · exact hentries
  · rw [size, hentries, List.length_map]
  · rw [hnames, List.Nodup, List.pairwise_map] at hdistinct
    exact hdistinct.imp fun hne hsame => hne (upper_eq_upper_iff.mpr hsame)
  · intro name address
    rw [← hnone]
    simp only [insert_eq_ok_iff, exists_and_left, exists_eq, and_true]
  · intro name address existing
    rw [insert_eq_error_iff, hsome]
  · exact hsome
  · exact hnone
  · intro address label
    rw [labelAt?_eq_some_iff, hentries]
    constructor
    · rintro ⟨before, after, hsplit, hbefore⟩
      obtain ⟨first, others, rfl, rfl, hothers⟩ := List.map_eq_append_iff.mp hsplit
      obtain ⟨d, rest, rfl, hd, rfl⟩ := List.map_eq_cons_iff.mp hothers
      obtain ⟨rfl, rfl⟩ := Prod.mk.inj hd
      rw [List.forall_mem_map] at hbefore
      exact ⟨first, d, rest, rfl, rfl, rfl, hbefore⟩
    · rintro ⟨before, d, after, rfl, rfl, rfl, hbefore⟩
      refine ⟨before.map entryOf, after.map entryOf, List.map_append, ?_⟩
      rwa [List.forall_mem_map]
  · intro address
    rw [labelAt?_eq_none_iff, hentries, List.forall_mem_map]
    rfl

/-! ## 4. Every table -/

/-- **The entries are the definitions that were made.**  The induction is on the attempts, the last
one first; it is made only if its name is none of those in the table. -/
theorem entries_defineAll (attempts : List (String × Nat)) :
    (empty.defineAll attempts).entries = (empty.made attempts).map entryOf ∧
      (empty.defineAll attempts).names.Nodup := by
  induction attempts using List.reverseRecOn with
  | nil => exact ⟨rfl, List.nodup_nil⟩
  | append_singleton attempts attempt ih =>
    obtain ⟨hentries, hdistinct⟩ := ih
    rw [defineAll_concat, made_concat, define]
    cases hinsert : (empty.defineAll attempts).insert attempt.1 attempt.2 with
    | error existing => exact ⟨hentries, hdistinct⟩
    | ok table' =>
      obtain ⟨hnew, rfl⟩ := insert_eq_ok_iff.mp hinsert
      refine ⟨by rw [hentries, List.map_append, List.map_singleton], ?_⟩
      rw [names, List.map_append, List.map_singleton, ← names, ← List.concat_eq_append]
      exact hdistinct.concat (get?_eq_none_iff.mp hnew)

/-- **A symbol table records its history.**  Whatever was attempted since it was empty, it answers
from the definitions that were made: whether a name can be defined, where it is defined already,
what the address of a name is and what the label of an address, all entries in order, and how many
there are.  One more attempt that succeeds is one more definition, behind the others, and one that
fails changes nothing. -/
theorem records_made (attempts : List (String × Nat)) :
    (empty.defineAll attempts).Records (empty.made attempts) ∧
    ∀ attempt : String × Nat,
      (empty.defineAll (attempts ++ [attempt]), empty.made (attempts ++ [attempt])) =
        match (empty.defineAll attempts).insert attempt.1 attempt.2 with
        | .ok table' => (table', empty.made attempts ++ [attempt])
        | .error _ => (empty.defineAll attempts, empty.made attempts) := by
  obtain ⟨hentries, hdistinct⟩ := entries_defineAll attempts
  refine ⟨records_of_entries hentries hdistinct, fun attempt => ?_⟩
  rw [defineAll_concat, made_concat, define]
  cases (empty.defineAll attempts).insert attempt.1 attempt.2 <;> rfl

/-- Only letters of ASCII have a second case. -/
example : (empty.defineAll [("Loop", 3), ("lOoP", 7), ("É", 3), ("é", 3)]).entries =
    [("LOOP", 3), ("É", 3), ("é", 3)] := by decide

end SymbolTable
end PredicatedCpu

/-
# Where the statements of a source stand

The statements of a source are laid out one after the other, and each gets three numbers on the way:
its line, the byte at which the line begins, and its address.  Nothing else passes from one line to
the next.  So a part of a source is laid out as it would be alone, only further on, and what is wrong
with it is wrong further on.

* `textLines`: the pieces of a source between its line feeds;
* `Place`, `placed`: laying out pieces from a place, and `entries_eq_placed`;
* `placed_append`: what comes behind other pieces is laid out from where these end;
* `Entry.move`, `placed_move`: the same further on;
* `carries_move`: and what is wrong with it is wrong further on.
-/
import PredicatedCpu.Proofs.Assembly.Order
import PredicatedCpu.Proofs.Assembly.Statements

namespace PredicatedCpu

/-! ## 1. Places -/

/-- The pieces of a source between its line feeds, each with the carriage return that may be part of
its line ending. -/
def textLines (source : String) : List (List Char) := source.toList.splitOn '\n'

/-- How many addresses a line takes. -/
def sizeOfLine (piece : List Char) : Nat := ((Statement.ofLine? piece).map Statement.size).getD 0

/-- Where a line stands. -/
structure Place where
  /-- How many instructions come before it. -/
  address : Nat
  /-- Its number. -/
  line : Nat
  /-- The byte at which it begins. -/
  start : Nat

namespace Place

/-- Where the first line stands. -/
def first : Place := ⟨0, 1, 0⟩

/-- Where the line behind `piece` stands. -/
def next (p : Place) (piece : List Char) : Place :=
  ⟨p.address + sizeOfLine piece, p.line + 1, p.start + Text.byteWidth piece + 1⟩

/-- Where the line behind some pieces stands. -/
def behind (p : Place) (pieces : List (List Char)) : Place := pieces.foldl next p

/-- A place further on. -/
def move (lines bytes : Nat) (p : Place) : Place := ⟨p.address, p.line + lines, bytes + p.start⟩

/-- The statement of a line in its place. -/
def lay? (p : Place) (piece : List Char) : Option Entry :=
  (Statement.ofLine? piece).map fun statement => ⟨p.line, p.start, statement, p.address⟩

@[simp] theorem line_next (p : Place) (piece : List Char) : (p.next piece).line = p.line + 1 := rfl

@[simp] theorem line_behind (p : Place) (pieces : List (List Char)) :
    (p.behind pieces).line = p.line + pieces.length := by
  induction pieces generalizing p with
  | nil => rfl
  | cons piece rest ih =>
    rw [behind, List.foldl_cons, ← behind, ih, line_next, List.length_cons]
    omega

theorem next_move (lines bytes : Nat) (p : Place) (piece : List Char) :
    (p.move lines bytes).next piece = (p.next piece).move lines bytes := by
  simp only [next, move, mk.injEq, true_and]
  omega

end Place

/-! ## 2. Laying out -/

/-- The statements of some pieces, the first of which stands at a place. -/
def placed (p : Place) : List (List Char) → List Entry
  | [] => []
  | piece :: rest => (p.lay? piece).toList ++ placed (p.next piece) rest

theorem layout_cons (line : SourceLine) (rest : List SourceLine) (address : Nat) :
    layout address (line :: rest) =
      ((⟨address, line.number, line.start⟩ : Place).lay? line.chars).toList ++
        layout (address + sizeOfLine line.chars) rest := by
  rw [layout, Place.lay?, sizeOfLine]
  cases Statement.ofLine? line.chars <;> rfl

/-- **Line endings need no care** when statements are laid out: a carriage return adds nothing, and
a last piece that is empty says nothing. -/
theorem layout_numberLines (p : Place) (pieces : List (List Char)) :
    layout p.address (numberLines p.line p.start pieces) = placed p pieces := by
  induction pieces generalizing p with
  | nil => rfl
  | cons piece rest ih =>
    cases rest with
    | nil =>
      cases piece with
      | nil => rfl
      | cons c cs => exact layout_cons ..
    | cons following rest =>
      have hentry : p.lay? (dropReturn piece) = p.lay? piece := by
        rw [Place.lay?, Place.lay?, ofLine?_dropReturn]
      have hsize : sizeOfLine (dropReturn piece) = sizeOfLine piece := by
        rw [sizeOfLine, sizeOfLine, ofLine?_dropReturn]
      rw [placed, ← ih (p.next piece), ← hentry, Place.next, ← hsize]
      exact layout_cons ..

/-- The statements of a source, from the pieces between its line feeds. -/
theorem entries_eq_placed (source : String) : entries source = placed .first (textLines source) :=
  layout_numberLines .first (textLines source)

/-- **What comes behind other pieces** is laid out from where these end. -/
theorem placed_append (p : Place) (front back : List (List Char)) :
    placed p (front ++ back) = placed p front ++ placed (p.behind front) back := by
  induction front generalizing p with
  | nil => rfl
  | cons piece rest ih =>
    rw [List.cons_append, placed, placed, ih, List.append_assoc]
    rfl

/-- Every statement is that of a piece, in its place. -/
theorem exists_piece_of_mem_placed {p : Place} {pieces : List (List Char)} {e : Entry}
    (h : e ∈ placed p pieces) :
    ∃ front piece back, pieces = front ++ piece :: back ∧
      (p.behind front).lay? piece = some e := by
  induction pieces generalizing p with
  | nil => cases h
  | cons piece rest ih =>
    rw [placed, List.mem_append, Option.mem_toList] at h
    rcases h with hfirst | hrest
    · exact ⟨[], piece, rest, rfl, hfirst⟩
    · obtain ⟨front, piece', back, rfl, hentry⟩ := ih hrest
      exact ⟨piece :: front, piece', back, rfl, hentry⟩

/-- It stands on the line of its piece. -/
theorem line_of_mem_placed {p : Place} {pieces : List (List Char)} {e : Entry}
    (h : e ∈ placed p pieces) : p.line ≤ e.line ∧ e.line < p.line + pieces.length := by
  obtain ⟨front, piece, back, rfl, hentry⟩ := exists_piece_of_mem_placed h
  obtain ⟨statement, -, rfl⟩ := Option.map_eq_some_iff.mp hentry
  simp

/-- A statement further on. -/
def Entry.move (lines bytes : Nat) (e : Entry) : Entry :=
  ⟨e.line + lines, bytes + e.start, e.statement, e.address⟩

theorem placed_move (lines bytes : Nat) (p : Place) (pieces : List (List Char)) :
    placed (p.move lines bytes) pieces = (placed p pieces).map (Entry.move lines bytes) := by
  induction pieces generalizing p with
  | nil => rfl
  | cons piece rest ih =>
    have hentry : (p.move lines bytes).lay? piece = (p.lay? piece).map (Entry.move lines bytes) := by
      rw [Place.lay?, Place.lay?, Option.map_map]
      rfl
    rw [placed, placed, Place.next_move, ih, hentry, List.map_append, Option.toList_map]

/-! ## 3. Diagnostics -/

/-- A diagnostic further on. -/
def Diagnostic.move (lines bytes : Nat) (d : Diagnostic) : Diagnostic :=
  ⟨d.problem, d.line + lines, d.span.shift bytes⟩

/-- The first pass goes over the first of some statements, and then over the others behind the
labels of these. -/
theorem labelDiagnostics_append (before : SymbolTable) (front back : List Entry) :
    labelDiagnostics before (front ++ back) =
      labelDiagnostics before front ++
        labelDiagnostics (front.foldl Entry.extend before) back := by
  induction front generalizing before with
  | nil => rfl
  | cons e rest ih =>
    rw [List.cons_append, labelDiagnostics, labelDiagnostics, ih, List.append_assoc]
    rfl

theorem symbolsOf_append (front back : List Entry) :
    symbolsOf (front ++ back) = back.foldl Entry.extend (symbolsOf front) := by
  rw [symbolsOf, List.foldl_append]
  rfl

theorem foldl_extend_move (lines bytes : Nat) (before : SymbolTable) (es : List Entry) :
    (es.map (Entry.move lines bytes)).foldl Entry.extend before =
      es.foldl Entry.extend before := by
  rw [List.foldl_map]
  rfl

/-- **What is wrong further on** is the same thing, further on. -/
theorem diagnostic_move (lines bytes : Nat) (e : Entry) (finding : Finding) :
    (e.move lines bytes).diagnostic finding = (e.diagnostic finding).move lines bytes := by
  simp [Entry.diagnostic, Entry.move, Diagnostic.move, Span.shift, Nat.add_assoc]

theorem carries_move (lines bytes : Nat) :
    Carries (Entry.move lines bytes) (Diagnostic.move lines bytes) :=
  .of_placed (fun _ => rfl) (fun _ => rfl) (diagnostic_move lines bytes)

end PredicatedCpu

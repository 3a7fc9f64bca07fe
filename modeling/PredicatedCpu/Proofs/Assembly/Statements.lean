/-
# What a source means hangs on its statements

The lines of a source carry more than is assembled: how each of them ends, what is blank or a
comment in it, and how many bytes lie before it.  Places matter where something is wrong and has
to be pointed at.  For a source that is assembled they do not: the program hangs on the list of
its statements alone.

* `statements`: the statements of a source, and `statements_eq_filterMap`, which finds them in the
  pieces between its line feeds;
* `labelsFrom`: the labels of statements with their addresses;
* `labelsDefine_iff`: labels can be defined one after the other exactly if each of them can be
  defined at all and no two have one name;
* `assemble_iff_statements`: what a source is assembled to, from its statements.
-/
import PredicatedCpu.Proofs.Assembly.Acceptance
import PredicatedCpu.Proofs.Text.Cutting

namespace PredicatedCpu

/-! ## 1. Statements without their places -/

/-- The statements of a source. -/
def statements (source : String) : List Statement := (entries source).map Entry.statement

/-- A carriage return at the end of a line says nothing: it is blank, or in a comment. -/
theorem ofLine?_append_return (cs : List Char) :
    Statement.ofLine? (cs ++ ['\r']) = Statement.ofLine? cs := by
  have hcode : ((Fragment.mk 0 (cs ++ ['\r'])).takeWhile (· != ';')).trim =
      ((Fragment.mk 0 cs).takeWhile (· != ';')).trim := by
    simp only [Fragment.takeWhile, List.takeWhile_append]
    -- Without a semicolon the return is the last character of the code; behind one it is cut off.
    split
    · rename_i hlength
      have hall : cs.takeWhile (· != ';') = cs :=
        (List.takeWhile_prefix _).eq_of_length hlength
      rw [hall]
      exact Fragment.trim_append_blank 0 cs (by decide)
    · rfl
  rw [Statement.ofLine?, Statement.ofLine?, hcode]

/-- So it does not matter whether it is taken for a part of the line ending. -/
theorem ofLine?_dropReturn (cs : List Char) :
    Statement.ofLine? (dropReturn cs) = Statement.ofLine? cs := by
  unfold dropReturn
  split
  · rename_i hlast
    obtain ⟨front, rfl⟩ := List.getLast?_eq_some_iff.mp hlast
    rw [List.dropLast_concat, ofLine?_append_return]
  · rfl

/-- Numbering and locating the lines does not change what they say. -/
theorem filterMap_numberLines (number start : Nat) (pieces : List (List Char)) :
    (numberLines number start pieces).filterMap (fun line => Statement.ofLine? line.chars) =
      pieces.filterMap Statement.ofLine? := by
  induction pieces generalizing number start with
  | nil => rfl
  | cons piece rest ih =>
    cases rest with
    | nil =>
      cases piece with
      | nil => rfl
      | cons c cs => rfl
    | cons next rest =>
      have hlines : numberLines number start (piece :: next :: rest) =
          ⟨number, start, dropReturn piece⟩ ::
            numberLines (number + 1) (start + Text.byteWidth piece + 1) (next :: rest) := rfl
      rw [hlines, List.filterMap_cons, List.filterMap_cons, ih, ofLine?_dropReturn]

theorem statements_layout_eq (address : Nat) (lines : List SourceLine) :
    (layout address lines).map Entry.statement =
      lines.filterMap fun line => Statement.ofLine? line.chars := by
  induction lines generalizing address with
  | nil => rfl
  | cons line rest ih =>
    unfold layout
    rw [List.filterMap_cons]
    cases Statement.ofLine? line.chars with
    | none => exact ih address
    | some statement => exact congrArg (statement :: ·) (ih _)

/-- **Statements stand between line feeds.** -/
theorem statements_eq_filterMap (source : String) :
    statements source = (source.toList.splitOn '\n').filterMap Statement.ofLine? := by
  rw [statements, entries, statements_layout_eq, sourceLines, filterMap_numberLines]

/-! ## 2. Labels and their addresses -/

/-- A label that is to be defined, and the address it is to have. -/
structure PlacedLabel where
  name : Fragment
  address : Nat
  deriving DecidableEq, Repr

namespace PlacedLabel

/-- What the label adds to a symbol table. -/
def symbol (l : PlacedLabel) : String × Nat := (Text.upper l.name.text, l.address)

/-- Whether a label **can be defined**, if no other has its name. -/
structure Definable (l : PlacedLabel) : Prop where
  inMemory : l.address < memorySize
  identifier : isIdentifier l.name.chars = true
  free : isReserved l.name.text = false

/-- The label with an address further on. -/
def shift (offset : Nat) (l : PlacedLabel) : PlacedLabel := { l with address := l.address + offset }

end PlacedLabel

/-- The label of a statement with its address, if it has one. -/
def Entry.label? (e : Entry) : Option PlacedLabel :=
  e.statement.label?.map fun name => ⟨name, e.address⟩

/-- The labels of statements, where the first instruction has the address `address`. -/
def labelsFrom (address : Nat) : List Statement → List PlacedLabel
  | [] => []
  | statement :: rest =>
    (statement.label?.map fun name => ⟨name, address⟩).toList ++
      labelsFrom (address + statement.size) rest

theorem labels_layout (address : Nat) (lines : List SourceLine) :
    (layout address lines).filterMap Entry.label? =
      labelsFrom address ((layout address lines).map Entry.statement) := by
  induction lines generalizing address with
  | nil => rfl
  | cons line rest ih =>
    unfold layout
    cases Statement.ofLine? line.chars with
    | none => exact ih address
    | some statement =>
      rw [List.filterMap_cons, List.map_cons, labelsFrom, ← ih, Entry.label?]
      cases statement.label? <;> rfl

/-- The labels of a source with their addresses. -/
theorem labels_entries (source : String) :
    (entries source).filterMap Entry.label? = labelsFrom 0 (statements source) :=
  labels_layout 0 (sourceLines source)

/-- Labels further down have their addresses counted on. -/
theorem labelsFrom_append (address : Nat) (front back : List Statement) :
    labelsFrom address (front ++ back) =
      labelsFrom address front ++
        labelsFrom (address + (front.filter Statement.isInstruction).length) back := by
  induction front generalizing address with
  | nil => rfl
  | cons statement rest ih =>
    rw [List.cons_append, labelsFrom, labelsFrom, ih, List.append_assoc, Statement.size]
    cases hinstruction : statement.isInstruction with
    | true =>
      rw [List.filter_cons_of_pos hinstruction, List.length_cons, if_pos rfl, Nat.add_assoc,
        Nat.add_comm 1]
    | false =>
      rw [List.filter_cons_of_neg (by rw [hinstruction]; decide)]
      rfl

/-- Statements without labels define none. -/
theorem labelsFrom_of_unlabelled (address : Nat) {ss : List Statement}
    (h : ∀ s ∈ ss, s.label? = none) : labelsFrom address ss = [] := by
  induction ss generalizing address with
  | nil => rfl
  | cons s rest ih =>
    rw [List.forall_mem_cons] at h
    rw [labelsFrom, h.1, ih _ h.2]
    rfl

/-- Counting from further down moves every label as far. -/
theorem labelsFrom_add (address offset : Nat) (ss : List Statement) :
    labelsFrom (address + offset) ss = (labelsFrom address ss).map (PlacedLabel.shift offset) := by
  induction ss generalizing address with
  | nil => rfl
  | cons statement rest ih =>
    rw [labelsFrom, labelsFrom, List.map_append, ← ih, Nat.add_right_comm]
    cases statement.label? <;> rfl

/-! ## 3. Defining labels -/

namespace SymbolTable

/-- The names of a symbol table. -/
def names (table : SymbolTable) : List String := table.entries.map Prod.fst

/-- A symbol table with one behind it. -/
def append (front back : SymbolTable) : SymbolTable := ⟨front.entries ++ back.entries⟩

theorem names_append (front back : SymbolTable) :
    (front.append back).names = front.names ++ back.names := List.map_append

theorem get?_append (front back : SymbolTable) (name : String) :
    (front.append back).get? name = (front.get? name).or (back.get? name) :=
  List.lookup_append

theorem append_assoc (front middle back : SymbolTable) :
    (front.append middle).append back = front.append (middle.append back) :=
  congrArg mk (List.append_assoc ..)

theorem append_empty (table : SymbolTable) : table.append empty = table :=
  congrArg mk (List.append_nil _)

theorem get?_eq_none_iff {table : SymbolTable} {name : String} :
    table.get? name = none ↔ Text.upper name ∉ table.names := by
  rw [get?, List.lookup_eq_none_iff, names]
  simp only [bne_iff_ne, List.mem_map, not_exists, not_and]
  exact forall₂_congr fun _ _ => ne_comm

end SymbolTable

/-- The symbol table of labels. -/
def tableOf (labels : List PlacedLabel) : SymbolTable := ⟨labels.map PlacedLabel.symbol⟩

theorem nodup_names_append_label {table : SymbolTable} {l : PlacedLabel} :
    (table.append (tableOf [l])).names.Nodup ↔
      table.names.Nodup ∧ l.symbol.1 ∉ table.names := by
  rw [SymbolTable.names_append, List.nodup_append]
  constructor
  · rintro ⟨hnodup, -, hne⟩
    exact ⟨hnodup, fun hmem => hne _ hmem _ List.mem_cons_self rfl⟩
  · rintro ⟨hnodup, hnew⟩
    refine ⟨hnodup, List.nodup_cons.mpr ⟨List.not_mem_nil, List.nodup_nil⟩, ?_⟩
    rintro name hmem _ hlabel rfl
    exact hnew (List.mem_singleton.mp hlabel ▸ hmem)

/-- **Defining a label** succeeds if the label is definable and its name is new. -/
theorem defineLabel_eq_ok_iff {table table' : SymbolTable} {l : PlacedLabel} :
    defineLabel table l.name l.address = .ok table' ↔
      l.Definable ∧ l.symbol.1 ∉ table.names ∧ table' = table.append (tableOf [l]) := by
  unfold defineLabel
  constructor
  · intro h
    split at h
    · cases h
    · split at h
      · cases h
      · split at h
        · cases h
        · rename_i hmemory hidentifier hreserved
          split at h
          · rename_i hinsert
            cases h
            have hdefinable : l.Definable :=
              ⟨Nat.lt_of_not_le hmemory, by simpa using hidentifier, by simpa using hreserved⟩
            have hnew : table.get? l.name.text = none := by
              unfold SymbolTable.insert at hinsert
              split at hinsert
              · cases hinsert
              · assumption
            exact ⟨hdefinable, SymbolTable.get?_eq_none_iff.mp hnew,
              congrArg SymbolTable.mk (SymbolTable.entries_of_insert hinsert)⟩
          · cases h
  · rintro ⟨⟨hmemory, hidentifier, hfree⟩, hnew, rfl⟩
    have hinsert : table.insert l.name.text l.address = .ok (table.append (tableOf [l])) := by
      rw [SymbolTable.insert, SymbolTable.get?_eq_none_iff.mpr hnew]
      rfl
    rw [if_neg (Nat.not_le.mpr hmemory), hidentifier, hfree, hinsert]
    rfl

namespace Entry

theorem defineLabel_of_label {e : Entry} {l : PlacedLabel} (h : e.label? = some l)
    (table : SymbolTable) :
    e.defineLabel table = PredicatedCpu.defineLabel table l.name l.address := by
  obtain ⟨name, hname, rfl⟩ := Option.map_eq_some_iff.mp h
  rw [defineLabel, hname]

theorem defineLabel_of_unlabelled {e : Entry} (h : e.label? = none) (table : SymbolTable) :
    e.defineLabel table = .ok table := by
  rw [defineLabel, Option.map_eq_none_iff.mp h]

/-- Nothing is wrong with the label of a statement if it can be defined. -/
theorem labelFindings_eq_nil_iff {e : Entry} {table : SymbolTable} :
    e.labelFindings table = [] ↔ ∃ table', e.defineLabel table = .ok table' := by
  unfold labelFindings
  cases e.defineLabel table <;> simp [complaints]

end Entry

theorem append_tableOf_cons (before : SymbolTable) (l : PlacedLabel) (labels : List PlacedLabel) :
    before.append (tableOf (l :: labels)) =
      (before.append (tableOf [l])).append (tableOf labels) :=
  (before.append_assoc (tableOf [l]) (tableOf labels)).symm

/-- **Labels can be defined one after the other** exactly if each of them can be defined at all
and no two have one name. -/
theorem labelsDefine_iff {before : SymbolTable} {es : List Entry} (h : before.names.Nodup) :
    LabelsDefine before es ↔
      (∀ l ∈ es.filterMap Entry.label?, l.Definable) ∧
        (before.append (tableOf (es.filterMap Entry.label?))).names.Nodup := by
  -- The table grows with each label, and what is left to define has to be apart from all of it.
  induction es generalizing before with
  | nil =>
    have hnames : (before.append (tableOf [])).names.Nodup := before.append_empty.symm ▸ h
    simpa [LabelsDefine] using hnames
  | cons e rest ih =>
    rw [LabelsDefine, Entry.labelFindings_eq_nil_iff, Entry.extend]
    cases hlabel : e.label? with
    | none =>
      rw [Entry.defineLabel_of_unlabelled hlabel, List.filterMap_cons_none hlabel, ih h]
      simp
    | some l =>
      rw [Entry.defineLabel_of_label hlabel, List.filterMap_cons_some hlabel,
        append_tableOf_cons, List.forall_mem_cons]
      constructor
      · rintro ⟨⟨table, htable⟩, hrest⟩
        obtain ⟨hdefinable, hnew, rfl⟩ := defineLabel_eq_ok_iff.mp htable
        rw [htable] at hrest
        obtain ⟨hall, hnames⟩ := (ih (nodup_names_append_label.mpr ⟨h, hnew⟩)).mp hrest
        exact ⟨⟨hdefinable, hall⟩, hnames⟩
      · rintro ⟨⟨hdefinable, hall⟩, hnames⟩
        have hnodup : (before.append (tableOf [l])).names.Nodup := by
          rw [SymbolTable.names_append] at hnames
          exact (List.nodup_append.mp hnames).1
        have hnew : l.symbol.1 ∉ before.names := (nodup_names_append_label.mp hnodup).2
        rw [defineLabel_eq_ok_iff.mpr ⟨hdefinable, hnew, rfl⟩]
        exact ⟨⟨_, rfl⟩, (ih hnodup).mpr ⟨hall, hnames⟩⟩

/-- The symbol table then has the labels in their order. -/
theorem foldl_extend_of_labelsDefine {before : SymbolTable} {es : List Entry}
    (h : LabelsDefine before es) :
    es.foldl Entry.extend before = before.append (tableOf (es.filterMap Entry.label?)) := by
  induction es generalizing before with
  | nil => exact before.append_empty.symm
  | cons e rest ih =>
    obtain ⟨hfindings, hrest⟩ := h
    obtain ⟨table, htable⟩ := Entry.labelFindings_eq_nil_iff.mp hfindings
    have hextend : e.extend before = table := by rw [Entry.extend, htable]
    rw [List.foldl_cons, ih hrest, hextend]
    cases hlabel : e.label? with
    | none =>
      rw [Entry.defineLabel_of_unlabelled hlabel] at htable
      cases htable
      rw [List.filterMap_cons_none hlabel]
    | some l =>
      rw [Entry.defineLabel_of_label hlabel] at htable
      obtain ⟨-, -, rfl⟩ := defineLabel_eq_ok_iff.mp htable
      rw [List.filterMap_cons_some hlabel]
      exact (append_tableOf_cons before l _).symm

/-- Labels that can stand in one source: each of them can be defined, and no two have one
name. -/
structure Compatible (labels : List PlacedLabel) : Prop where
  definable : ∀ l ∈ labels, l.Definable
  distinct : (tableOf labels).names.Nodup

/-! ## 4. Programs -/

/-- The labels of a source. -/
def labelsOf (source : String) : List PlacedLabel := labelsFrom 0 (statements source)

/-- The statements of a source that have an instruction. -/
def instructionStatements (source : String) : List Statement :=
  (statements source).filter Statement.isInstruction

/-- The instruction of a statement, with the symbols it may refer to. -/
def Statement.instruction (symbols : SymbolTable) (s : Statement) : Except Finding Instruction :=
  readInstruction symbols s.body

/-- The labels of a source can be defined one after the other. -/
theorem labelsDefine_entries_iff (source : String) :
    LabelsDefine .empty (entries source) ↔ Compatible (labelsOf source) := by
  have hnil : SymbolTable.empty.names.Nodup := List.nodup_nil
  rw [labelsDefine_iff hnil, labels_entries]
  exact ⟨fun ⟨hdefinable, hdistinct⟩ => ⟨hdefinable, hdistinct⟩,
    fun ⟨hdefinable, hdistinct⟩ => ⟨hdefinable, hdistinct⟩⟩

/-- The symbols of a source are then its labels. -/
theorem symbolsOf_entries {source : String} (h : LabelsDefine .empty (entries source)) :
    symbolsOf (entries source) = tableOf (labelsOf source) := by
  rw [symbolsOf, foldl_extend_of_labelsDefine h, labels_entries]
  rfl

theorem instructionStatements_eq_map (source : String) :
    instructionStatements source = (instructionEntries source).map Entry.statement := by
  rw [instructionStatements, statements, List.filter_map]
  rfl

/-- **What a source is assembled to hangs on its statements**: on their labels, on the number of
their instructions, and on what these read with the labels for symbols. -/
theorem assemble_iff_statements {source : String} {p : Program} :
    assemble source = .ok p ↔
      Compatible (labelsOf source) ∧ (instructionStatements source).length ≤ memorySize ∧
        ∃ is : List Instruction,
          (instructionStatements source).map (Statement.instruction (tableOf (labelsOf source))) =
              is.map .ok ∧
            p = ⟨is.map Slot.ofInstruction, tableOf (labelsOf source)⟩ := by
  have hinstructions : ∀ symbols,
      (instructionStatements source).map (Statement.instruction symbols) =
        (instructionEntries source).map (Entry.instruction symbols) := by
    intro symbols
    rw [instructionStatements_eq_map, List.map_map]
    rfl
  have hlength : (instructionStatements source).length = (instructionEntries source).length := by
    rw [instructionStatements_eq_map, List.length_map]
  rw [assemble_eq_ok_iff, hlength, hinstructions, ← labelsDefine_entries_iff]
  refine and_congr_right fun h => ?_
  rw [symbolsOf_entries h]

end PredicatedCpu

/-
# What is said about a source that is not assembled

A source that is not assembled is answered with everything that is wrong with it.  The answer is
for a reader who goes through the source from top to bottom, and for an editor that marks what is
meant, so it has to be in the order of the lines, to say nothing twice, and to name places that can
be cut out of the source.

None of the passes sees to the order.  The first one finds all that is wrong with labels and, at its
end, that there are too many instructions; the second one finds all that is wrong with instructions.
Each of them goes down the lines and finds at most one thing on each, and the sort that follows
keeps together what it finds on one line, the first pass before the second.

* `pieceOf_sourceLines`, `sourceLines_apart`: the lines of a source lie one behind the other in it;
* `FoundBy`: what one pass finds, each on a line of its own, and about one and the same thing;
* `foundBy_labelDiagnostics`, `foundBy_sizeDiagnostics`, `foundBy_instructionDiagnostics`: the
  passes;
* `map_line_sizeDiagnostics`: the size of the program is complained of on the first line that has no
  address;
* `Reported`: all that is said of the answer together, and `reported_of_assemble`.
-/
import PredicatedCpu.Proofs.Assembly.Findings
import PredicatedCpu.Proofs.Assembly.Lines
import PredicatedCpu.Proofs.Assembly.Order

namespace PredicatedCpu

/-! ## 1. Lines in their places -/

/-- A line as a fragment of its source. -/
def SourceLine.fragment (line : SourceLine) : Fragment := ⟨line.start, line.chars⟩

/-- A whole source as a fragment. -/
def wholeSource (source : String) : Fragment := ⟨0, source.toList⟩

/-- A piece that another one follows is a line with a line ending. -/
theorem numberLines_cons_cons (number start : Nat) (piece next : List Char)
    (rest : List (List Char)) :
    numberLines number start (piece :: next :: rest) =
      ⟨number, start, dropReturn piece⟩ ::
        numberLines (number + 1) (start + Text.byteWidth piece + 1) (next :: rest) := rfl

theorem pieceOf_dropReturn (start : Nat) (cs : List Char) :
    (⟨start, dropReturn cs⟩ : Fragment).PieceOf ⟨start, cs⟩ := by
  unfold dropReturn
  split
  · rename_i hlast
    obtain ⟨front, rfl⟩ := List.getLast?_eq_some_iff.mp hlast
    rw [List.dropLast_concat]
    exact Fragment.pieceOf_front start front ['\r']
  · exact .refl _

theorem pieceOf_numberLines {number start : Nat} {pieces : List (List Char)} {line : SourceLine}
    (h : line ∈ numberLines number start pieces) :
    line.fragment.PieceOf ⟨start, ['\n'].intercalate pieces⟩ := by
  induction pieces generalizing number start with
  | nil => cases h
  | cons piece rest ih =>
    cases rest with
    | nil =>
      unfold numberLines at h
      split at h
      · cases h
      · rw [List.mem_singleton.mp h, List.intercalate_singleton]
        exact .refl _
    | cons next rest =>
      rw [numberLines_cons_cons, List.mem_cons] at h
      rw [List.intercalate_cons_cons]
      rcases h with rfl | h
      · rw [List.append_assoc]
        exact (pieceOf_dropReturn start piece).trans (Fragment.pieceOf_front start piece _)
      · have hwidth : start + Text.byteWidth piece + 1 =
            start + Text.byteWidth (piece ++ ['\n']) := by
          rw [Text.byteWidth_append, Nat.add_assoc]
          rfl
        have hrest := ih h
        rw [hwidth] at hrest
        exact hrest.trans (Fragment.pieceOf_back start (piece ++ ['\n']) _)

/-- **The lines of a source** are pieces of it. -/
theorem pieceOf_sourceLines {source : String} {line : SourceLine} (h : line ∈ sourceLines source) :
    line.fragment.PieceOf (wholeSource source) := by
  have hpiece := pieceOf_numberLines h
  rwa [List.intercalate_splitOn] at hpiece

/-- Every line ends before the next one begins. -/
theorem numberLines_apart (number start : Nat) (pieces : List (List Char)) :
    (numberLines number start pieces).Pairwise fun line line' =>
      line.fragment.stop < line'.fragment.start := by
  induction pieces generalizing number start with
  | nil => exact .nil
  | cons piece rest ih =>
    cases rest with
    | nil =>
      unfold numberLines
      split
      · exact .nil
      · exact List.pairwise_singleton _ _
    | cons next rest =>
      rw [numberLines_cons_cons]
      refine List.pairwise_cons.mpr ⟨?_, ih _ _⟩
      intro line hline
      have hstart := (pieceOf_numberLines hline).bounds.1
      have hstop := (pieceOf_dropReturn start piece).bounds.2
      simp only [SourceLine.fragment, Fragment.stop] at hstart hstop ⊢
      omega

theorem sourceLines_apart (source : String) :
    (sourceLines source).Pairwise fun line line' => line.fragment.stop < line'.fragment.start :=
  numberLines_apart 1 0 _

/-- Lines are numbered consecutively. -/
theorem map_number_numberLines (number start : Nat) (pieces : List (List Char)) :
    (numberLines number start pieces).map SourceLine.number =
      List.range' number (numberLines number start pieces).length := by
  induction pieces generalizing number start with
  | nil => rfl
  | cons piece rest ih =>
    cases rest with
    | nil =>
      unfold numberLines
      split <;> rfl
    | cons next rest =>
      rw [numberLines_cons_cons, List.map_cons, ih, List.length_cons, List.range'_succ]

/-- The lines of a source are numbered from one on. -/
theorem map_number_sourceLines (source : String) :
    (sourceLines source).map SourceLine.number = List.range' 1 (sourceLines source).length :=
  map_number_numberLines 1 0 _

theorem getElem?_of_mem_sourceLines {source : String} {line : SourceLine}
    (h : line ∈ sourceLines source) :
    1 ≤ line.number ∧ (sourceLines source)[line.number - 1]? = some line := by
  obtain ⟨i, hi⟩ := List.mem_iff_getElem?.mp h
  have hnumber := congrArg (·[i]?) (map_number_sourceLines source)
  simp only [List.getElem?_map, hi, Option.map_some] at hnumber
  obtain ⟨hlt, hvalue⟩ := List.getElem?_eq_some_iff.mp hnumber.symm
  rw [List.getElem_range'] at hvalue
  have hline : line.number = i + 1 := by omega
  rw [hline, Nat.add_sub_cancel]
  exact ⟨Nat.le_add_left 1 i, hi⟩

/-! ## 2. What is wrong with one statement -/

/-- A statement is read from a line, and stands where the line does. -/
theorem exists_line_of_mem_layout {address : Nat} {lines : List SourceLine} {e : Entry}
    (h : e ∈ layout address lines) :
    ∃ line ∈ lines, Statement.ofLine? line.chars = some e.statement ∧ e.line = line.number ∧
      e.start = line.start := by
  induction lines generalizing address with
  | nil => cases h
  | cons line rest ih =>
    unfold layout at h
    split at h
    · obtain ⟨line', hmem, hline⟩ := ih h
      exact ⟨line', List.mem_cons_of_mem _ hmem, hline⟩
    · rename_i statement hstatement
      rcases List.mem_cons.mp h with rfl | h
      · exact ⟨line, List.mem_cons_self, hstatement, rfl, rfl⟩
      · obtain ⟨line', hmem, hline⟩ := ih h
        exact ⟨line', List.mem_cons_of_mem _ hmem, hline⟩

/-- The lines of the statements are among the lines, in their order. -/
theorem sublist_layout (address : Nat) (lines : List SourceLine) :
    ((layout address lines).map Entry.line).Sublist (lines.map SourceLine.number) := by
  induction lines generalizing address with
  | nil => exact .slnil
  | cons line rest ih =>
    unfold layout
    split
    · exact (ih _).cons _
    · exact (ih _).cons_cons _

/-- **Statements stand in the order of their lines**, and no line has two. -/
theorem entries_ascend (source : String) :
    (entries source).Pairwise fun e e' => e.line < e'.line := by
  have hlines : ((entries source).map Entry.line).Pairwise (· < ·) := by
    refine List.Pairwise.sublist (sublist_layout 0 (sourceLines source)) ?_
    rw [map_number_sourceLines]
    exact List.pairwise_lt_range'
  exact List.pairwise_map.mp hlines

theorem blames_of_mem_complaints {α : Type} {result : Except Finding α} {concern : Concern}
    {f : Fragment} (h : ∀ finding, result = .error finding → finding.Blames concern f) :
    ∀ finding ∈ complaints result, finding.Blames concern f := by
  intro finding hmem
  cases result with
  | ok a => cases hmem
  | error finding' =>
    obtain rfl := List.mem_singleton.mp hmem
    exact h _ rfl

theorem length_complaints_le {α : Type} (result : Except Finding α) :
    (complaints result).length ≤ 1 := by
  cases result <;> simp [complaints]

namespace Entry

variable {e : Entry} {line : List Char}

/-- What is wrong with a label is in the line. -/
theorem labelFindings_blame (before : SymbolTable)
    (h : Statement.ofLine? line = some e.statement) :
    ∀ finding ∈ e.labelFindings before, finding.Blames .label ⟨0, line⟩ := by
  refine blames_of_mem_complaints fun finding hfinding => ?_
  unfold Entry.defineLabel at hfinding
  split at hfinding
  · cases hfinding
  · rename_i name hname
    exact (blames_of_defineLabel hfinding).mono ((Statement.ofLine?_pieces h).1 name hname)

/-- So is what is wrong with an instruction. -/
theorem instructionFindings_blame (symbols : SymbolTable)
    (h : Statement.ofLine? line = some e.statement) :
    ∀ finding ∈ e.instructionFindings symbols, finding.Blames .instruction ⟨0, line⟩ :=
  blames_of_mem_complaints fun _ hfinding =>
    (blames_of_readInstruction hfinding).mono (Statement.ofLine?_pieces h).2

/-- Whether a diagnostic **blames** a statement for something: it is a finding about a piece of the
line from which the statement was read. -/
def Blamed (e : Entry) (concern : Concern) (d : Diagnostic) : Prop :=
  ∃ finding, d = e.diagnostic finding ∧
    ∀ line, Statement.ofLine? line = some e.statement → finding.Blames concern ⟨0, line⟩

end Entry

/-! ## 3. One pass -/

/-- What **one pass** over some statements finds: every diagnostic blames one of the statements, all
for the same thing, and no two are on one line. -/
structure FoundBy (concern : Concern) (es : List Entry) (ds : List Diagnostic) : Prop where
  blamed : ∀ d ∈ ds, ∃ e ∈ es, e.Blamed concern d
  ascend : ds.Pairwise fun d d' => d.line < d'.line

namespace FoundBy

variable {concern : Concern} {e : Entry} {es : List Entry} {ds : List Diagnostic}

theorem nil (concern : Concern) : FoundBy concern [] [] := ⟨nofun, .nil⟩

/-- A pass goes on with the next statement, of which it finds one thing at most. -/
theorem cons {findings : List Finding} (hfirst : ∀ e' ∈ es, e.line < e'.line)
    (hlength : findings.length ≤ 1)
    (hblame : ∀ finding ∈ findings, e.Blamed concern (e.diagnostic finding))
    (h : FoundBy concern es ds) : FoundBy concern (e :: es) (findings.map e.diagnostic ++ ds) where
  blamed d hd := by
    rcases List.mem_append.mp hd with hd | hd
    · obtain ⟨finding, hfinding, rfl⟩ := List.mem_map.mp hd
      exact ⟨e, List.mem_cons_self, hblame finding hfinding⟩
    · obtain ⟨e', he', hblamed⟩ := h.blamed d hd
      exact ⟨e', List.mem_cons_of_mem _ he', hblamed⟩
  ascend := by
    rw [List.pairwise_append]
    refine ⟨?_, h.ascend, ?_⟩
    · rcases findings with _ | ⟨finding, _ | ⟨next, rest⟩⟩
      · exact .nil
      · exact List.pairwise_singleton _ _
      · simp at hlength
    · intro d hd d' hd'
      obtain ⟨finding, -, rfl⟩ := List.mem_map.mp hd
      obtain ⟨e', he', finding', rfl, -⟩ := h.blamed d' hd'
      exact hfirst e' he'

/-- The thing is what the problems of a pass are about. -/
theorem concern_eq (h : FoundBy concern es ds)
    (hreadable : ∀ e ∈ es, ∃ line, Statement.ofLine? line = some e.statement) :
    ∀ d ∈ ds, d.problem.concern = concern := by
  intro d hd
  obtain ⟨e, he, finding, rfl, hblames⟩ := h.blamed d hd
  obtain ⟨line, hline⟩ := hreadable e he
  exact (hblames line hline).concern

/-- **A line is complained of at most once** in one pass. -/
theorem concerns_of_line (h : FoundBy concern es ds)
    (hreadable : ∀ e ∈ es, ∃ line, Statement.ofLine? line = some e.statement) (number : Nat) :
    ((ds.filter fun d => d.line = number).map fun d => d.problem.concern).Sublist [concern] := by
  have hconcern := h.concern_eq hreadable
  have hascend := h.ascend.filter fun d => d.line = number
  have hmem : ∀ d ∈ ds.filter fun d => d.line = number,
      d.line = number ∧ d.problem.concern = concern := by
    intro d hd
    rw [List.mem_filter, decide_eq_true_eq] at hd
    exact ⟨hd.2, hconcern d hd.1⟩
  generalize (ds.filter fun d => d.line = number) = onLine at hascend hmem
  rcases onLine with _ | ⟨d, _ | ⟨d', rest⟩⟩
  · exact List.nil_sublist _
  · have hd := (hmem d List.mem_cons_self).2
    simp [hd]
  · have hlt := (List.pairwise_cons.mp hascend).1 d' List.mem_cons_self
    have hd := (hmem d List.mem_cons_self).1
    have hd' := (hmem d' (List.mem_cons_of_mem _ List.mem_cons_self)).1
    omega

end FoundBy

/-! ## 4. The passes -/

section Passes

variable {es : List Entry}

/-- The labels.  The induction is on the statements, with the table that they leave. -/
theorem foundBy_labelDiagnostics (h : es.Pairwise fun e e' => e.line < e'.line)
    (before : SymbolTable) : FoundBy .label es (labelDiagnostics before es) := by
  induction es generalizing before with
  | nil => exact .nil _
  | cons e rest ih =>
    obtain ⟨hfirst, hrest⟩ := List.pairwise_cons.mp h
    refine .cons hfirst (length_complaints_le _) (fun finding hfinding => ?_) (ih hrest _)
    exact ⟨finding, rfl, fun _ hline => Entry.labelFindings_blame before hline finding hfinding⟩

/-- The instructions. -/
theorem foundBy_instructionDiagnostics (h : es.Pairwise fun e e' => e.line < e'.line)
    (symbols : SymbolTable) : FoundBy .instruction es (instructionDiagnostics symbols es) := by
  induction es with
  | nil => exact .nil _
  | cons e rest ih =>
    obtain ⟨hfirst, hrest⟩ := List.pairwise_cons.mp h
    refine .cons hfirst (length_complaints_le _) (fun finding hfinding => ?_) (ih hrest)
    exact ⟨finding, rfl,
      fun _ hline => Entry.instructionFindings_blame symbols hline finding hfinding⟩

/-- The size of the program: one statement is blamed for it at most. -/
theorem foundBy_sizeDiagnostics (es : List Entry) : FoundBy .size es (sizeDiagnostics es) := by
  unfold sizeDiagnostics
  cases he : es[memorySize]? with
  | none => exact ⟨nofun, .nil⟩
  | some e =>
    refine ⟨fun d hd => ?_, List.pairwise_singleton _ _⟩
    obtain rfl := List.mem_singleton.mp hd
    exact ⟨e, List.mem_of_getElem? he, _, rfl, fun line hline =>
      (e.statement.body.blames_finding _).mono (Statement.ofLine?_pieces hline).2⟩

/-- The line that is complained of for the size is that of the instruction for which memory has no
address first. -/
theorem map_line_sizeDiagnostics (es : List Entry) :
    (sizeDiagnostics es).map Diagnostic.line = ((es.map Entry.line)[memorySize]?).toList := by
  rw [sizeDiagnostics, List.getElem?_map]
  cases es[memorySize]? <;> rfl

end Passes

/-- **The instructions of a source stand on its instruction lines**, in their order. -/
theorem map_line_filter_layout (address : Nat) (lines : List SourceLine) :
    ((layout address lines).filter Entry.isInstruction).map Entry.line =
      (lines.filter SourceLine.hasInstruction).map SourceLine.number := by
  induction lines generalizing address with
  | nil => rfl
  | cons line rest ih =>
    have hsays := line.says_ofLine?.isInstruction
    unfold layout
    cases hline : Statement.ofLine? line.chars with
    | none =>
      rw [hline] at hsays
      rw [List.filter_cons_of_neg (by rw [← hsays]; exact Bool.false_ne_true)]
      exact ih address
    | some s =>
      rw [hline, Option.any_some] at hsays
      dsimp only
      rw [List.filter_cons, List.filter_cons, ← hsays, Entry.isInstruction]
      split
      · rw [List.map_cons, List.map_cons, ih]
      · exact ih _

section Source

variable (source : String)

theorem readable_entries :
    ∀ e ∈ entries source, ∃ line, Statement.ofLine? line = some e.statement := by
  intro e he
  obtain ⟨line, -, hline, -, -⟩ := exists_line_of_mem_layout he
  exact ⟨line.chars, hline⟩

theorem readable_instructionEntries :
    ∀ e ∈ instructionEntries source, ∃ line, Statement.ofLine? line = some e.statement :=
  fun e he => readable_entries source e (List.mem_filter.mp he).1

/-- **What the passes find** in a source, each for itself. -/
theorem foundBy_passes :
    FoundBy .label (entries source) (labelDiagnostics .empty (entries source)) ∧
      FoundBy .size (instructionEntries source) (sizeDiagnostics (instructionEntries source)) ∧
      FoundBy .instruction (instructionEntries source)
        (instructionDiagnostics (symbolsOf (entries source)) (instructionEntries source)) :=
  ⟨foundBy_labelDiagnostics (entries_ascend source) _, foundBy_sizeDiagnostics _,
    foundBy_instructionDiagnostics ((entries_ascend source).filter _) _⟩

/-- Whatever is found blames a statement of the source. -/
theorem exists_blamed_of_mem_found {source : String} {d : Diagnostic} (h : d ∈ found source) :
    ∃ e ∈ entries source, ∃ concern, e.Blamed concern d := by
  obtain ⟨hlabel, hsize, hinstruction⟩ := foundBy_passes source
  rw [found, List.mem_append, List.mem_append] at h
  rcases h with (h | h) | h
  · obtain ⟨e, he, hblamed⟩ := hlabel.blamed d h
    exact ⟨e, he, _, hblamed⟩
  · obtain ⟨e, he, hblamed⟩ := hsize.blamed d h
    exact ⟨e, (List.mem_filter.mp he).1, _, hblamed⟩
  · obtain ⟨e, he, hblamed⟩ := hinstruction.blamed d h
    exact ⟨e, (List.mem_filter.mp he).1, _, hblamed⟩

/-- **A line is found wrong in order**: at most once for its label, then for the size of the
program, then for its instruction. -/
theorem concerns_found (number : Nat) :
    (((found source).filter fun d => d.line = number).map fun d => d.problem.concern).Sublist
      Concern.all := by
  obtain ⟨hlabel, hsize, hinstruction⟩ := foundBy_passes source
  have hreadable := readable_instructionEntries source
  rw [found, List.filter_append, List.filter_append, List.map_append, List.map_append]
  exact ((hlabel.concerns_of_line (readable_entries source) number).append
    (hsize.concerns_of_line hreadable number)).append
      (hinstruction.concerns_of_line hreadable number)

/-- Only the end of the first pass complains of the size. -/
theorem filter_size_found :
    (found source).filter (fun d => d.problem.concern = .size) =
      sizeDiagnostics (instructionEntries source) := by
  obtain ⟨hlabel, hsize, hinstruction⟩ := foundBy_passes source
  have hreadable := readable_instructionEntries source
  have hlabels : (labelDiagnostics .empty (entries source)).filter
      (fun d => d.problem.concern = .size) = [] := by
    rw [List.filter_eq_nil_iff]
    intro d hd
    simp [hlabel.concern_eq (readable_entries source) d hd]
  have hinstructions : (instructionDiagnostics (symbolsOf (entries source))
      (instructionEntries source)).filter (fun d => d.problem.concern = .size) = [] := by
    rw [List.filter_eq_nil_iff]
    intro d hd
    simp [hinstruction.concern_eq hreadable d hd]
  have hsizes : (sizeDiagnostics (instructionEntries source)).filter
      (fun d => d.problem.concern = .size) = sizeDiagnostics (instructionEntries source) := by
    rw [List.filter_eq_self]
    intro d hd
    exact decide_eq_true (hsize.concern_eq hreadable d hd)
  rw [found, List.filter_append, List.filter_append, hlabels, hsizes, hinstructions,
    List.nil_append, List.append_nil]

end Source

/-! ## 5. The diagnostics of a source -/

/-- Whether a range of bytes lies in a line, without its line ending. -/
def SourceLine.Covers (line : SourceLine) (span : Span) : Prop :=
  line.start ≤ span.start ∧ span.start + span.length ≤ line.start + Text.byteWidth line.chars

/-- Whether a diagnostic is **placed on** a line of a source. -/
structure Diagnostic.PlacedOn (source : String) (line : SourceLine) (d : Diagnostic) : Prop where
  /-- The number is that of the line, and lines are counted from one on. -/
  number : 1 ≤ d.line ∧ (sourceLines source)[d.line - 1]? = some line
  /-- The line is a piece of the source. -/
  line_piece : line.fragment.PieceOf (wholeSource source)
  /-- The place is that of a piece of the line. -/
  marks : d.span.Marks line.fragment
  /-- It begins and ends between characters of the source. -/
  valid : String.Pos.Raw.IsValid source ⟨d.span.start⟩ ∧
    String.Pos.Raw.IsValid source ⟨d.span.start + d.span.length⟩
  /-- It is in this line, and in no other. -/
  covers_iff : ∀ line' ∈ sourceLines source, line'.Covers d.span ↔ line' = line

/-- Whether diagnostics say **in order** what is wrong with a source. -/
structure Reported (source : String) (ds : List Diagnostic) : Prop where
  nonempty : ds ≠ []
  /-- They are what the passes found, all of it and nothing else. -/
  perm : ds.Perm (found source)
  /-- They stand in the order of the lines. -/
  sorted : ds.Pairwise fun d d' => d.line ≤ d'.line
  /-- On each line they stand in the order in which they were found. -/
  stable : ∀ number, (ds.filter fun d => d.line = number) =
    (found source).filter fun d => d.line = number
  /-- Each of them points into its line. -/
  placed : ∀ d ∈ ds, ∃ line, d.PlacedOn source line
  /-- A line is complained of at most once for its label, then at most once for the size of the
  program, then at most once for its instruction. -/
  ofLine : ∀ number, ((ds.filter fun d => d.line = number).map fun d =>
    d.problem.concern).Sublist Concern.all
  /-- The size of the program is complained of once, on the first line with an instruction for which
  memory has no address, if there is one. -/
  size : (ds.filter fun d => d.problem.category = .programTooLarge).map Diagnostic.line =
    (((sourceLines source).filter SourceLine.hasInstruction)[memorySize]?.map
      SourceLine.number).toList

/-- Of two lines of a source, one lies behind the other or they are the same. -/
theorem eq_of_covers {source : String} {line line' : SourceLine} (h : line ∈ sourceLines source)
    (h' : line' ∈ sourceLines source) {span : Span} (hcovers : line.Covers span)
    (hcovers' : line'.Covers span) : line' = line := by
  by_contra hne
  -- Of two lines either may be the earlier one, so the order has to be forgotten first.
  have hapart : (sourceLines source).Pairwise fun l l' =>
      l.fragment.stop < l'.fragment.start ∨ l'.fragment.stop < l.fragment.start :=
    (sourceLines_apart source).imp Or.inl
  have hsymm : Std.Symm fun l l' : SourceLine =>
      l.fragment.stop < l'.fragment.start ∨ l'.fragment.stop < l.fragment.start :=
    ⟨fun _ _ => Or.symm⟩
  have hlines := hapart.forall h' h hne
  simp only [SourceLine.Covers, SourceLine.fragment, Fragment.stop] at hlines hcovers hcovers'
  omega

/-- The place of a diagnostic is that of a piece of its line. -/
theorem exists_line_of_mem_found {source : String} {d : Diagnostic} (h : d ∈ found source) :
    ∃ line ∈ sourceLines source, d.line = line.number ∧ d.span.Marks line.fragment := by
  obtain ⟨e, he, concern, finding, rfl, hblames⟩ := exists_blamed_of_mem_found h
  obtain ⟨line, hline, hread, hnumber, hstart⟩ := exists_line_of_mem_layout he
  have hplace := (hblames line.chars hread).place.shift e.start
  refine ⟨line, hline, hnumber, ?_⟩
  rw [hstart] at hplace
  rw [Entry.diagnostic, hstart]
  exact hplace

theorem placedOn_of_mem_found {source : String} {d : Diagnostic} (h : d ∈ found source) :
    ∃ line, d.PlacedOn source line := by
  obtain ⟨line, hline, hnumber, hmarks⟩ := exists_line_of_mem_found h
  have hpiece := pieceOf_sourceLines hline
  refine ⟨line, ?_, hpiece, hmarks, (hmarks.mono hpiece).isValid, ?_⟩
  · rw [hnumber]
    exact getElem?_of_mem_sourceLines hline
  · intro line' hline'
    constructor
    · exact eq_of_covers hline hline' hmarks.bounds
    · rintro rfl
      exact hmarks.bounds

/-- The size of the program is complained of on the first line that has no address, wherever that is
among what is found.  There is one complaint at most, so it stays one in the answer. -/
theorem map_line_filter_tooLarge (source : String) :
    ((inLineOrder (found source)).filter fun d => d.problem.category = .programTooLarge).map
        Diagnostic.line =
      (((sourceLines source).filter SourceLine.hasInstruction)[memorySize]?.map
        SourceLine.number).toList := by
  have hsorted := (foundBy_sizeDiagnostics (instructionEntries source)).ascend.imp Nat.le_of_lt
  have hlines : (instructionEntries source).map Entry.line =
      ((sourceLines source).filter SourceLine.hasInstruction).map SourceLine.number :=
    map_line_filter_layout 0 (sourceLines source)
  simp only [← Problem.concern_eq_size_iff]
  rw [inLineOrder_eq_sortBy, filter_sortBy, filter_size_found, sortBy_of_pairwise hsorted,
    map_line_sizeDiagnostics, hlines, List.getElem?_map]

/-- **A source that is not assembled is answered in order**: all that the two passes found is there,
line by line, and on each line in the order in which it was found; every diagnostic can be marked in
its line, a line is complained of for its label first and its instruction last, and the size of the
program is complained of where memory ends. -/
theorem reported_of_assemble {source : String} {ds : List Diagnostic}
    (h : assemble source = .error ds) : Reported source ds := by
  have hperm := perm_of_assemble h
  obtain ⟨rfl, hnonempty⟩ := assemble_eq_error_iff.mp h
  have hstable := filter_key_sortBy Diagnostic.line (found source)
  exact {
    nonempty := hnonempty
    perm := hperm
    sorted := pairwise_sortBy Diagnostic.line (found source)
    stable := hstable
    placed := fun _ hd => placedOn_of_mem_found (hperm.mem_iff.mp hd)
    ofLine := fun number => by
      rw [inLineOrder_eq_sortBy, hstable number]
      exact concerns_found source number
    size := map_line_filter_tooLarge source }

/-- Letters of two bytes, a line ending of two characters, and an operand too many in between. -/
def foreignSource : String := "é: hlt\r\nHLT R1 ; ok\n  r1 :  ldr ü"

/-- What is found wrong with it: two labels by the first pass, two instructions by the second. -/
def foreignFound : List Diagnostic :=
  [⟨.malformedLabel "é", 1, ⟨0, 2⟩⟩,
    ⟨.reservedLabel "r1", 3, ⟨23, 2⟩⟩,
    ⟨.operandCount .hlt 1, 2, ⟨13, 2⟩⟩,
    ⟨.malformedAddress "ü", 3, ⟨33, 2⟩⟩]

/-- A label and an operand that are no ASCII texts, and a line that is complained of twice, with the
line before it in between until all is sorted. -/
theorem reported_of_assemble_foreign :
    found foreignSource = foreignFound ∧
      ∃ ds, assemble foreignSource = .error ds ∧ Reported foreignSource ds ∧
        ds.map Diagnostic.line = [1, 2, 3, 3] := by
  have hfound : found foreignSource = foreignFound := by decide +kernel
  have hlines : (inLineOrder foreignFound).map Diagnostic.line = [1, 2, 3, 3] := by
    simp [inLineOrder, List.mergeSort, foreignFound]
  have h : assemble foreignSource = .error (inLineOrder foreignFound) := by
    rw [assemble_eq_error_iff, hfound]
    refine ⟨rfl, fun hnil => ?_⟩
    rw [hnil] at hlines
    cases hlines
  exact ⟨hfound, _, h, reported_of_assemble h, hlines⟩

end PredicatedCpu

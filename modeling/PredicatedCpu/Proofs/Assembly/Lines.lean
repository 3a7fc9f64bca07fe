/-
# What a line says

A line is read by trimming it, cutting it and trimming the parts, all of it with places.  What it
says can be told without any of that: a comment goes from the first semicolon to the end, a label
stands before the first colon of what is left, and the instruction is the rest, without the blanks
around it.

* `SourceLine.label?`, `SourceLine.instructionText`: the two things that a line can say;
* `SourceLine.says_ofLine?`: they are what is read from it;
* `names_labelsFrom`, `exists_label_of_line`: so the labels of a source are those of its lines,
  each for the number of instruction lines before it;
* `labelsFrom_ascend`: and their addresses ascend.
-/
import PredicatedCpu.Proofs.Assembly.Statements

namespace PredicatedCpu

/-! ## 1. Cutting at a character -/

namespace Text

theorem takeWhile_ne_append {c : Char} {before : List Char} (h : c ∉ before) (after : List Char) :
    (before ++ c :: after).takeWhile (· != c) = before := by
  have hne : ∀ d ∈ before, (d != c) = true := fun d hd => by
    simpa using ne_of_mem_of_not_mem hd h
  rw [List.takeWhile_append_of_pos hne, List.takeWhile_cons_of_neg (by simp), List.append_nil]

theorem dropWhile_ne_append {c : Char} {before : List Char} (h : c ∉ before) (after : List Char) :
    (before ++ c :: after).dropWhile (· != c) = c :: after := by
  have hne : ∀ d ∈ before, (d != c) = true := fun d hd => by
    simpa using ne_of_mem_of_not_mem hd h
  rw [List.dropWhile_append_of_pos hne, List.dropWhile_cons_of_neg (by simp)]

/-- What is no blank is not among blanks. -/
theorem not_mem_blanks {c : Char} (h : isBlank c = false) {cs : List Char}
    (hblanks : ∀ d ∈ cs, isBlank d = true) : c ∉ cs := by
  intro hmem
  have hblank := hblanks c hmem
  rw [h] at hblank
  cases hblank

end Text

/-! ## 2. Label and instruction -/

namespace SourceLine

/-- A line without its comment. -/
def code (line : SourceLine) : List Char := line.chars.takeWhile (· != ';')

/-- The **label** of a line: what stands before its first colon. -/
def label? (line : SourceLine) : Option (List Char) :=
  if ':' ∈ line.code then some (Text.trim (line.code.takeWhile (· != ':'))) else none

/-- The **instruction** of a line, as it is written: what is left without comment and label. -/
def instructionText (line : SourceLine) : List Char :=
  Text.trim (if ':' ∈ line.code then (line.code.dropWhile (· != ':')).tail else line.code)

/-- Whether a line has an instruction. -/
def hasInstruction (line : SourceLine) : Bool := !line.instructionText.isEmpty

/-- Whether a statement, or that there is none, is all that a line says. -/
structure Says (line : SourceLine) (statement? : Option Statement) : Prop where
  label : (statement?.bind Statement.label?).map Fragment.chars = line.label?
  body : (statement?.map fun s => s.body.chars).getD [] = line.instructionText

/-- A line without a colon. -/
theorem says_of_no_colon {line : SourceLine} (h : ':' ∉ line.code) {f : Fragment}
    (hf : f.chars = Text.trim line.code) : line.Says (some ⟨none, f⟩) := by
  constructor
  · rw [label?, if_neg h]
    rfl
  · rw [instructionText, if_neg h]
    exact hf

/-- A line with one: the parts are trimmed, so blanks at the ends of the line do not matter. -/
theorem says_of_colon {line : SourceLine} {front before after back : List Char}
    (hcode : line.code = front ++ (before ++ ':' :: after) ++ back)
    (hfront : ∀ c ∈ front, Text.isBlank c = true) (hback : ∀ c ∈ back, Text.isBlank c = true)
    (hbefore : ':' ∉ before) {name body : Fragment} (hname : name.chars = Text.trim before)
    (hbody : body.chars = Text.trim after) : line.Says (some ⟨some name, body⟩) := by
  have hfirst : ':' ∉ front ++ before := by
    rw [List.mem_append, not_or]
    exact ⟨Text.not_mem_blanks (by decide) hfront, hbefore⟩
  have hparts : line.code = (front ++ before) ++ ':' :: (after ++ back) := by
    rw [hcode]
    simp
  have hcolon : ':' ∈ line.code := by
    rw [hparts]
    exact List.mem_append_right _ List.mem_cons_self
  constructor
  · rw [label?, if_pos hcolon, hparts, Text.takeWhile_ne_append hfirst,
      Text.trim_append_left before hfront, ← hname]
    rfl
  · rw [instructionText, if_pos hcolon, hparts, Text.dropWhile_ne_append hfirst, List.tail_cons,
      Text.trim_append_right after hback, ← hbody]
    rfl

/-- **What is read from a line is what it says.** -/
theorem says_ofLine? (line : SourceLine) : line.Says (Statement.ofLine? line.chars) := by
  have hchars : ((Fragment.mk 0 line.chars).takeWhile (· != ';')).trim.chars =
      Text.trim line.code := rfl
  unfold Statement.ofLine?
  generalize ((Fragment.mk 0 line.chars).takeWhile (· != ';')).trim = f at hchars
  obtain ⟨front, back, hcode, hfront, hback⟩ := Text.exists_blanks_around_trim line.code
  have hcolon : ':' ∈ line.code ↔ ':' ∈ f.chars := by
    rw [hcode, hchars]
    simp [Text.not_mem_blanks (show Text.isBlank ':' = false by decide) hfront,
      Text.not_mem_blanks (show Text.isBlank ':' = false by decide) hback]
  by_cases hempty : f.isEmpty = true
  · have hnil : f.chars = [] := List.isEmpty_iff.mp hempty
    have hnone : ':' ∉ line.code := by rw [hcolon, hnil]; exact List.not_mem_nil
    rw [if_pos hempty]
    refine ⟨?_, ?_⟩
    · rw [label?, if_neg hnone]
      rfl
    · rw [instructionText, if_neg hnone, ← hchars, hnil]
      rfl
  · rw [if_neg hempty]
    by_cases hmem : ':' ∈ f.chars
    · obtain ⟨before, after, hparts, hbefore⟩ := List.eq_append_cons_of_mem hmem
      obtain ⟨start, chars⟩ := f
      obtain rfl : chars = before ++ ':' :: after := hparts
      rw [Fragment.splitFirst?_append (fun c hc => by simpa using ne_of_mem_of_not_mem hc hbefore)
        (by simp)]
      rw [← hchars] at hcode
      exact says_of_colon hcode hfront hback hbefore rfl rfl
    · rw [Fragment.splitFirst?_eq_none fun c hc => by simpa using ne_of_mem_of_not_mem hc hmem]
      exact says_of_no_colon (mt hcolon.mp hmem) hchars

theorem Says.isInstruction {line : SourceLine} {statement? : Option Statement}
    (h : line.Says statement?) : statement?.any Statement.isInstruction = line.hasInstruction := by
  rw [hasInstruction, ← h.body]
  cases statement? <;> rfl

end SourceLine

/-! ## 3. The lines of a source -/

/-- The statements of lines. -/
def statementsOf (lines : List SourceLine) : List Statement :=
  lines.filterMap fun line => Statement.ofLine? line.chars

theorem statements_eq_statementsOf (source : String) :
    statements source = statementsOf (sourceLines source) :=
  statements_layout_eq 0 (sourceLines source)

/-- **There are as many instructions as instruction lines.** -/
theorem length_instructions_statementsOf (lines : List SourceLine) :
    ((statementsOf lines).filter Statement.isInstruction).length =
      lines.countP SourceLine.hasInstruction := by
  induction lines with
  | nil => rfl
  | cons line rest ih =>
    have hsays := line.says_ofLine?.isInstruction
    rw [statementsOf, List.filterMap_cons, List.countP_cons, ← ih, ← hsays]
    cases Statement.ofLine? line.chars with
    | none => rfl
    | some s =>
      rw [List.filter_cons, Option.any_some, ← statementsOf]
      split <;> rfl

/-- The labels of statements are those of their lines. -/
theorem names_labelsFrom (address : Nat) (lines : List SourceLine) :
    (labelsFrom address (statementsOf lines)).map (fun l => l.name.chars) =
      lines.filterMap SourceLine.label? := by
  induction lines generalizing address with
  | nil => rfl
  | cons line rest ih =>
    have hlabel := line.says_ofLine?.label
    rw [statementsOf, List.filterMap_cons, List.filterMap_cons, ← hlabel]
    cases Statement.ofLine? line.chars with
    | none => exact ih address
    | some s =>
      rw [labelsFrom, List.map_append, ← statementsOf, ih]
      obtain ⟨name?, body⟩ := s
      cases name? <;> rfl

/-- **A label stands for the number of instruction lines before it.** -/
theorem exists_label_of_line {source : String} {before after : List SourceLine}
    {line : SourceLine} (h : sourceLines source = before ++ line :: after) {label : List Char}
    (hlabel : line.label? = some label) :
    ∃ l ∈ labelsOf source, l.name.chars = label ∧
      l.address = before.countP SourceLine.hasInstruction := by
  have hsays := line.says_ofLine?.label
  rw [hlabel] at hsays
  obtain ⟨name, hname, hchars⟩ := Option.map_eq_some_iff.mp hsays
  obtain ⟨s, hs, hsname⟩ := Option.bind_eq_some_iff.mp hname
  have hstatements : statements source = statementsOf before ++ s :: statementsOf after := by
    rw [statements_eq_statementsOf, h, statementsOf, List.filterMap_append, List.filterMap_cons, hs]
    rfl
  refine ⟨⟨name, before.countP SourceLine.hasInstruction⟩, ?_, hchars, rfl⟩
  rw [labelsOf, hstatements, labelsFrom_append, length_instructions_statementsOf, Nat.zero_add,
    labelsFrom, hsname]
  exact List.mem_append_right _ List.mem_cons_self

/-- Every label stands for an address from the first one on, and for at most the one behind the
last instruction. -/
theorem address_of_mem_labelsFrom {address : Nat} {ss : List Statement} {l : PlacedLabel}
    (h : l ∈ labelsFrom address ss) :
    address ≤ l.address ∧ l.address ≤ address + (ss.filter Statement.isInstruction).length := by
  induction ss generalizing address with
  | nil => cases h
  | cons s rest ih =>
    rw [labelsFrom, List.mem_append] at h
    rcases h with hfirst | hrest
    · rw [Option.mem_toList, Option.map_eq_some_iff] at hfirst
      obtain ⟨name, -, rfl⟩ := hfirst
      exact ⟨Nat.le_refl _, Nat.le_add_right _ _⟩
    · obtain ⟨hle, hle'⟩ := ih hrest
      have hsize : s.size + (rest.filter Statement.isInstruction).length =
          ((s :: rest).filter Statement.isInstruction).length := by
        rw [Statement.size, List.filter_cons]
        split
        · exact Nat.add_comm 1 _
        · exact Nat.zero_add _
      omega

/-- **Labels ascend**: a label further down stands for no smaller address. -/
theorem labelsFrom_ascend (address : Nat) (ss : List Statement) :
    (labelsFrom address ss).Pairwise fun l l' => l.address ≤ l'.address := by
  induction ss generalizing address with
  | nil => exact .nil
  | cons s rest ih =>
    rw [labelsFrom, List.pairwise_append]
    refine ⟨?_, ih _, fun l hl l' hl' => ?_⟩
    · cases s.label? with
      | none => exact .nil
      | some name => exact List.pairwise_singleton _ _
    · rw [Option.mem_toList, Option.map_eq_some_iff] at hl
      obtain ⟨name, -, rfl⟩ := hl
      have hle := (address_of_mem_labelsFrom hl').1
      exact Nat.le_trans (Nat.le_add_right _ _) hle

end PredicatedCpu

/-
# Layout does not matter

A source may be laid out in many ways: with empty lines and comments, spaced out or not, with a label
in front of its instruction or on a line of its own, and with either line ending.  Of all this a
source has a **gist**: the labels and instructions in their order, each by its tokens.  It makes no
difference to a source that is assembled, and to one that is not, an empty line makes a difference
only to the places of what is wrong.

That a source is assembled is needed.  Behind a label there could be another colon; on a line of its
own it would make a second label.  But then the instruction could not have been read.

* `Item`, `gistOf`: what lines say, by their tokens, and `gist_statements`;
* `Assembles`, `assemble_eq_ok_iff_gist`: what a source is assembled to, from its gist;
* `Relaid`: the ways of changing the layout of lines; `gistOf_of_relaid` is one step and
  `Assembles.of_relaid` any number of them;
* `carries_afterInsertion`: a line that says nothing, in a source with something wrong;
* `layout_immaterial`: both.
-/
import Mathlib.Logic.Relation
import PredicatedCpu.Proofs.Assembly.Diagnosis
import PredicatedCpu.Proofs.Assembly.Grammar
import PredicatedCpu.Proofs.Assembly.Placement

namespace PredicatedCpu

open Text (tokens IsWord isMark Breaks Loose Tight)

/-! ## 1. The gist of a source -/

/-- A label or an instruction, by its tokens. -/
inductive Item where
  | label (ts : List (List Char))
  | instruction (ts : List (List Char))
  deriving DecidableEq, Repr

/-- The tokens of an instruction, if there is one. -/
def instructionItems (ts : List (List Char)) : List Item :=
  if ts = [] then [] else [.instruction ts]

/-- The label and the instruction of a line, from its tokens. -/
def lineItems (ts : List (List Char)) : List Item :=
  if [':'] ∈ ts then
    .label (ts.takeWhile (· != [':'])) :: instructionItems (ts.dropWhile (· != [':'])).tail
  else instructionItems ts

theorem lineItems_of_no_colon {ts : List (List Char)} (h : [':'] ∉ ts) :
    lineItems ts = instructionItems ts := by
  rw [lineItems, if_neg h]

theorem lineItems_of_colon {front : List (List Char)} (h : [':'] ∉ front)
    (back : List (List Char)) :
    lineItems (front ++ [':'] :: back) = .label front :: instructionItems back := by
  have hkept : ∀ t ∈ front, (t != [':']) = true := fun t ht => by
    simpa using ne_of_mem_of_not_mem ht h
  rw [lineItems, if_pos (by simp), List.takeWhile_append_of_pos hkept,
    List.dropWhile_append_of_pos hkept]
  simp

/-- A line without its comment. -/
def codeOf (line : List Char) : List Char := line.takeWhile (· != ';')

/-- **The gist** of some lines. -/
def gistOf (lines : List (List Char)) : List Item :=
  lines.flatMap fun line => lineItems (tokens (codeOf line))

/-- What a statement says, by its tokens. -/
def Statement.items (s : Statement) : List Item :=
  (s.label?.map fun name => .label (tokens name.chars)).toList ++
    if s.isInstruction then [.instruction (tokens s.body.chars)] else []

/-- Only a text of blanks has no instruction. -/
theorem isEmpty_iff_tokens_eq_nil {body : Fragment} {cs : List Char}
    (h : body.chars = Text.trim cs) : body.isEmpty = true ↔ tokens cs = [] := by
  rw [← Text.tokens_trim, ← h, Fragment.isEmpty, List.isEmpty_iff]
  constructor
  · intro hnil
    rw [hnil, Text.tokens_nil]
  · intro hnil
    -- What trimming leaves does not begin with a blank.
    have htight : Tight body.chars := h ▸ Text.tight_trim cs
    cases hchars : body.chars with
    | nil => rfl
    | cons c rest =>
      rw [hchars] at hnil htight
      exact absurd hnil (Text.tokens_cons_ne_nil (htight.first c rfl) rest)

theorem Statement.items_eq {s : Statement} {cs : List Char} (h : s.body.chars = Text.trim cs) :
    s.items = (s.label?.map fun name => .label (tokens name.chars)).toList ++
      instructionItems (tokens cs) := by
  have htokens : tokens s.body.chars = tokens cs := by rw [h, Text.tokens_trim]
  have hempty := isEmpty_iff_tokens_eq_nil h
  rw [Statement.items, Statement.isInstruction, htokens, instructionItems]
  by_cases hnil : tokens cs = [] <;> simp [hnil, hempty]

/-- **The statement of a line** says what the tokens of the line say. -/
theorem items_ofLine? (line : List Char) :
    (Statement.ofLine? line).toList.flatMap Statement.items = lineItems (tokens (codeOf line)) := by
  obtain ⟨hlabel, hbody⟩ := (⟨0, 0, line⟩ : SourceLine).says_ofLine?
  have hcode : (⟨0, 0, line⟩ : SourceLine).code = codeOf line := rfl
  rw [SourceLine.label?, hcode] at hlabel
  rw [SourceLine.instructionText, hcode] at hbody
  by_cases hcolon : ':' ∈ codeOf line
  · obtain ⟨front, back, hparts, hfront⟩ := List.eq_append_cons_of_mem hcolon
    rw [if_pos hcolon, hparts, Text.takeWhile_ne_append hfront] at hlabel
    rw [if_pos hcolon, hparts, Text.dropWhile_ne_append hfront, List.tail_cons] at hbody
    obtain ⟨name, hname, hchars⟩ := Option.map_eq_some_iff.mp hlabel
    obtain ⟨s, hs, hsname⟩ := Option.bind_eq_some_iff.mp hname
    rw [hs, Option.map_some, Option.getD_some] at hbody
    have hcolons : [':'] ∉ tokens front := mt (Text.mark_mem_tokens_iff (by decide)).mp hfront
    rw [hparts, Text.tokens_append_mark (by decide), lineItems_of_colon hcolons, hs,
      Option.toList_some, List.flatMap_singleton, Statement.items_eq hbody, hsname,
      Option.map_some, hchars, Text.tokens_trim]
    rfl
  · rw [if_neg hcolon] at hlabel hbody
    have hcolons : [':'] ∉ tokens (codeOf line) :=
      mt (Text.mark_mem_tokens_iff (by decide)).mp hcolon
    rw [lineItems_of_no_colon hcolons]
    cases hs : Statement.ofLine? line with
    | none =>
      rw [hs] at hbody
      have hnil : tokens (codeOf line) = [] := by
        rw [← Text.tokens_trim, ← hbody]
        rfl
      rw [hnil]
      rfl
    | some s =>
      rw [hs] at hlabel hbody
      have hunlabelled : s.label? = none := Option.map_eq_none_iff.mp hlabel
      rw [Option.toList_some, List.flatMap_singleton, Statement.items_eq hbody, hunlabelled]
      rfl

theorem gist_statements (source : String) :
    (statements source).flatMap Statement.items = gistOf (textLines source) := by
  rw [statements_eq_filterMap, gistOf, textLines]
  induction source.toList.splitOn '\n' with
  | nil => rfl
  | cons line rest ih =>
    rw [List.flatMap_cons, ← ih, ← items_ofLine?, List.filterMap_cons]
    cases Statement.ofLine? line <;> simp

/-! ## 2. Assembling the gist -/

/-- The instructions among some items. -/
def instructionsOf (items : List Item) : List (List (List Char)) :=
  items.filterMap fun
    | .label _ => none
    | .instruction ts => some ts

theorem instructionsOf_append (front back : List Item) :
    instructionsOf (front ++ back) = instructionsOf front ++ instructionsOf back :=
  List.filterMap_append

/-- The labels among some items, each for the number of instructions before it. -/
def placedLabels (address : Nat) : List Item → List PlacedLabel
  | [] => []
  | .label ts :: rest => ⟨⟨0, ts.flatten⟩, address⟩ :: placedLabels address rest
  | .instruction _ :: rest => placedLabels (address + 1) rest

/-- **What a gist is assembled to.**  It is said as for a source, and a label has to be one token. -/
structure Assembles (items : List Item) (p : Program) : Prop where
  single : ∀ ts, Item.label ts ∈ items → ∃ t, ts = [t]
  compatible : Compatible (placedLabels 0 items)
  size : (instructionsOf items).length ≤ memorySize
  program : ∃ is, List.Forall₂ (Reads (tableOf (placedLabels 0 items))) (instructionsOf items) is ∧
    p = ⟨is.map Slot.ofInstruction, tableOf (placedLabels 0 items)⟩

/-- A label, by its tokens. -/
def PlacedLabel.gist (l : PlacedLabel) : PlacedLabel :=
  ⟨⟨0, (tokens l.name.chars).flatten⟩, l.address⟩

theorem placedLabels_items (address : Nat) (ss : List Statement) :
    placedLabels address (ss.flatMap Statement.items) =
      (labelsFrom address ss).map PlacedLabel.gist := by
  induction ss generalizing address with
  | nil => rfl
  | cons s rest ih =>
    rw [List.flatMap_cons, labelsFrom, List.map_append, ← ih, Statement.items, Statement.size]
    cases s.label? <;> cases s.isInstruction <;> rfl

theorem instructionsOf_items (ss : List Statement) :
    instructionsOf (ss.flatMap Statement.items) =
      (ss.filter Statement.isInstruction).map fun s => tokens s.body.chars := by
  induction ss with
  | nil => rfl
  | cons s rest ih =>
    rw [List.flatMap_cons, instructionsOf_append, ih, Statement.items]
    cases hinstruction : s.isInstruction with
    | true =>
      rw [List.filter_cons_of_pos hinstruction]
      cases s.label? <;> rfl
    | false =>
      rw [List.filter_cons_of_neg (by simp [hinstruction])]
      cases s.label? <;> rfl

theorem label_mem_items_iff {ts : List (List Char)} (address : Nat) {ss : List Statement} :
    Item.label ts ∈ ss.flatMap Statement.items ↔
      ∃ l ∈ labelsFrom address ss, tokens l.name.chars = ts := by
  induction ss generalizing address with
  | nil => simp [labelsFrom]
  | cons s rest ih =>
    rw [List.flatMap_cons, List.mem_append, ih (address + s.size), labelsFrom, Statement.items]
    simp only [List.mem_append, or_and_right, exists_or]
    refine or_congr_left ?_
    cases s.label? <;> cases s.isInstruction <;> simp [eq_comm]

/-- What a statement says has no blanks around it. -/
theorem tight_of_ofLine? {line : List Char} {s : Statement} (h : Statement.ofLine? line = some s) :
    (∀ name ∈ s.label?, Tight name.chars) ∧ Tight s.body.chars := by
  obtain ⟨hlabel, hbody⟩ := (⟨0, 0, line⟩ : SourceLine).says_ofLine?
  rw [h] at hlabel hbody
  constructor
  · intro name hname
    have hchars : some name.chars = (⟨0, 0, line⟩ : SourceLine).label? := by
      rw [← hlabel, Option.bind_some, Option.mem_def.mp hname, Option.map_some]
    rw [SourceLine.label?] at hchars
    split at hchars
    · rw [Option.some.inj hchars]
      exact Text.tight_trim _
    · cases hchars
  · have hchars : s.body.chars = (⟨0, 0, line⟩ : SourceLine).instructionText := hbody
    rw [hchars]
    exact Text.tight_trim _

theorem exists_line_of_mem_statements {source : String} {s : Statement}
    (h : s ∈ statements source) : ∃ line, Statement.ofLine? line = some s := by
  rw [statements_eq_filterMap] at h
  obtain ⟨line, -, hline⟩ := List.mem_filterMap.mp h
  exact ⟨line, hline⟩

theorem tight_of_mem_labelsFrom {address : Nat} {ss : List Statement}
    (h : ∀ s ∈ ss, ∃ line, Statement.ofLine? line = some s) {l : PlacedLabel}
    (hl : l ∈ labelsFrom address ss) : Tight l.name.chars := by
  induction ss generalizing address with
  | nil => cases hl
  | cons s rest ih =>
    rw [List.forall_mem_cons] at h
    rw [labelsFrom, List.mem_append, Option.mem_toList, Option.map_eq_some_iff] at hl
    rcases hl with ⟨name, hname, rfl⟩ | hl
    · obtain ⟨line, hline⟩ := h.1
      exact (tight_of_ofLine? hline).1 name hname
    · exact ih h.2 hl

/-- Where a label is one token, it is this token. -/
theorem PlacedLabel.chars_gist {l : PlacedLabel} (htight : Tight l.name.chars) {t : List Char}
    (h : tokens l.name.chars = [t]) : l.gist.name.chars = l.name.chars := by
  have htoken : l.name.chars = t := by rw [← Text.trim_of_tokens h, htight.trim]
  change (tokens l.name.chars).flatten = _
  rw [h, htoken]
  simp

theorem tableOf_gist {labels : List PlacedLabel}
    (h : ∀ l ∈ labels, l.gist.name.chars = l.name.chars) :
    tableOf (labels.map PlacedLabel.gist) = tableOf labels := by
  refine congrArg SymbolTable.mk ?_
  rw [List.map_map]
  refine List.map_congr_left fun l hl => ?_
  have htext : l.gist.name.text = l.name.text := congrArg String.ofList (h l hl)
  rw [Function.comp_apply, PlacedLabel.symbol, htext]
  rfl

theorem compatible_gist_iff {labels : List PlacedLabel}
    (h : ∀ l ∈ labels, l.gist.name.chars = l.name.chars) :
    Compatible (labels.map PlacedLabel.gist) ↔ Compatible labels := by
  have hdefinable : ∀ l ∈ labels, (l.gist.Definable ↔ l.Definable) := by
    intro l hl
    have htext : l.gist.name.text = l.name.text := congrArg String.ofList (h l hl)
    constructor
    · rintro ⟨hmemory, hidentifier, hfree⟩
      exact ⟨hmemory, h l hl ▸ hidentifier, htext ▸ hfree⟩
    · rintro ⟨hmemory, hidentifier, hfree⟩
      exact ⟨hmemory, (h l hl).symm ▸ hidentifier, htext.symm ▸ hfree⟩
  constructor
  · rintro ⟨hall, hdistinct⟩
    rw [tableOf_gist h] at hdistinct
    exact ⟨fun l hl => (hdefinable l hl).mp (hall _ (List.mem_map_of_mem hl)), hdistinct⟩
  · rintro ⟨hall, hdistinct⟩
    rw [← tableOf_gist h] at hdistinct
    refine ⟨List.forall_mem_map.mpr fun l hl => (hdefinable l hl).mpr (hall l hl), hdistinct⟩

/-- Instructions are read from their tokens, one by one. -/
theorem instructions_iff_reads (symbols : SymbolTable) {ss : List Statement}
    (htight : ∀ s ∈ ss, Tight s.body.chars) {is : List Instruction} :
    ss.map (Statement.instruction symbols) = is.map .ok ↔
      List.Forall₂ (Reads symbols) (ss.map fun s => tokens s.body.chars) is := by
  induction ss generalizing is with
  | nil => cases is <;> simp
  | cons s rest ih =>
    rw [List.forall_mem_cons] at htight
    cases is with
    | nil => simp
    | cons i is =>
      rw [List.map_cons, List.map_cons, List.map_cons, List.forall₂_cons, List.cons.injEq,
        ih htight.2, Statement.instruction, readInstruction_eq_ok_iff htight.1]

theorem placedLabels_gist (source : String) :
    placedLabels 0 (gistOf (textLines source)) = (labelsOf source).map PlacedLabel.gist := by
  rw [← gist_statements, placedLabels_items, labelsOf]

theorem instructionsOf_gist (source : String) :
    instructionsOf (gistOf (textLines source)) =
      (instructionStatements source).map fun s => tokens s.body.chars := by
  rw [← gist_statements, instructionsOf_items, instructionStatements]

theorem label_mem_gist_iff {source : String} {ts : List (List Char)} :
    Item.label ts ∈ gistOf (textLines source) ↔
      ∃ l ∈ labelsOf source, tokens l.name.chars = ts := by
  rw [← gist_statements, label_mem_items_iff 0, labelsOf]

/-- **What a source is assembled to hangs on its gist.** -/
theorem assemble_eq_ok_iff_gist {source : String} {p : Program} :
    assemble source = .ok p ↔ Assembles (gistOf (textLines source)) p := by
  have hlines : ∀ s ∈ statements source, ∃ line, Statement.ofLine? line = some s :=
    fun _ => exists_line_of_mem_statements
  have htight : ∀ s ∈ instructionStatements source, Tight s.body.chars := by
    intro s hs
    obtain ⟨line, hline⟩ := hlines s (List.mem_of_mem_filter hs)
    exact (tight_of_ofLine? hline).2
  have hkept : (∀ l ∈ labelsOf source, ∃ t, tokens l.name.chars = [t]) →
      ∀ l ∈ labelsOf source, l.gist.name.chars = l.name.chars := by
    intro h l hl
    obtain ⟨t, ht⟩ := h l hl
    exact PlacedLabel.chars_gist (tight_of_mem_labelsFrom hlines hl) ht
  rw [assemble_iff_statements]
  constructor
  · rintro ⟨hcompatible, hsize, is, his, rfl⟩
    -- A label that can be defined is an identifier, and so it is a word.
    have hword : ∀ l ∈ labelsOf source, tokens l.name.chars = [l.name.chars] := fun l hl =>
      Text.tokens_word (isWord_of_isIdentifier (hcompatible.definable l hl).identifier)
    have hchars := hkept fun l hl => ⟨_, hword l hl⟩
    have htable : tableOf (placedLabels 0 (gistOf (textLines source))) =
        tableOf (labelsOf source) := by rw [placedLabels_gist, tableOf_gist hchars]
    refine ⟨?_, ?_, ?_, is, ?_, ?_⟩
    · intro ts hts
      obtain ⟨l, hl, rfl⟩ := label_mem_gist_iff.mp hts
      exact ⟨_, hword l hl⟩
    · rwa [placedLabels_gist, compatible_gist_iff hchars]
    · rwa [instructionsOf_gist, List.length_map]
    · rwa [instructionsOf_gist, htable, ← instructions_iff_reads _ htight]
    · rw [htable]
  · rintro ⟨hsingle, hcompatible, hsize, is, his, rfl⟩
    have hchars := hkept fun l hl => hsingle _ (label_mem_gist_iff.mpr ⟨l, hl, rfl⟩)
    rw [placedLabels_gist, compatible_gist_iff hchars] at hcompatible
    rw [instructionsOf_gist, List.length_map] at hsize
    rw [placedLabels_gist, instructionsOf_gist, tableOf_gist hchars,
      ← instructions_iff_reads _ htight] at his
    refine ⟨hcompatible, hsize, is, his, ?_⟩
    rw [placedLabels_gist, tableOf_gist hchars]

/-! ## 3. Changing the layout -/

/-- Whether a text is a comment, or nothing. -/
def IsComment (cs : List Char) : Prop := ∀ c ∈ cs.head?, c = ';'

/-- Whether a line is blank, or only a comment. -/
def Silent (line : List Char) : Prop := ∀ c ∈ codeOf line, Text.isBlank c = true

instance (line : List Char) : Decidable (Silent line) :=
  decidable_of_iff ((codeOf line).all Text.isBlank = true) List.all_eq_true

/-- Whether a line is **inserted** behind so many others.  At the end, it may take the place of the
last line if that is empty, or put an end to the last line with a carriage return and a line feed. -/
inductive LineInserted (line : List Char) : Nat → List (List Char) → List (List Char) → Prop where
  | between (front back : List (List Char)) :
    LineInserted line front.length (front ++ back) (front ++ line :: back)
  | atEnd (front : List (List Char)) :
    LineInserted line front.length (front ++ [[]]) (front ++ [line])
  | behindReturn (front : List (List Char)) (last : List Char) :
    LineInserted line (front.length + 1) (front ++ [last]) (front ++ [last ++ ['\r'], line])

/-- Whether lines come from others by **one change of the layout**. -/
inductive Relaid : List (List Char) → List (List Char) → Prop where
  /-- A line that is blank, or only a comment. -/
  | line {number : Nat} {line : List Char} {lines lines' : List (List Char)}
    (h : LineInserted line number lines lines') (hsilent : Silent line) : Relaid lines lines'
  /-- Another comment, or a new one, or none any more. -/
  | comment (front back : List (List Char)) {code old new : List Char} (hcode : ';' ∉ code)
    (hold : IsComment old) (hnew : IsComment new) :
    Relaid (front ++ (code ++ old) :: back) (front ++ (code ++ new) :: back)
  /-- Blanks at the ends of a line, around a colon, a comma or a parenthesis, or at other blanks. -/
  | blanks (front back : List (List Char)) {before gap after : List Char} (hcode : ';' ∉ before)
    (hgap : ∀ c ∈ gap, Text.isBlank c = true) (hloose : Loose before (codeOf after)) :
    Relaid (front ++ (before ++ after) :: back) (front ++ (before ++ gap ++ after) :: back)
  /-- A carriage return before a line feed. -/
  | returnAdded (front back : List (List Char)) (line next : List Char) :
    Relaid (front ++ line :: next :: back) (front ++ (line ++ ['\r']) :: next :: back)
  /-- No carriage return there any more. -/
  | returnRemoved (front back : List (List Char)) (line next : List Char) :
    Relaid (front ++ (line ++ ['\r']) :: next :: back) (front ++ line :: next :: back)
  /-- A label on a line of its own. -/
  | labelApart (front back : List (List Char)) {label rest : List Char} (hcolon : ':' ∉ label)
    (hcode : ';' ∉ label) :
    Relaid (front ++ (label ++ ':' :: rest) :: back) (front ++ (label ++ [':']) :: rest :: back)

@[simp] theorem gistOf_cons (line : List Char) (lines : List (List Char)) :
    gistOf (line :: lines) = lineItems (tokens (codeOf line)) ++ gistOf lines :=
  List.flatMap_cons

@[simp] theorem gistOf_append (front back : List (List Char)) :
    gistOf (front ++ back) = gistOf front ++ gistOf back :=
  List.flatMap_append

theorem codeOf_append {before : List Char} (h : ';' ∉ before) (after : List Char) :
    codeOf (before ++ after) = before ++ codeOf after := by
  have hkept : ∀ c ∈ before, (c != ';') = true := fun c hc => by
    simpa using ne_of_mem_of_not_mem hc h
  rw [codeOf, List.takeWhile_append_of_pos hkept, codeOf]

theorem codeOf_of_no_comment {line : List Char} (h : ';' ∉ line) : codeOf line = line :=
  List.takeWhile_eq_self_iff.mpr fun c hc => by simpa using ne_of_mem_of_not_mem hc h

theorem codeOf_of_isComment {cs : List Char} (h : IsComment cs) : codeOf cs = [] := by
  cases cs with
  | nil => rfl
  | cons c rest =>
    obtain rfl := h c rfl
    rfl

/-- A line with a label in front. -/
theorem lineItems_labelled {label : List Char} (hcolon : ':' ∉ label) (hcode : ';' ∉ label)
    (rest : List Char) :
    lineItems (tokens (codeOf (label ++ ':' :: rest))) =
      .label (tokens label) :: instructionItems (tokens (codeOf rest)) := by
  have hlabel : [':'] ∉ tokens label := mt (Text.mark_mem_tokens_iff (by decide)).mp hcolon
  have hrest : codeOf (':' :: rest) = ':' :: codeOf rest := rfl
  rw [codeOf_append hcode, hrest, Text.tokens_append_mark (by decide), lineItems_of_colon hlabel]

theorem tokens_of_silent {line : List Char} (h : Silent line) : tokens (codeOf line) = [] :=
  Text.tokens_blanks h

/-- A carriage return is a blank, or part of a comment. -/
theorem tokens_codeOf_return (line : List Char) :
    tokens (codeOf (line ++ ['\r'])) = tokens (codeOf line) := by
  by_cases hcomment : ';' ∈ line
  · obtain ⟨code, comment, rfl, hcode⟩ := List.eq_append_cons_of_mem hcomment
    rw [List.append_assoc, codeOf_append hcode, codeOf_append hcode]
    rfl
  · have hline : ';' ∉ line ++ ['\r'] := by simpa using hcomment
    have hloose : Loose line [] := .inr (by simp [Breaks])
    have hreturn : ∀ c ∈ ['\r'], Text.isBlank c = true := List.all_eq_true.mp (by decide)
    have hblanks := Text.tokens_insert_blanks hloose hreturn
    rw [codeOf_of_no_comment hline, codeOf_of_no_comment hcomment]
    simpa using hblanks

theorem gistOf_of_lineInserted {line : List Char} {number : Nat} {lines lines' : List (List Char)}
    (h : LineInserted line number lines lines') (hsilent : Silent line) :
    gistOf lines' = gistOf lines := by
  have hitems : lineItems (tokens (codeOf line)) = [] :=
    congrArg lineItems (tokens_of_silent hsilent)
  cases h with
  | between front back => simp only [gistOf_append, gistOf_cons, hitems, List.nil_append]
  | atEnd front =>
    simp only [gistOf_append, gistOf_cons, hitems]
    rfl
  | behindReturn front last =>
    simp only [gistOf_append, gistOf_cons, hitems, tokens_codeOf_return, List.nil_append]

/-- No instruction that can be read has a colon in it. -/
theorem Reads.no_colon {symbols : SymbolTable} {ts : List (List Char)} {i : Instruction}
    (h : Reads symbols ts i) : [':'] ∉ ts := by
  obtain ⟨guard, mnemonic, operands, opcode, rfl, hguard, hmnemonic, -, hoperands, -⟩ := h
  have hmark : isMark ':' = true := by decide
  have hguard' : [':'] ∉ guard := by
    rcases hguard with ⟨rfl, -⟩ | ⟨name, rfl, hname, -⟩
    · exact List.not_mem_nil
    · simpa using (hname.ne_mark hmark).symm
  have hoperands' : [':'] ∉ commaTokens operands := by
    intro hmem
    rcases mem_of_mem_commaTokens hmem with hcomma | hword
    · revert hcomma
      decide
    · exact (hoperands _ hword).ne_mark hmark rfl
  simp [hguard', (hmnemonic.ne_mark hmark).symm, hoperands']

/-- So there is none in an instruction of a gist that is assembled. -/
theorem Assembles.no_colon {items : List Item} {p : Program} (h : Assembles items p)
    {ts : List (List Char)} (hts : Item.instruction ts ∈ items) : [':'] ∉ ts := by
  have hmem : ts ∈ instructionsOf items := List.mem_filterMap.mpr ⟨_, hts, rfl⟩
  obtain ⟨is, his, -⟩ := h.program
  have hall := his.imp fun ts i hi => (⟨hi.no_colon, hi⟩ : [':'] ∉ ts ∧ Reads _ ts i)
  exact ((List.forall₂_and_left _ _).mp hall).1 ts hmem

/-- **One change of the layout** leaves the gist as it is, if that is assembled. -/
theorem gistOf_of_relaid {lines lines' : List (List Char)} {p : Program}
    (h : Assembles (gistOf lines) p) (hrelaid : Relaid lines lines') :
    gistOf lines' = gistOf lines := by
  cases hrelaid with
  | line hinserted hsilent => exact gistOf_of_lineInserted hinserted hsilent
  | comment front back hcode hold hnew =>
    simp [codeOf_append hcode, codeOf_of_isComment hold, codeOf_of_isComment hnew]
  | @blanks front back before gap after hcode hgap hloose =>
    have hcode' : ';' ∉ before ++ gap := by
      rw [List.mem_append, not_or]
      exact ⟨hcode, Text.not_mem_blanks (by decide) hgap⟩
    have htokens := Text.tokens_insert_blanks hloose hgap
    simp only [gistOf_append, gistOf_cons, codeOf_append hcode, codeOf_append hcode', htokens]
  | returnAdded front back line next =>
    simp only [gistOf_append, gistOf_cons, tokens_codeOf_return]
  | returnRemoved front back line next =>
    simp only [gistOf_append, gistOf_cons, tokens_codeOf_return]
  | @labelApart front back label rest hcolon hcode =>
    have hboth := lineItems_labelled hcolon hcode rest
    have halone : lineItems (tokens (codeOf (label ++ [':']))) = [.label (tokens label)] :=
      lineItems_labelled hcolon hcode []
    -- On a line of its own the rest makes no second label, since it can be read.
    have hrest : [':'] ∉ tokens (codeOf rest) := by
      by_cases hnil : tokens (codeOf rest) = []
      · simp [hnil]
      · refine h.no_colon ?_
        simp [hboth, instructionItems, hnil]
    simp only [gistOf_append, gistOf_cons, hboth, halone, lineItems_of_no_colon hrest]
    simp

/-- **Any number of changes** leave a program as it is. -/
theorem Assembles.of_relaid {lines lines' : List (List Char)} {p : Program}
    (h : Assembles (gistOf lines) p) (hrelaid : Relation.ReflTransGen Relaid lines lines') :
    Assembles (gistOf lines') p := by
  induction hrelaid with
  | refl => exact h
  | tail _ hstep ih => exact gistOf_of_relaid ih hstep ▸ ih

/-! ## 4. A line that says nothing, in a source with something wrong -/

/-- A diagnostic after a line of `bytes` bytes was inserted behind so many others. -/
def Diagnostic.afterInsertion (number bytes : Nat) (d : Diagnostic) : Diagnostic :=
  if number < d.line then d.move 1 bytes else d

theorem ofLine?_of_silent {line : List Char} (h : Silent line) : Statement.ofLine? line = none := by
  have htrim : Text.trim (codeOf line) = [] := by
    have hnil : Tight [] := .of_solid (by simp)
    simpa using hnil.trim_of_blanks_around h (List.forall_mem_nil _)
  have hempty : (((Fragment.mk 0 line).takeWhile (· != ';')).trim).isEmpty = true :=
    List.isEmpty_iff.mpr htrim
  rw [Statement.ofLine?, if_pos hempty]

theorem placed_of_silent {line : List Char} (h : Silent line) (p : Place)
    (back : List (List Char)) :
    placed p (line :: back) = (placed p back).map (Entry.move 1 (Text.byteWidth line + 1)) := by
  have hnone := ofLine?_of_silent h
  have hnext : p.next line = p.move 1 (Text.byteWidth line + 1) := by
    simp only [Place.next, Place.move, sizeOfLine, hnone, Option.map_none, Option.getD_none,
      Place.mk.injEq, Nat.add_zero, true_and]
    omega
  rw [placed, hnext, placed_move, Place.lay?, hnone]
  rfl

theorem line_le_of_mem_placed_first {lines : List (List Char)} {e : Entry}
    (h : e ∈ placed .first lines) : e.line ≤ lines.length := by
  have hline : e.line < 1 + lines.length := (line_of_mem_placed h).2
  omega

/-- **A line that says nothing** moves what is behind it. -/
theorem exists_entries_of_lineInserted {source source' : String} {number : Nat} {line : List Char}
    (h : LineInserted line number (textLines source) (textLines source')) (hsilent : Silent line) :
    ∃ front back, entries source = front ++ back ∧
      entries source' = front ++ back.map (Entry.move 1 (Text.byteWidth line + 1)) ∧
      (∀ e ∈ front, e.line ≤ number) ∧ ∀ e ∈ back, number < e.line := by
  rw [entries_eq_placed, entries_eq_placed]
  generalize textLines source = lines at h
  generalize textLines source' = lines' at h
  cases h with
  | between front back =>
    refine ⟨placed .first front, placed (Place.first.behind front) back, placed_append _ _ _, ?_,
      fun e => line_le_of_mem_placed_first, fun e he => ?_⟩
    · rw [placed_append, placed_of_silent hsilent]
    · have hline := (line_of_mem_placed he).1
      simp only [Place.line_behind, Place.first] at hline
      omega
  | atEnd front =>
    have hline : placed (Place.first.behind front) [line] = [] := placed_of_silent hsilent _ []
    refine ⟨placed .first front, [], ?_, ?_, fun e => line_le_of_mem_placed_first,
      List.forall_mem_nil _⟩
    · rw [placed_append]
      rfl
    · rw [placed_append, hline]
      rfl
  | behindReturn front last =>
    have hlast : placed (Place.first.behind front) [last ++ ['\r'], line] =
        placed (Place.first.behind front) [last] := by
      rw [placed, placed_of_silent hsilent, Place.lay?, ofLine?_append_return]
      rfl
    refine ⟨placed .first (front ++ [last]), [], (List.append_nil _).symm, ?_, fun e he => ?_,
      List.forall_mem_nil _⟩
    · rw [placed_append, placed_append, hlast]
      simp
    · simpa using line_le_of_mem_placed_first he

/-- A statement after the insertion of a line. -/
def Entry.afterInsertion (number bytes : Nat) (e : Entry) : Entry :=
  if number < e.line then e.move 1 bytes else e

/-- **What is wrong with a statement** is wrong with it after the insertion, in its new place: a
diagnostic is on the line of its statement, so both are moved or neither. -/
theorem carries_afterInsertion (number bytes : Nat) :
    Carries (Entry.afterInsertion number bytes) (Diagnostic.afterInsertion number bytes) := by
  refine .of_placed (fun e => ?_) (fun e => ?_) fun e finding => ?_
  · unfold Entry.afterInsertion
    split <;> rfl
  · unfold Entry.afterInsertion
    split <;> rfl
  · have hline : (e.diagnostic finding).line = e.line := rfl
    rw [Diagnostic.afterInsertion, hline, Entry.afterInsertion]
    split
    · exact diagnostic_move 1 bytes e finding
    · rfl

/-- The order of the lines is kept. -/
theorem line_afterInsertion_le_iff (number bytes : Nat) (d d' : Diagnostic) :
    d.line ≤ d'.line ↔
      (d.afterInsertion number bytes).line ≤ (d'.afterInsertion number bytes).line := by
  have hline (d : Diagnostic) : (d.afterInsertion number bytes).line =
      if number < d.line then d.line + 1 else d.line := by
    unfold Diagnostic.afterInsertion
    split <;> rfl
  rw [hline, hline]
  split <;> split <;> omega

/-- **What is wrong is wrong again**, in its new place and in the same order. -/
theorem found_of_lineInserted {source source' : String} {number : Nat} {line : List Char}
    (h : LineInserted line number (textLines source) (textLines source')) (hsilent : Silent line) :
    inLineOrder (found source') = (inLineOrder (found source)).map
      (Diagnostic.afterInsertion number (Text.byteWidth line + 1)) := by
  obtain ⟨front, back, hentries, hentries', hfront, hback⟩ :=
    exists_entries_of_lineInserted h hsilent
  have hkept : front.map (Entry.afterInsertion number (Text.byteWidth line + 1)) = front :=
    (List.map_congr_left fun e he => if_neg (Nat.not_lt.mpr (hfront e he))).trans (List.map_id _)
  have hmoved : back.map (Entry.afterInsertion number (Text.byteWidth line + 1)) =
      back.map (Entry.move 1 (Text.byteWidth line + 1)) :=
    List.map_congr_left fun e he => if_pos (hback e he)
  have hmap : entries source' =
      (entries source).map (Entry.afterInsertion number (Text.byteWidth line + 1)) := by
    rw [hentries, hentries', List.map_append, hkept, hmoved]
  rw [(carries_afterInsertion _ _).found hmap]
  exact (map_sortBy _ (line_afterInsertion_le_iff _ _) _).symm

/-! ## 5. Layout is immaterial -/

/-- **Layout does not matter.**  If a source is assembled, it is assembled to the same program after
any changes of its layout, one after the other.  If it is not, and a line that is blank or only a
comment is inserted, the same diagnostics are given in the same order; those for a line at or behind
the insertion are one line further down, and their places are further on by the bytes that were
inserted. -/
theorem layout_immaterial {source source' : String} :
    (∀ p, assemble source = .ok p →
        Relation.ReflTransGen Relaid (textLines source) (textLines source') →
        assemble source' = .ok p) ∧
      ∀ ds number line, assemble source = .error ds →
        LineInserted line number (textLines source) (textLines source') → Silent line →
        assemble source' =
          .error (ds.map (Diagnostic.afterInsertion number (Text.byteWidth line + 1))) := by
  constructor
  · intro p h hrelaid
    rw [assemble_eq_ok_iff_gist] at h ⊢
    exact h.of_relaid hrelaid
  · intro ds number line h hinserted hsilent
    rw [assemble_eq_error_iff] at h ⊢
    obtain ⟨rfl, hnonempty⟩ := h
    exact ⟨found_of_lineInserted hinserted hsilent, by simpa using hnonempty⟩

/-- A program in two lines. -/
def denseSource : String := "loop:ADD R0,R0,#1 ; up\n(P1)B loop"

/-- The same program with its label and a comment on lines of their own, spaced out, and with
something else in the other comment. -/
def spaciousSource : String := "; counts\nloop:\r\nADD R0 ,R0,#1 ;down\n(P1)B loop"

/-- It is the same in five changes. -/
theorem relaid_spaciousSource :
    Relation.ReflTransGen Relaid (textLines denseSource) (textLines spaciousSource) := by
  have hlabel : Relaid (textLines denseSource)
      ["loop:".toList, "ADD R0,R0,#1 ; up".toList, "(P1)B loop".toList] :=
    @Relaid.labelApart [] ["(P1)B loop".toList] "loop".toList "ADD R0,R0,#1 ; up".toList
      (by decide) (by decide)
  have hreturn : Relaid ["loop:".toList, "ADD R0,R0,#1 ; up".toList, "(P1)B loop".toList]
      ["loop:\r".toList, "ADD R0,R0,#1 ; up".toList, "(P1)B loop".toList] :=
    .returnAdded [] ["(P1)B loop".toList] "loop:".toList "ADD R0,R0,#1 ; up".toList
  have hblanks : Relaid ["loop:\r".toList, "ADD R0,R0,#1 ; up".toList, "(P1)B loop".toList]
      ["loop:\r".toList, "ADD R0 ,R0,#1 ; up".toList, "(P1)B loop".toList] :=
    @Relaid.blanks ["loop:\r".toList] ["(P1)B loop".toList] "ADD R0".toList [' ']
      ",R0,#1 ; up".toList (by decide) (List.all_eq_true.mp (by decide))
      (.of_mark _ (by decide) "R0,#1 ".toList)
  have hcomment : Relaid ["loop:\r".toList, "ADD R0 ,R0,#1 ; up".toList, "(P1)B loop".toList]
      ["loop:\r".toList, "ADD R0 ,R0,#1 ;down".toList, "(P1)B loop".toList] :=
    @Relaid.comment ["loop:\r".toList] ["(P1)B loop".toList] "ADD R0 ,R0,#1 ".toList
      "; up".toList ";down".toList (by decide) (by simp [IsComment]) (by simp [IsComment])
  have hline : Relaid ["loop:\r".toList, "ADD R0 ,R0,#1 ;down".toList, "(P1)B loop".toList]
      (textLines spaciousSource) :=
    .line (@LineInserted.between "; counts".toList [] _) (by decide)
  exact .head hlabel (.head hreturn (.head hblanks (.head hcomment (.single hline))))

/-- A program whose layout is changed, and a source with an undefined label before which a line is
inserted. -/
theorem layout_immaterial_spaciousSource :
    (∃ p, assemble denseSource = .ok p ∧ assemble spaciousSource = .ok p) ∧
      assemble "LDR x\nHLT\n; é\nLDR y" = .error
        [⟨.undefinedLabel "x", 1, ⟨4, 1⟩⟩, ⟨.undefinedLabel "y", 4, ⟨19, 1⟩⟩] := by
  constructor
  · obtain ⟨p, hp⟩ : ∃ p, assemble denseSource = .ok p := ⟨_, rfl⟩
    exact ⟨p, hp, layout_immaterial.1 p hp relaid_spaciousSource⟩
  · have h : assemble "LDR x\nHLT\nLDR y" = .error
        [⟨.undefinedLabel "x", 1, ⟨4, 1⟩⟩, ⟨.undefinedLabel "y", 3, ⟨14, 1⟩⟩] :=
      assemble_of_found (by decide +kernel) (by decide) (by decide)
    have hinserted : LineInserted "; é".toList 2 (textLines "LDR x\nHLT\nLDR y")
        (textLines "LDR x\nHLT\n; é\nLDR y") :=
      @LineInserted.between "; é".toList ["LDR x".toList, "HLT".toList] ["LDR y".toList]
    exact (layout_immaterial.2 _ 2 "; é".toList h hinserted (by decide)).trans (by decide +kernel)

end PredicatedCpu

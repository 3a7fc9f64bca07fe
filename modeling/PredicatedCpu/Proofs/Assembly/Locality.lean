/-
# What is wrong with a line stays on the line

A source with something wrong in it is still gone through to the end, and everything that is wrong is
reported at once.  That is worth something only if one error does not bring about another, or keep
one from being seen.  An instruction that cannot be read could do either: if it took no address, all
labels below it would stand for other addresses; if its line were given up, so would be its label;
and if it did not count, the program could seem to fit in memory.

So the text of an instruction is replaced by any other, in any source.

* `InstructionLine`: a line with an instruction, taken apart, and `exists_instructionLine`;
* `Fragment.Replaced`: a text with another piece in the place of one;
* `Entry.InstructionEdited.exists_lines`: the statement of the line keeps its label;
* `Entry.Alike`, `complaints_found`: what is wrong with two sources that differ in it;
* `errors_stay_on_line`: everything but the complaints of that instruction, and its slot, stays.
-/
import PredicatedCpu.Proofs.Assembly.Diagnosis
import PredicatedCpu.Proofs.Assembly.Placement

namespace PredicatedCpu

/-! ## 1. Lines with an instruction -/

/-- Trimming finds a tight text between blanks, in its place. -/
theorem Fragment.trim_of_blanks_around (start : Nat) {front body back : List Char}
    (htight : Text.Tight body) (hne : body ≠ []) (hfront : ∀ c ∈ front, Text.isBlank c = true)
    (hback : ∀ c ∈ back, Text.isBlank c = true) :
    (Fragment.mk start (front ++ body ++ back)).trim = ⟨start + Text.byteWidth front, body⟩ := by
  have hend : Text.trimEnd (front ++ body ++ back) = front ++ body := by
    obtain ⟨init, last, rfl⟩ := (List.eq_nil_or_concat body).resolve_left hne
    rw [List.concat_eq_append] at htight ⊢
    rw [Text.trimEnd_append_blanks _ hback, ← List.append_assoc,
      Text.trimEnd_append (htight.last last (by simp))]
  obtain ⟨c, rest, rfl⟩ := List.exists_cons_of_ne_nil hne
  have hc : ¬ Text.isBlank c = true := by simp [htight.first c rfl]
  simp only [trim, trimEnd, trimStart, dropWhile, hend]
  rw [List.takeWhile_append_of_pos hfront, List.dropWhile_append_of_pos hfront,
    List.takeWhile_cons_of_neg hc, List.dropWhile_cons_of_neg hc, List.append_nil]

/-- **A line with an instruction**, taken apart: perhaps a label, then the instruction between
blanks, and perhaps a comment. -/
structure InstructionLine where
  /-- What stands before the colon, if there is one. -/
  label? : Option (List Char)
  gap : List Char
  body : List Char
  after : List Char
  /-- The comment, with its semicolon. -/
  comment : List Char
  label_plain : ∀ name ∈ label?, ':' ∉ name ∧ ';' ∉ name
  gap_blank : ∀ c ∈ gap, Text.isBlank c = true
  tight : Text.Tight body
  body_ne_nil : body ≠ []
  no_semicolon : ';' ∉ body
  /-- Without a label there is no colon; behind one there may be others. -/
  no_colon : label? = none → ':' ∉ body
  after_blank : ∀ c ∈ after, Text.isBlank c = true
  comment_head : ∀ c ∈ comment.head?, c = ';'

namespace InstructionLine

/-- What stands before the instruction. -/
def lead (l : InstructionLine) : List Char :=
  match l.label? with
  | none => l.gap
  | some name => name ++ ':' :: l.gap

/-- The line as it is written. -/
def chars (l : InstructionLine) : List Char := l.lead ++ l.body ++ l.after ++ l.comment

/-- The label, where it stands. -/
def labelFragment (name : List Char) : Fragment := (Fragment.mk 0 name).trimStart.trim

/-- What the line says. -/
def statement (l : InstructionLine) : Statement :=
  ⟨l.label?.map labelFragment, ⟨Text.byteWidth l.lead, l.body⟩⟩

/-- The comment is cut off, and nothing else. -/
theorem takeWhile_chars (l : InstructionLine) :
    l.chars.takeWhile (· != ';') = l.lead ++ l.body ++ l.after := by
  have hblank : Text.isBlank ';' = false := by decide
  have hlead : ';' ∉ l.lead := by
    have hgap := Text.not_mem_blanks hblank l.gap_blank
    unfold lead
    cases hlabel : l.label? with
    | none => exact hgap
    | some name => simp [hgap, (l.label_plain name hlabel).2]
  have hcode : ∀ c ∈ l.lead ++ l.body ++ l.after, (c != ';') = true := by
    have hafter := Text.not_mem_blanks hblank l.after_blank
    intro c hc
    simp only [List.mem_append] at hc
    rw [bne_iff_ne]
    rintro rfl
    exact hc.elim (fun h => h.elim hlead l.no_semicolon) hafter
  rw [chars, List.takeWhile_append_of_pos hcode]
  cases hcomment : l.comment with
  | nil => simp
  | cons c rest =>
    obtain rfl : c = ';' := l.comment_head c (by simp [hcomment])
    simp

/-- The line without its comment, trimmed: the blanks in front of a label are trimmed off too. -/
theorem trim_code_of_label (l : InstructionLine) {name : List Char} :
    (Fragment.mk 0 (name ++ ':' :: l.gap ++ l.body ++ l.after)).trim =
      ⟨Text.byteWidth (name.takeWhile Text.isBlank),
        name.dropWhile Text.isBlank ++ ':' :: (l.gap ++ l.body)⟩ := by
  have hcode : name ++ ':' :: l.gap ++ l.body ++ l.after =
      name.takeWhile Text.isBlank ++
        (name.dropWhile Text.isBlank ++ ':' :: (l.gap ++ l.body)) ++ l.after := by
    rw [← List.append_assoc (name.takeWhile Text.isBlank), List.takeWhile_append_dropWhile]
    simp
  have htight : Text.Tight (name.dropWhile Text.isBlank ++ ':' :: (l.gap ++ l.body)) := by
    constructor
    · cases hname : name.dropWhile Text.isBlank with
      | nil => simp; decide
      | cons c rest =>
        have hfirst : ∀ c ∈ (name.dropWhile Text.isBlank).head?, Text.isBlank c = false :=
          Text.not_blank_of_head?_dropWhile
        simpa [hname] using hfirst
    · obtain ⟨init, last, hbody⟩ := (List.eq_nil_or_concat l.body).resolve_left l.body_ne_nil
      have hchars : name.dropWhile Text.isBlank ++ ':' :: (l.gap ++ l.body) =
          (name.dropWhile Text.isBlank ++ ':' :: (l.gap ++ init)) ++ [last] := by
        simp [hbody]
      intro c hc
      rw [hchars, List.getLast?_append, List.getLast?_singleton] at hc
      exact l.tight.last c (by simpa [hbody] using hc)
  rw [hcode, Fragment.trim_of_blanks_around 0 htight (by simp)
    (fun c hc => List.mem_takeWhile_imp hc) l.after_blank, Nat.zero_add]

/-- **What is read from the line** is what it says, and where. -/
theorem ofLine?_chars (l : InstructionLine) : Statement.ofLine? l.chars = some l.statement := by
  have hcode : ((Fragment.mk 0 l.chars).takeWhile (· != ';')) = ⟨0, l.lead ++ l.body ++ l.after⟩ :=
    congrArg (Fragment.mk 0) l.takeWhile_chars
  rw [Statement.ofLine?, hcode, statement, lead]
  cases hlabel : l.label? with
  | none =>
    have hbody : ∀ c ∈ l.body, (c == ':') = false := fun c hc => by
      simpa using ne_of_mem_of_not_mem hc (l.no_colon hlabel)
    simp only
    rw [Fragment.trim_of_blanks_around 0 l.tight l.body_ne_nil l.gap_blank l.after_blank,
      if_neg (by simpa [Fragment.isEmpty] using l.body_ne_nil), Fragment.splitFirst?_eq_none hbody,
      Nat.zero_add]
    rfl
  | some name =>
    have hname : ∀ c ∈ name.dropWhile Text.isBlank, (c == ':') = false := fun c hc => by
      have hmem : c ∈ name := (List.dropWhile_suffix Text.isBlank).mem hc
      simpa using ne_of_mem_of_not_mem hmem (l.label_plain name hlabel).1
    have hbody := Fragment.trim_of_blanks_around
      (Text.byteWidth (name.takeWhile Text.isBlank) +
        Text.byteWidth (name.dropWhile Text.isBlank) + ':'.utf8Size)
      l.tight l.body_ne_nil l.gap_blank (List.forall_mem_nil _)
    rw [List.append_nil] at hbody
    simp only
    rw [trim_code_of_label, if_neg (by simp [Fragment.isEmpty]),
      Fragment.splitFirst?_append hname (by simp)]
    have hstart : Text.byteWidth (name ++ ':' :: l.gap) =
        Text.byteWidth (name.takeWhile Text.isBlank) +
          Text.byteWidth (name.dropWhile Text.isBlank) + ':'.utf8Size + Text.byteWidth l.gap := by
      rw [← Text.byteWidth_append, List.takeWhile_append_dropWhile, Text.byteWidth_append,
        Text.byteWidth, Nat.add_assoc]
    simp [hbody, hstart, labelFragment, Fragment.trimStart, Fragment.dropWhile]

end InstructionLine

/-- **Every line with an instruction** can be taken apart. -/
theorem exists_instructionLine {line : List Char} {s : Statement}
    (h : Statement.ofLine? line = some s) (hinstruction : s.isInstruction = true) :
    ∃ l : InstructionLine, l.chars = line ∧ l.statement = s := by
  -- It suffices to take the line apart: what it says is known then.
  suffices hchars : ∃ l : InstructionLine, l.chars = line by
    obtain ⟨l, rfl⟩ := hchars
    exact ⟨l, rfl, Option.some.inj (l.ofLine?_chars.symm.trans h)⟩
  have hbody : s.body.chars = (⟨0, 0, line⟩ : SourceLine).instructionText := by
    have hsays := (⟨0, 0, line⟩ : SourceLine).says_ofLine?.body
    rwa [h] at hsays
  have hne : s.body.chars ≠ [] := by
    simpa [Statement.isInstruction, Fragment.isEmpty] using hinstruction
  rw [hbody, SourceLine.instructionText, SourceLine.code] at hne
  have hcomment : ∀ c ∈ (line.dropWhile (· != ';')).head?, c = ';' := by
    intro c hc
    have hhead := List.head?_dropWhile_not (· != ';') line
    rw [Option.mem_def.mp hc] at hhead
    simpa using hhead
  have hsemicolon : ';' ∉ line.takeWhile (· != ';') := by
    intro hmem
    have hkept := List.mem_takeWhile_imp hmem
    simp at hkept
  have hline : line.takeWhile (· != ';') ++ line.dropWhile (· != ';') = line :=
    List.takeWhile_append_dropWhile
  generalize line.takeWhile (· != ';') = code at hne hsemicolon hline
  generalize line.dropWhile (· != ';') = comment at hcomment hline
  subst hline
  by_cases hcolon : ':' ∈ code
  · obtain ⟨name, rest, rfl, hname⟩ := List.eq_append_cons_of_mem hcolon
    rw [if_pos hcolon, Text.dropWhile_ne_append hname, List.tail_cons] at hne
    obtain ⟨gap, after, hrest, hgap, hafter⟩ := Text.exists_blanks_around_trim rest
    have htight := Text.tight_trim rest
    generalize Text.trim rest = body at hne hrest htight
    subst hrest
    simp only [List.mem_append, List.mem_cons, not_or] at hsemicolon
    refine ⟨⟨some name, gap, body, after, comment, ?_, hgap, htight, hne, hsemicolon.2.2.1.2,
      by simp, hafter, hcomment⟩, ?_⟩
    · rintro _ ⟨⟩
      exact ⟨hname, hsemicolon.1⟩
    · simp [InstructionLine.chars, InstructionLine.lead]
  · rw [if_neg hcolon] at hne
    obtain ⟨gap, after, hcode, hgap, hafter⟩ := Text.exists_blanks_around_trim code
    have htight := Text.tight_trim code
    generalize Text.trim code = body at hne hcode htight
    subst hcode
    simp only [List.mem_append, not_or] at hsemicolon hcolon
    exact ⟨⟨none, gap, body, after, comment, by simp, hgap, htight, hne, hsemicolon.1.2,
      fun _ => hcolon.1.2, hafter, hcomment⟩, rfl⟩

/-! ## 2. Another text in the place of the instruction -/

namespace Text

/-- A text has one front part of a certain width. -/
theorem append_inj_of_byteWidth {front back front' back' : List Char}
    (h : front ++ back = front' ++ back') (hwidth : byteWidth front = byteWidth front') :
    front = front' ∧ back = back' := by
  have hnil : ∀ cs : List Char, byteWidth cs = 0 → cs = [] := by
    intro cs hcs
    cases cs with
    | nil => rfl
    | cons c rest =>
      have hpos := c.utf8Size_pos
      simp [byteWidth] at hcs
      omega
  rcases List.append_eq_append_iff.mp h with ⟨more, rfl, rfl⟩ | ⟨more, rfl, rfl⟩
  · rw [byteWidth_append] at hwidth
    simp [hnil more (by omega)]
  · rw [byteWidth_append] at hwidth
    simp [hnil more (by omega)]

/-- Pieces with a line feed behind each. -/
def terminated (pieces : List (List Char)) : List Char := pieces.flatMap (· ++ ['\n'])

theorem intercalate_lineFeed (front : List (List Char)) (line : List Char)
    (back : List (List Char)) :
    ['\n'].intercalate (front ++ line :: back) =
      terminated front ++ line ++ back.flatMap ('\n' :: ·) := by
  induction front with
  | nil =>
    induction back generalizing line with
    | nil => simp [terminated]
    | cons next rest ih =>
      rw [List.nil_append, List.intercalate_cons_cons, ← List.nil_append (next :: rest), ih]
      simp [terminated]
  | cons first rest ih =>
    obtain ⟨next, others, hnext⟩ : ∃ next others, rest ++ line :: back = next :: others :=
      List.exists_cons_of_ne_nil (by simp)
    rw [List.cons_append, hnext, List.intercalate_cons_cons, ← hnext, ih]
    simp [terminated]

end Text

open Text (terminated byteWidth byteWidth_append)

theorem toList_of_textLines {source : String} {front back : List (List Char)} {line : List Char}
    (h : textLines source = front ++ line :: back) :
    source.toList = terminated front ++ line ++ back.flatMap ('\n' :: ·) := by
  rw [← Text.intercalate_lineFeed, ← h, textLines, List.intercalate_splitOn]

theorem textLines_of_toList {source : String} {front back : List (List Char)} {line : List Char}
    (hpieces : ∀ piece ∈ front ++ line :: back, '\n' ∉ piece)
    (h : source.toList = terminated front ++ line ++ back.flatMap ('\n' :: ·)) :
    textLines source = front ++ line :: back := by
  rw [textLines, h, ← Text.intercalate_lineFeed]
  exact List.splitOn_intercalate '\n' hpieces (by simp)

theorem Place.start_behind (p : Place) (pieces : List (List Char)) :
    (p.behind pieces).start = p.start + byteWidth (terminated pieces) := by
  induction pieces generalizing p with
  | nil => rfl
  | cons piece rest ih =>
    have hfeed : '\n'.utf8Size = 1 := by decide
    rw [Place.behind, List.foldl_cons, ← Place.behind, ih, Place.next]
    simp only [terminated, List.flatMap_cons, byteWidth_append, byteWidth, hfeed]
    omega

/-- Whether a text comes from another one by putting `text` in the place of a piece of it. -/
def Fragment.Replaced (f : Fragment) (text cs cs' : List Char) : Prop :=
  ∃ before after, cs = before ++ f.chars ++ after ∧ f.start = byteWidth before ∧
    cs' = before ++ text ++ after

/-- **Other text within a line** changes only the line.  The place of the text says which of its
occurrences in the source is meant. -/
theorem textLines_of_replaced {source source' : String} {front back : List (List Char)}
    {lead behind before after text : List Char} {f : Fragment}
    (hlines : textLines source = front ++ (lead ++ f.chars ++ behind) :: back)
    (hwidth : byteWidth before = byteWidth (terminated front ++ lead))
    (hsource : source.toList = before ++ f.chars ++ after)
    (hsource' : source'.toList = before ++ text ++ after) (htext : '\n' ∉ text) :
    textLines source' = front ++ (lead ++ text ++ behind) :: back := by
  have hparts : before ++ (f.chars ++ after) =
      (terminated front ++ lead) ++ (f.chars ++ (behind ++ back.flatMap ('\n' :: ·))) := by
    have htoList := toList_of_textLines hlines
    rw [hsource] at htoList
    simpa using htoList
  obtain ⟨rfl, hrest⟩ := Text.append_inj_of_byteWidth hparts hwidth
  obtain rfl := List.append_cancel_left hrest
  have hclean : ∀ piece ∈ front ++ (lead ++ f.chars ++ behind) :: back, '\n' ∉ piece := by
    intro piece hpiece
    rw [← hlines] at hpiece
    exact Text.not_mem_of_mem_splitOn hpiece
  have hline : '\n' ∉ lead ++ text ++ behind := by
    have hline := hclean (lead ++ f.chars ++ behind) (by simp)
    simp only [List.mem_append, not_or] at hline ⊢
    exact ⟨⟨hline.1.1, htext⟩, hline.2⟩
  refine textLines_of_toList ?_ ?_
  · intro piece hpiece
    rw [List.mem_append, List.mem_cons] at hpiece
    rcases hpiece with hfront | rfl | hback
    · exact hclean piece (by simp [hfront])
    · exact hline
    · exact hclean piece (by simp [hback])
  · rw [hsource']
    simp

/-- The instruction of a statement, where it stands in the source. -/
def Entry.instructionFragment (e : Entry) : Fragment :=
  ⟨e.start + e.statement.body.start, e.statement.body.chars⟩

/-- An edit is **of the instruction** of a statement if other text is put in its place: text that is
not blank, and that begins neither a line, nor a comment, nor what follows a label. -/
structure Entry.InstructionEdited (e : Entry) (source source' : String) (text : List Char) :
    Prop where
  replaced : e.instructionFragment.Replaced text source.toList source'.toList
  not_blank : ∃ c ∈ text, Text.isBlank c = false
  plain : ∀ c ∈ text, c ≠ '\n' ∧ c ≠ ';' ∧ c ≠ ':'

/-- Other text in a line with an instruction. -/
theorem InstructionLine.exists_replaced (l : InstructionLine) {text : List Char}
    (hblank : ∃ c ∈ text, Text.isBlank c = false) (hplain : ∀ c ∈ text, c ≠ ';' ∧ c ≠ ':') :
    ∃ l' : InstructionLine, l'.chars = l.lead ++ text ++ l.after ++ l.comment ∧
      l'.label? = l.label? := by
  obtain ⟨before, behind, htext, hbefore, hbehind⟩ := Text.exists_blanks_around_trim text
  have htight := Text.tight_trim text
  have hne : Text.trim text ≠ [] := by
    intro hnil
    obtain ⟨c, hc, hsolid⟩ := hblank
    rw [hnil, List.append_nil] at htext
    have hc' : Text.isBlank c = true := by
      rw [htext, List.mem_append] at hc
      exact hc.elim (hbefore c) (hbehind c)
    rw [hsolid] at hc'
    cases hc'
  generalize Text.trim text = body at htext htight hne
  subst htext
  have hbody : ∀ c ∈ body, c ≠ ';' ∧ c ≠ ':' := fun c hc => hplain c (by simp [hc])
  refine ⟨⟨l.label?, l.gap ++ before, body, behind ++ l.after, l.comment, l.label_plain, ?_, htight,
    hne, fun h => (hbody _ h).1 rfl, fun _ h => (hbody _ h).2 rfl, ?_, l.comment_head⟩, ?_, rfl⟩
  · intro c hc
    exact (List.mem_append.mp hc).elim (l.gap_blank c) (hbefore c)
  · intro c hc
    exact (List.mem_append.mp hc).elim (hbehind c) (l.after_blank c)
  · simp only [InstructionLine.chars, InstructionLine.lead]
    cases l.label? <;> simp

/-- **The edit of an instruction changes one line**, and that line keeps its label and has an
instruction again. -/
theorem Entry.InstructionEdited.exists_lines {source source' : String} {text : List Char}
    {e : Entry} (hedit : e.InstructionEdited source source' text) (he : e ∈ entries source)
    (hinstruction : e.isInstruction = true) :
    ∃ front line line' back s', textLines source = front ++ line :: back ∧
      textLines source' = front ++ line' :: back ∧
      (Place.first.behind front).lay? line = some e ∧ Statement.ofLine? line' = some s' ∧
      s'.label? = e.statement.label? ∧ s'.isInstruction = true := by
  rw [entries_eq_placed] at he
  obtain ⟨front, line, back, hlines, hentry⟩ := exists_piece_of_mem_placed he
  obtain ⟨s, hs, rfl⟩ := Option.map_eq_some_iff.mp hentry
  obtain ⟨l, rfl, rfl⟩ := exists_instructionLine hs hinstruction
  obtain ⟨before, after, hsource, hstart, hsource'⟩ := hedit.replaced
  obtain ⟨l', hchars', hlabel'⟩ := l.exists_replaced hedit.not_blank fun c hc => (hedit.plain c hc).2
  refine ⟨front, l.chars, l'.chars, back, l'.statement, hlines, ?_, hentry, l'.ofLine?_chars, ?_, ?_⟩
  · have hwidth : byteWidth before = byteWidth (terminated front ++ l.lead) := by
      rw [← hstart, byteWidth_append]
      simp [instructionFragment, Place.start_behind, Place.first, InstructionLine.statement]
    have hlines' : textLines source =
        front ++ (l.lead ++ l.body ++ (l.after ++ l.comment)) :: back := by
      rw [hlines, InstructionLine.chars, List.append_assoc _ l.after]
    have htext : '\n' ∉ text := fun h => (hedit.plain _ h).1 rfl
    have hreplaced :=
      textLines_of_replaced (f := l.statement.body) hlines' hwidth hsource hsource' htext
    rw [hreplaced, hchars', List.append_assoc _ l.after]
  · simp [InstructionLine.statement, hlabel']
  · simpa [Statement.isInstruction, Fragment.isEmpty, InstructionLine.statement]
      using l'.body_ne_nil

/-! ## 3. What hangs on the instruction -/

/-- What is wrong with a source. -/
def errorsOf (source : String) : List Diagnostic :=
  match assemble source with
  | .ok _ => []
  | .error ds => ds

theorem errorsOf_eq (source : String) : errorsOf source = inLineOrder (found source) := by
  unfold errorsOf assemble
  cases found source with
  | nil => exact List.mergeSort_nil.symm
  | cons d rest => rfl

/-- Which line is complained of, and what for. -/
def Diagnostic.complaint (d : Diagnostic) : Nat × Problem := (d.line, d.problem)

/-- Whether a complaint is about anything but the instruction on a line. -/
def besideInstruction (line : Nat) (complaint : Nat × Problem) : Bool :=
  !(complaint.1 == line && complaint.2.concern == .instruction)

/-- Two statements in the same place, **alike but for their instructions**. -/
structure Entry.Alike (e e' : Entry) : Prop where
  line : e'.line = e.line
  address : e'.address = e.address
  label : e'.statement.label? = e.statement.label?
  isInstruction : e'.isInstruction = e.isInstruction

namespace Entry.Alike

variable {e e' : Entry} (h : e.Alike e')

include h

theorem defineLabel (table : SymbolTable) : e'.defineLabel table = e.defineLabel table := by
  rw [Entry.defineLabel, Entry.defineLabel, h.label, h.address]

theorem extend (table : SymbolTable) : e'.extend table = e.extend table := by
  rw [Entry.extend, Entry.extend, h.defineLabel]

theorem labelFindings (before : SymbolTable) :
    e'.labelFindings before = e.labelFindings before := by
  rw [Entry.labelFindings, Entry.labelFindings, h.defineLabel]

end Entry.Alike

theorem map_complaint_move (bytes : Nat) (ds : List Diagnostic) :
    (ds.map (Diagnostic.move 0 bytes)).map Diagnostic.complaint =
      ds.map Diagnostic.complaint := by
  rw [List.map_map]
  rfl

/-- **The first pass** complains of the same labels, for the same reasons. -/
theorem complaints_labelDiagnostics {e e' : Entry} (h : e.Alike e') (front back : List Entry)
    (bytes bytes' : Nat) :
    (labelDiagnostics .empty (front ++ e' :: back.map (Entry.move 0 bytes'))).map
        Diagnostic.complaint =
      (labelDiagnostics .empty (front ++ e :: back.map (Entry.move 0 bytes))).map
        Diagnostic.complaint := by
  have hmiddle (findings : List Finding) :
      (findings.map e'.diagnostic).map Diagnostic.complaint =
        (findings.map e.diagnostic).map Diagnostic.complaint := by
    rw [List.map_map, List.map_map]
    exact List.map_congr_left fun finding _ => congrArg (·, finding.problem) h.line
  rw [labelDiagnostics_append, labelDiagnostics_append, labelDiagnostics, labelDiagnostics,
    h.extend, h.labelFindings, (carries_move 0 bytes).labelDiagnostics,
    (carries_move 0 bytes').labelDiagnostics]
  simp only [List.map_append, map_complaint_move, hmiddle]

/-- That there are too many instructions is said of a line, whatever is on it. -/
theorem complaints_sizeDiagnostics (es : List Entry) :
    (sizeDiagnostics es).map Diagnostic.complaint =
      ((es.map Entry.line)[memorySize]?.map fun line =>
        (line, .programTooLarge es.length)).toList := by
  rw [sizeDiagnostics, List.getElem?_map]
  cases es[memorySize]? <;> rfl

/-- What is wrong with the instruction of a line is a complaint of this line and about it. -/
theorem Entry.complaints_beside_instruction (e : Entry) (symbols : SymbolTable) :
    (((e.instructionFindings symbols).map e.diagnostic).map Diagnostic.complaint).filter
      (besideInstruction e.line) = [] := by
  rw [List.map_map, List.filter_eq_nil_iff]
  intro complaint hmem
  obtain ⟨finding, hfinding, rfl⟩ := List.mem_map.mp hmem
  have hconcern : finding.problem.concern = .instruction :=
    (blames_of_mem_complaints (fun finding h => blames_of_readInstruction h) finding
      hfinding).concern
  simp [besideInstruction, Diagnostic.complaint, Entry.diagnostic, hconcern]

/-- **The second pass** complains of the other instructions as before. -/
theorem complaints_instructionDiagnostics {e e' : Entry} (h : e.Alike e') (symbols : SymbolTable)
    (front back : List Entry) (bytes bytes' : Nat) :
    ((instructionDiagnostics symbols (front ++ e' :: back.map (Entry.move 0 bytes'))).map
        Diagnostic.complaint).filter (besideInstruction e.line) =
      ((instructionDiagnostics symbols (front ++ e :: back.map (Entry.move 0 bytes))).map
        Diagnostic.complaint).filter (besideInstruction e.line) := by
  have hmiddle := e.complaints_beside_instruction symbols
  have hmiddle' := e'.complaints_beside_instruction symbols
  rw [h.line] at hmiddle'
  have hback (bytes : Nat) :
      (instructionDiagnostics symbols (back.map (Entry.move 0 bytes))).map Diagnostic.complaint =
        (instructionDiagnostics symbols back).map Diagnostic.complaint := by
    rw [(carries_move 0 bytes).instructionDiagnostics, map_complaint_move]
  have haround (e : Entry) (bytes : Nat) :
      instructionDiagnostics symbols (front ++ e :: back.map (Entry.move 0 bytes)) =
        instructionDiagnostics symbols front ++
          ((e.instructionFindings symbols).map e.diagnostic ++
            instructionDiagnostics symbols (back.map (Entry.move 0 bytes))) := by
    rw [instructionDiagnostics, List.flatMap_append, List.flatMap_cons]
    rfl
  simp only [haround, List.map_append, List.filter_append, hback, hmiddle, hmiddle']

/-- The symbols are the same. -/
theorem symbolsOf_of_alike {e e' : Entry} (h : e.Alike e') (front back : List Entry)
    (bytes bytes' : Nat) :
    symbolsOf (front ++ e' :: back.map (Entry.move 0 bytes')) =
      symbolsOf (front ++ e :: back.map (Entry.move 0 bytes)) := by
  rw [symbolsOf_append, symbolsOf_append, List.foldl_cons, List.foldl_cons, h.extend,
    foldl_extend_move, foldl_extend_move]

/-! ## 4. Slots -/

/-- An instruction has the address of its rank. -/
theorem address_of_instructionEntries {source : String} {front back : List Entry} {e : Entry}
    (h : instructionEntries source = front ++ e :: back) : e.address = front.length := by
  have haddresses : (instructionEntries source).map Entry.address =
      List.range' 0 (instructionEntries source).length := addresses_layout 0 _
  have hrank := congrArg (·[front.length]?) haddresses
  rw [h] at hrank
  simpa using hrank

theorem instructionEntries_around {source : String} {front back : List Entry} {e : Entry}
    {bytes : Nat} (h : entries source = front ++ e :: back.map (Entry.move 0 bytes))
    (hinstruction : e.isInstruction = true) :
    instructionEntries source = front.filter Entry.isInstruction ++
      e :: (back.filter Entry.isInstruction).map (Entry.move 0 bytes) := by
  rw [instructionEntries, h, List.filter_append, List.filter_cons_of_pos hinstruction,
    List.filter_map]
  rfl

/-- **A statement for another one**, with everything behind it in another place: what is found is
the same, except for the instruction. -/
theorem complaints_found {source source' : String} {e e' : Entry} {front back : List Entry}
    {bytes bytes' : Nat} (hentries : entries source = front ++ e :: back.map (Entry.move 0 bytes))
    (hentries' : entries source' = front ++ e' :: back.map (Entry.move 0 bytes'))
    (halike : e.Alike e') (hinstruction : e.isInstruction = true) :
    ((found source').map Diagnostic.complaint).filter (besideInstruction e.line) =
      ((found source).map Diagnostic.complaint).filter (besideInstruction e.line) := by
  have hfront := instructionEntries_around hentries hinstruction
  have hfront' := instructionEntries_around hentries' (halike.isInstruction.trans hinstruction)
  have hsymbols : symbolsOf (entries source') = symbolsOf (entries source) := by
    rw [hentries, hentries', symbolsOf_of_alike halike]
  have hlabels := complaints_labelDiagnostics halike front back bytes bytes'
  have hsize : (sizeDiagnostics (instructionEntries source')).map Diagnostic.complaint =
      (sizeDiagnostics (instructionEntries source)).map Diagnostic.complaint := by
    rw [complaints_sizeDiagnostics, complaints_sizeDiagnostics, hfront, hfront']
    simp [halike.line, Entry.move, Function.comp_def]
  have hinstructions := complaints_instructionDiagnostics halike (symbolsOf (entries source))
    (front.filter Entry.isInstruction) (back.filter Entry.isInstruction) bytes bytes'
  rw [← hentries, ← hentries'] at hlabels
  rw [← hfront, ← hfront'] at hinstructions
  simp only [found, hsymbols, List.map_append, List.filter_append, hlabels, hsize, hinstructions]

/-- **So is what is answered**: the sort goes by the lines of the complaints. -/
theorem complaints_errorsOf {source source' : String} {line : Nat}
    (h : ((found source').map Diagnostic.complaint).filter (besideInstruction line) =
      ((found source).map Diagnostic.complaint).filter (besideInstruction line)) :
    ((errorsOf source').map Diagnostic.complaint).filter (besideInstruction line) =
      ((errorsOf source).map Diagnostic.complaint).filter (besideInstruction line) := by
  have hsorted (source : String) : (errorsOf source).map Diagnostic.complaint =
      sortBy Prod.fst ((found source).map Diagnostic.complaint) := by
    have hline (d d' : Diagnostic) : d.line ≤ d'.line ↔ d.complaint.1 ≤ d'.complaint.1 := Iff.rfl
    rw [errorsOf_eq, inLineOrder_eq_sortBy, map_sortBy Diagnostic.complaint hline]
  rw [hsorted, hsorted, filter_sortBy, filter_sortBy, h]

/-- **A program is changed in one slot** if only one of its instructions is read from another
statement. -/
theorem program_of_alike {source source' : String} {p p' : Program} (h : assemble source = .ok p)
    (h' : assemble source' = .ok p') {e e' : Entry} {front back : List Entry} {bytes bytes' : Nat}
    (hentries : entries source = front ++ e :: back.map (Entry.move 0 bytes))
    (hentries' : entries source' = front ++ e' :: back.map (Entry.move 0 bytes'))
    (halike : e.Alike e') (hinstruction : e.isInstruction = true) :
    ∃ slot, p' = ⟨p.slots.set e.address slot, p.symbols⟩ := by
  obtain ⟨-, -, is, his, rfl⟩ := assemble_eq_ok_iff.mp h
  obtain ⟨-, -, is', his', rfl⟩ := assemble_eq_ok_iff.mp h'
  have hsymbols : symbolsOf (entries source') = symbolsOf (entries source) := by
    rw [hentries, hentries', symbolsOf_of_alike halike]
  have hfront := instructionEntries_around hentries hinstruction
  have hfront' := instructionEntries_around hentries' (halike.isInstruction.trans hinstruction)
  have haddress := address_of_instructionEntries hfront
  have hmoved : ∀ bytes, Entry.instruction (symbolsOf (entries source)) ∘ Entry.move 0 bytes =
      Entry.instruction (symbolsOf (entries source)) := fun _ => rfl
  rw [hfront, List.map_append, List.map_cons, List.map_map, hmoved] at his
  rw [hfront', hsymbols, List.map_append, List.map_cons, List.map_map, hmoved] at his'
  obtain ⟨before, rest, rfl, hbefore, hrest⟩ := List.map_eq_append_iff.mp his.symm
  obtain ⟨i, after, rfl, -, hafter⟩ := List.map_eq_cons_iff.mp hrest
  obtain ⟨before', rest', rfl, hbefore', hrest'⟩ := List.map_eq_append_iff.mp his'.symm
  obtain ⟨i', after', rfl, -, hafter'⟩ := List.map_eq_cons_iff.mp hrest'
  obtain rfl := (List.map_inj_right fun _ _ => Except.ok.inj).mp (hbefore.trans hbefore'.symm)
  obtain rfl := (List.map_inj_right fun _ _ => Except.ok.inj).mp (hafter.trans hafter'.symm)
  have hlength : before.length = e.address := by
    have hcount := congrArg List.length hbefore
    rw [List.length_map, List.length_map] at hcount
    rw [hcount, haddress]
  refine ⟨.ofInstruction i', ?_⟩
  rw [hsymbols, ← hlength]
  simp

/-! ## 5. All of it -/

/-- The edit leaves all statements as they were, except for the one, which is like the other, and
moves those behind it. -/
theorem Entry.InstructionEdited.exists_entries {source source' : String} {text : List Char}
    {e : Entry} (hedit : e.InstructionEdited source source' text) (he : e ∈ entries source)
    (hinstruction : e.isInstruction = true) :
    ∃ (front back : List Entry) (bytes bytes' : Nat) (e' : Entry),
      entries source = front ++ e :: back.map (Entry.move 0 bytes) ∧
      entries source' = front ++ e' :: back.map (Entry.move 0 bytes') ∧ e.Alike e' := by
  obtain ⟨front, line, line', back, s', hlines, hlines', hentry, hs', hlabel, hinstruction'⟩ :=
    hedit.exists_lines he hinstruction
  obtain ⟨s, hs, rfl⟩ := Option.map_eq_some_iff.mp hentry
  -- Behind either line, the same statements follow at the same addresses.
  have haround : ∀ {source : String} {line : List Char} {s : Statement},
      textLines source = front ++ line :: back → Statement.ofLine? line = some s →
      s.isInstruction = true → ∃ bytes, entries source = placed .first front ++
        ⟨(Place.first.behind front).line, (Place.first.behind front).start, s,
          (Place.first.behind front).address⟩ ::
        (placed ⟨(Place.first.behind front).address + 1, (Place.first.behind front).line + 1, 0⟩
          back).map (Entry.move 0 bytes) := by
    intro source line s h hs hinstruction
    have hsize : sizeOfLine line = 1 := by
      rw [sizeOfLine, hs, Option.map_some, Option.getD_some, Statement.size, if_pos hinstruction]
    refine ⟨(Place.first.behind front).start + byteWidth line + 1, ?_⟩
    rw [entries_eq_placed, h, placed_append, placed, ← placed_move, Place.lay?, hs, Place.next,
      hsize]
    rfl
  obtain ⟨bytes, hentries⟩ := haround hlines hs hinstruction
  obtain ⟨bytes', hentries'⟩ := haround hlines' hs' hinstruction'
  exact ⟨_, _, bytes, bytes', _, hentries, hentries', rfl, rfl, hlabel,
    hinstruction'.trans hinstruction.symm⟩

/-- **Errors stay on their line.**  Whatever is written in the place of an instruction, in any source,
all that is wrong with the other lines is reported as before, in the same order, for the same line
and with the same message, and so is what is wrong with the label of that line and with the size of
the program.  The labels stand for what they stood for, whether or not anything is wrong, and every
statement keeps its line and its address.  If both sources are assembled, the programs differ in the
slot of the instruction at most. -/
theorem errors_stay_on_line {source source' text : String} {e : Entry} (he : e ∈ entries source)
    (hinstruction : e.isInstruction = true)
    (hedit : e.InstructionEdited source source' text.toList) :
    ((errorsOf source').map Diagnostic.complaint).filter (besideInstruction e.line) =
        ((errorsOf source).map Diagnostic.complaint).filter (besideInstruction e.line) ∧
      symbolsOf (entries source') = symbolsOf (entries source) ∧
      (entries source').map (fun e => (e.line, e.address)) =
        (entries source).map (fun e => (e.line, e.address)) ∧
      ∀ p p', assemble source = .ok p → assemble source' = .ok p' →
        ∃ slot, p' = ⟨p.slots.set e.address slot, p.symbols⟩ := by
  obtain ⟨front, back, bytes, bytes', e', hentries, hentries', halike⟩ :=
    hedit.exists_entries he hinstruction
  have hsymbols : symbolsOf (entries source') = symbolsOf (entries source) := by
    rw [hentries, hentries', symbolsOf_of_alike halike]
  refine ⟨?_, hsymbols, ?_, fun p p' h h' => ?_⟩
  · exact complaints_errorsOf (complaints_found hentries hentries' halike hinstruction)
  · rw [hentries, hentries']
    simp [halike.line, halike.address, Entry.move, Function.comp_def]
  · exact program_of_alike h h' hentries hentries' halike hinstruction

/-- A mnemonic is misspelt in the first line.  That the second one defines the same label again is
reported as before, and the label has the address that it had. -/
theorem errors_stay_on_line_misspelt :
    ((errorsOf "x: HALT\nx: LDR x").map Diagnostic.complaint).filter (besideInstruction 1) =
        [(2, .duplicateLabel "x" 0)] ∧
      (symbolsOf (entries "x: HALT\nx: LDR x")).get? "x" = some 0 := by
  have hedit : Entry.InstructionEdited ⟨1, 0, ⟨some ⟨0, ['x']⟩, ⟨3, "HLT".toList⟩⟩, 0⟩
      "x: HLT\nx: LDR x" "x: HALT\nx: LDR x" "HALT".toList :=
    ⟨⟨"x: ".toList, "\nx: LDR x".toList, by decide, by decide, by decide⟩, ⟨'H', by decide, by decide⟩,
      by simp⟩
  obtain ⟨herrors, hsymbols, -⟩ := errors_stay_on_line (by decide +kernel) (by decide) hedit
  rw [herrors, hsymbols]
  decide +kernel

end PredicatedCpu

/-
# Cutting texts

What trimming and cutting do to a text whose characters are known.  A text that begins and
ends with something that is no blank is left alone by trimming; a text is cut where the first
separator stands; and what was put between separators comes out between them.  What trimming
leaves of any text is told by its blanks: `Tight.trim_of_blanks_around` says which text it is.
-/
import Mathlib.Data.List.TakeWhile
import PredicatedCpu.Text.Fragment

namespace PredicatedCpu

/-! ## 1. Trimming -/

namespace Text

theorem trimStart_cons {c : Char} {cs : List Char} (h : isBlank c = false) :
    trimStart (c :: cs) = c :: cs := by
  rw [trimStart, List.dropWhile_cons_of_neg (by rw [h]; decide)]

theorem trimEnd_append {c : Char} {cs : List Char} (h : isBlank c = false) :
    trimEnd (cs ++ [c]) = cs ++ [c] := by
  rw [trimEnd, List.reverse_append, List.reverse_singleton, List.singleton_append,
    List.dropWhile_cons_of_neg (by rw [h]; decide)]
  simp

/-- A blank at the end is lost. -/
theorem trimEnd_append_blank {c : Char} (cs : List Char) (h : isBlank c = true) :
    trimEnd (cs ++ [c]) = trimEnd cs := by
  rw [trimEnd, List.reverse_append, List.reverse_singleton, List.singleton_append,
    List.dropWhile_cons_of_pos h, trimEnd]

/-- Whether a text has no blank at either end. -/
structure Tight (cs : List Char) : Prop where
  first : ∀ c ∈ cs.head?, isBlank c = false
  last : ∀ c ∈ cs.getLast?, isBlank c = false

/-- A text without any blank is tight. -/
theorem Tight.of_solid {cs : List Char} (h : ∀ c ∈ cs, isBlank c = false) : Tight cs :=
  ⟨fun c hc => h c (List.mem_of_mem_head? hc), fun c hc => h c (List.mem_of_getLast? hc)⟩

/-- What stands between two tight texts does not matter. -/
theorem Tight.append {front back : List Char} (hfront : Tight front) (hback : Tight back)
    (hne : front ≠ []) (hne' : back ≠ []) (gap : List Char) : Tight (front ++ gap ++ back) := by
  constructor
  · cases front with
    | nil => exact absurd rfl hne
    | cons d rest => exact fun c hc => hfront.first c (by simpa using hc)
  · rcases List.eq_nil_or_concat back with rfl | ⟨rest, d, rfl⟩
    · exact absurd rfl hne'
    · exact fun c hc => hback.last c (by simpa using hc)

theorem intercalate_ne_nil {separator : List Char} {pieces : List (List Char)} (hne : pieces ≠ [])
    (h : ∀ piece ∈ pieces, piece ≠ []) : separator.intercalate pieces ≠ [] := by
  rcases pieces with _ | ⟨piece, _ | ⟨next, rest⟩⟩
  · exact absurd rfl hne
  · rw [List.intercalate_singleton]
    exact h piece List.mem_cons_self
  · have hpiece : piece ≠ [] := h piece List.mem_cons_self
    simp [List.intercalate_cons_cons, hpiece]

/-- Tight pieces make a tight text, whatever stands between them. -/
theorem Tight.intercalate (separator : List Char) {pieces : List (List Char)}
    (htight : ∀ piece ∈ pieces, Tight piece) (hne : ∀ piece ∈ pieces, piece ≠ []) :
    Tight (separator.intercalate pieces) := by
  induction pieces with
  | nil => exact .of_solid (by simp)
  | cons piece rest ih =>
    rw [List.forall_mem_cons] at htight hne
    cases rest with
    | nil =>
      rw [List.intercalate_singleton]
      exact htight.1
    | cons next rest =>
      rw [List.intercalate_cons_cons]
      exact htight.1.append (ih htight.2 hne.2) hne.1
        (intercalate_ne_nil (List.cons_ne_nil _ _) hne.2) separator

theorem Tight.trimEnd {cs : List Char} (h : Tight cs) : Text.trimEnd cs = cs := by
  rcases List.eq_nil_or_concat cs with rfl | ⟨front, last, rfl⟩
  · rfl
  · rw [List.concat_eq_append] at h ⊢
    exact trimEnd_append (h.last last (by simp))

/-- A tight text is left alone by trimming. -/
theorem Tight.trim {cs : List Char} (h : Tight cs) : Text.trim cs = cs := by
  rw [Text.trim, h.trimEnd]
  cases cs with
  | nil => rfl
  | cons c rest => exact trimStart_cons (h.first c (by simp))

/-- A blank in front of a tight text is all that is lost. -/
theorem Tight.trim_cons_blank {c : Char} {cs : List Char} (h : Tight cs) (hne : cs ≠ [])
    (hblank : isBlank c = true) : Text.trim (c :: cs) = cs := by
  have hend : Text.trimEnd (c :: cs) = c :: cs := by
    rcases List.eq_nil_or_concat cs with rfl | ⟨front, last, rfl⟩
    · exact absurd rfl hne
    · rw [List.concat_eq_append] at h ⊢
      rw [← List.cons_append]
      exact trimEnd_append (h.last last (by simp))
  rw [Text.trim, hend, trimStart, List.dropWhile_cons_of_pos hblank, ← trimStart]
  cases cs with
  | nil => rfl
  | cons d rest => exact trimStart_cons (h.first d (by simp))

theorem not_blank_of_head?_dropWhile {cs : List Char} :
    ∀ c ∈ (cs.dropWhile isBlank).head?, isBlank c = false := by
  intro c hc
  have hfirst := List.head?_dropWhile_not isBlank cs
  rw [Option.mem_def] at hc
  rw [hc] at hfirst
  simpa using hfirst

/-- A text is what trimming at the end leaves of it, with blanks behind. -/
theorem exists_blanks_behind_trimEnd (cs : List Char) :
    ∃ back, cs = trimEnd cs ++ back ∧ ∀ c ∈ back, isBlank c = true := by
  refine ⟨(cs.reverse.takeWhile isBlank).reverse, ?_, ?_⟩
  · rw [trimEnd, ← List.reverse_append, List.takeWhile_append_dropWhile, List.reverse_reverse]
  · exact fun c hc => List.mem_takeWhile_imp (List.mem_reverse.mp hc)

/-- A text is what trimming leaves of it, with blanks around. -/
theorem exists_blanks_around_trim (cs : List Char) :
    ∃ front back, cs = front ++ trim cs ++ back ∧ (∀ c ∈ front, isBlank c = true) ∧
      ∀ c ∈ back, isBlank c = true := by
  obtain ⟨back, hcs, hback⟩ := exists_blanks_behind_trimEnd cs
  refine ⟨(trimEnd cs).takeWhile isBlank, back, ?_, fun c hc => List.mem_takeWhile_imp hc, hback⟩
  rw [trim, trimStart, List.takeWhile_append_dropWhile, ← hcs]

theorem mem_of_mem_trimEnd {cs : List Char} {c : Char} (h : c ∈ trimEnd cs) : c ∈ cs := by
  obtain ⟨back, hcs, -⟩ := exists_blanks_behind_trimEnd cs
  rw [hcs]
  exact List.mem_append_left back h

theorem mem_of_mem_trim {cs : List Char} {c : Char} (h : c ∈ trim cs) : c ∈ cs :=
  mem_of_mem_trimEnd ((List.dropWhile_suffix isBlank).subset h)

/-- What trimming leaves has no blank at either end. -/
theorem tight_trim (cs : List Char) : Tight (trim cs) := by
  refine ⟨not_blank_of_head?_dropWhile, fun c hc => ?_⟩
  obtain ⟨front, hfront⟩ : trim cs <:+ trimEnd cs := List.dropWhile_suffix isBlank
  have hlast : c ∈ (trimEnd cs).getLast? := by
    rw [← hfront]
    rw [List.getLast?_append, Option.mem_def.mp hc]
    rfl
  rw [trimEnd, List.getLast?_reverse] at hlast
  exact not_blank_of_head?_dropWhile c hlast

/-- Blanks at the end are lost. -/
theorem trimEnd_append_blanks (cs : List Char) {back : List Char}
    (hback : ∀ c ∈ back, isBlank c = true) : trimEnd (cs ++ back) = trimEnd cs := by
  have hreverse : ∀ c ∈ back.reverse, isBlank c = true :=
    fun c hc => hback c (List.mem_reverse.mp hc)
  rw [trimEnd, List.reverse_append, List.dropWhile_append_of_pos hreverse, trimEnd]

/-- **A tight text is what trimming leaves** of it when it has blanks around. -/
theorem Tight.trim_of_blanks_around {front cs back : List Char} (h : Tight cs)
    (hfront : ∀ c ∈ front, isBlank c = true) (hback : ∀ c ∈ back, isBlank c = true) :
    Text.trim (front ++ cs ++ back) = cs := by
  rw [Text.trim, trimEnd_append_blanks _ hback]
  rcases List.eq_nil_or_concat cs with rfl | ⟨init, last, rfl⟩
  · rw [← List.nil_append front, List.append_nil, trimEnd_append_blanks _ hfront]
    rfl
  · rw [List.concat_eq_append] at h ⊢
    rw [← List.append_assoc, trimEnd_append (h.last last (by simp)), List.append_assoc, trimStart,
      List.dropWhile_append_of_pos hfront]
    cases init with
    | nil => exact trimStart_cons (h.first last rfl)
    | cons c rest => exact trimStart_cons (h.first c rfl)

/-- Blanks in front are lost as well. -/
theorem trim_append_left (cs : List Char) {front : List Char}
    (hfront : ∀ c ∈ front, isBlank c = true) : trim (front ++ cs) = trim cs := by
  obtain ⟨front', back, hcs, hfront', hback⟩ := exists_blanks_around_trim cs
  have hall : ∀ c ∈ front ++ front', isBlank c = true := by
    simpa [or_imp, forall_and] using ⟨hfront, hfront'⟩
  have := (tight_trim cs).trim_of_blanks_around hall hback
  rwa [List.append_assoc, List.append_assoc, ← List.append_assoc front', ← hcs] at this

theorem trim_append_right (cs : List Char) {back : List Char}
    (hback : ∀ c ∈ back, isBlank c = true) : trim (cs ++ back) = trim cs := by
  rw [trim, trimEnd_append_blanks cs hback, trim]

/-- What is in a text with separators is in a separator or in a piece. -/
theorem mem_of_mem_intercalate {c : Char} {separator : List Char} {pieces : List (List Char)}
    (h : c ∈ separator.intercalate pieces) : c ∈ separator ∨ ∃ piece ∈ pieces, c ∈ piece := by
  induction pieces with
  | nil => cases h
  | cons piece rest ih =>
    cases rest with
    | nil => exact .inr ⟨piece, List.mem_cons_self, by rwa [List.intercalate_singleton] at h⟩
    | cons next rest =>
      rw [List.intercalate_cons_cons, List.mem_append, List.mem_append] at h
      rcases h with (hpiece | hseparator) | hrest
      · exact .inr ⟨piece, List.mem_cons_self, hpiece⟩
      · exact .inl hseparator
      · exact (ih hrest).imp_right fun ⟨q, hq, hc⟩ => ⟨q, List.mem_cons_of_mem _ hq, hc⟩

/-- No piece between separators has one in it. -/
theorem not_mem_of_mem_splitOn {c : Char} {cs piece : List Char} (h : piece ∈ cs.splitOn c) :
    c ∉ piece := by
  induction cs generalizing piece with
  | nil => simp_all
  | cons d rest ih =>
    rw [List.splitOn_cons_eq_if_modifyHead] at h
    split at h
    · rcases List.mem_cons.mp h with rfl | h
      · exact List.not_mem_nil
      · exact ih h
    · rename_i hne
      obtain ⟨first, others, hsplit⟩ := List.exists_cons_of_ne_nil (List.splitOn_ne_nil c rest)
      rw [hsplit, List.modifyHead_cons] at h
      rw [hsplit] at ih
      rcases List.mem_cons.mp h with rfl | h
      · have hdc : ¬ c = d := fun heq => hne (by simp [heq])
        simp [hdc, ih List.mem_cons_self]
      · exact ih (List.mem_cons_of_mem _ h)

/-- Nothing is in a piece that is not in the text.  The induction is on the text. -/
theorem mem_of_mem_splitOnP {separates : Char → Bool} {cs piece : List Char}
    (h : piece ∈ cs.splitOnP separates) {c : Char} (hc : c ∈ piece) : c ∈ cs := by
  induction cs generalizing piece with
  | nil =>
    rw [List.splitOnP_nil, List.mem_singleton] at h
    exact h ▸ hc
  | cons d rest ih =>
    rw [List.splitOnP_cons_eq_if_modifyHead] at h
    split at h
    · rcases List.mem_cons.mp h with rfl | h
      · cases hc
      · exact List.mem_cons_of_mem d (ih h hc)
    · obtain ⟨first, others, hsplit⟩ :=
        List.exists_cons_of_ne_nil (List.splitOnP_ne_nil separates rest)
      rw [hsplit, List.modifyHead_cons] at h
      rw [hsplit] at ih
      rcases List.mem_cons.mp h with rfl | h
      · exact List.mem_cons.mpr ((List.mem_cons.mp hc).imp_right (ih List.mem_cons_self))
      · exact List.mem_cons_of_mem d (ih (List.mem_cons_of_mem first h) hc)

end Text

/-! ## 2. Cutting at one place -/

namespace Fragment

theorem toList_text (f : Fragment) : f.text.toList = f.chars := by
  rw [text, String.toList_ofList]

/-- A fragment with nothing to trim stays where it is. -/
theorem trim_eq_self {f : Fragment} (h : Text.Tight f.chars) : f.trim = f := by
  rcases f with ⟨start, _ | ⟨c, rest⟩⟩
  · rfl
  · have hc : Text.isBlank c = false := h.first c rfl
    rw [trim, trimEnd, h.trimEnd, trimStart, dropWhile,
      List.takeWhile_cons_of_neg (by rw [hc]; decide),
      List.dropWhile_cons_of_neg (by rw [hc]; decide)]
    rfl

/-- A blank at the end of a fragment has no part in what is left after trimming. -/
theorem trim_append_blank (start : Nat) {c : Char} (cs : List Char)
    (h : Text.isBlank c = true) : (Fragment.mk start (cs ++ [c])).trim = (Fragment.mk start cs).trim := by
  rw [trim, trim, trimEnd, trimEnd, Text.trimEnd_append_blank cs h]

/-- One blank in front of what is none is skipped. -/
theorem exists_trimStart_cons (start : Nat) {c : Char} {cs : List Char}
    (hblank : Text.isBlank c = true) (hfirst : ∀ d ∈ cs.head?, Text.isBlank d = false) :
    ∃ start', trimStart ⟨start, c :: cs⟩ = ⟨start', cs⟩ := by
  refine ⟨_, congrArg (Fragment.mk _) ?_⟩
  rw [List.dropWhile_cons_of_pos hblank]
  cases cs with
  | nil => rfl
  | cons d rest => exact Text.trimStart_cons (hfirst d rfl)

theorem splitFirst?_eq_none {p : Char → Bool} {f : Fragment} (h : ∀ c ∈ f.chars, p c = false) :
    f.splitFirst? p = none := by
  have hdrop : (f.chars.dropWhile fun c => !p c) = [] :=
    List.dropWhile_eq_nil_iff.mpr fun c hmem => by simp [h c hmem]
  rw [splitFirst?, hdrop]

/-- A text is cut at the first character of the kind. -/
theorem splitFirst?_append {p : Char → Bool} {start : Nat} {before after : List Char} {c : Char}
    (hbefore : ∀ c ∈ before, p c = false) (hc : p c = true) :
    (Fragment.mk start (before ++ c :: after)).splitFirst? p =
      some (⟨start, before⟩, ⟨start + Text.byteWidth before + c.utf8Size, after⟩) := by
  have hnot : ∀ c ∈ before, (!p c) = true := fun c hmem => by simp [hbefore c hmem]
  have hdrop : ((before ++ c :: after).dropWhile fun c => !p c) = c :: after := by
    rw [List.dropWhile_append_of_pos hnot, List.dropWhile_cons_of_neg (by simp [hc])]
  have htake : ((before ++ c :: after).takeWhile fun c => !p c) = before := by
    rw [List.takeWhile_append_of_pos hnot, List.takeWhile_cons_of_neg (by simp [hc]),
      List.append_nil]
  simp only [splitFirst?, hdrop, takeWhile, htake, stop]

/-- Without the character in it, a text is taken as a whole. -/
theorem takeWhile_eq_self {p : Char → Bool} {f : Fragment} (h : ∀ c ∈ f.chars, p c = true) :
    f.takeWhile p = f := by
  rw [takeWhile, List.takeWhile_eq_self_iff.mpr h]

end Fragment
end PredicatedCpu

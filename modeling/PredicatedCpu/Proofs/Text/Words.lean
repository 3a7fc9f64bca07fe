/-
# Words

A text is read as words by whoever does not care how it is spaced out.  What stands between two
blanks is read by itself, and blanks at either end are not read at all, so that trimming a text
leaves its words as they are.

* `words_append_cons`: a text may be cut at a blank;
* `words_of_solid`: a text without blanks is one word;
* `words_decimal`: a decimal numeral is one word;
* `words_trim`, `words_trimEnd`: trimming makes no difference.
-/
import PredicatedCpu.Proofs.Text.Cutting
import PredicatedCpu.Proofs.Text.Written

namespace PredicatedCpu
namespace Text

/-- A text may be **cut at a blank**: each side has its own words. -/
theorem words_append_cons (front back : List Char) {c : Char} (h : isBlank c = true) :
    words (front ++ c :: back) = words front ++ words back := by
  rw [words, List.splitOnP_append_cons _ _ h, List.filter_append, ← words, ← words]

/-- A text **without blanks** is one word, if anything is in it. -/
theorem words_of_solid {cs : List Char} (hne : cs ≠ []) (h : ∀ c ∈ cs, isBlank c = false) :
    words cs = [cs] := by
  rw [words, List.splitOnP_eq_singleton h, List.filter_cons_of_pos (by simpa using hne),
    List.filter_nil]

/-- No digit is blank. -/
theorem not_blank_of_isDigit {c : Char} (h : c.isDigit = true) : isBlank c = false := by
  simp only [Char.isDigit, Bool.and_eq_true, decide_eq_true_eq] at h
  have hlow : 48 ≤ c.toNat := h.1
  have hhigh : c.toNat ≤ 57 := h.2
  have hranges : ∀ range ∈ blankRanges, range.2 < 48 ∨ 57 < range.1 := by decide
  refine List.any_eq_false.mpr fun range hrange => ?_
  have hoff := hranges range hrange
  simp only [Bool.and_eq_true, decide_eq_true_eq]
  omega

/-- A decimal numeral is **one word**. -/
theorem words_decimal (value : Nat) : words (decimal value).toList = [(decimal value).toList] := by
  refine words_of_solid ?_ fun c hc => not_blank_of_isDigit (isDigit_decimal value c hc)
  rw [toList_decimal]
  exact Nat.toDigits_ne_nil

/-- Blanks in front are not read. -/
theorem words_append_left {front : List Char} (h : ∀ c ∈ front, isBlank c = true)
    (cs : List Char) : words (front ++ cs) = words cs := by
  induction front with
  | nil => rfl
  | cons c rest ih =>
    rw [List.forall_mem_cons] at h
    calc words ((c :: rest) ++ cs)
        = words [] ++ words (rest ++ cs) := words_append_cons [] (rest ++ cs) h.1
      _ = words cs := ih h.2

/-- Nothing is read in blanks. -/
theorem words_of_blank {cs : List Char} (h : ∀ c ∈ cs, isBlank c = true) : words cs = [] := by
  have hwords := words_append_left h []
  rwa [List.append_nil] at hwords

/-- Blanks at the end are not read. -/
theorem words_append_right (cs : List Char) {back : List Char}
    (h : ∀ c ∈ back, isBlank c = true) : words (cs ++ back) = words cs := by
  cases back with
  | nil => rw [List.append_nil]
  | cons c rest =>
    rw [List.forall_mem_cons] at h
    rw [words_append_cons cs rest h.1, words_of_blank h.2, List.append_nil]

/-- **Trimming leaves the words.** -/
theorem words_trim (cs : List Char) : words (trim cs) = words cs := by
  obtain ⟨front, back, hcs, hfront, hback⟩ := exists_blanks_around_trim cs
  calc words (trim cs)
      = words (front ++ trim cs ++ back) := by
        rw [words_append_right _ hback, words_append_left hfront]
    _ = words cs := by rw [← hcs]

/-- So does trimming at the end. -/
theorem words_trimEnd (cs : List Char) : words (trimEnd cs) = words cs := by
  obtain ⟨back, hcs, hback⟩ := exists_blanks_behind_trimEnd cs
  calc words (trimEnd cs)
      = words (trimEnd cs ++ back) := by rw [words_append_right _ hback]
    _ = words cs := by rw [← hcs]

/-- Nothing is in a word that is not in the text. -/
theorem mem_of_mem_words {cs word : List Char} (h : word ∈ words cs) {c : Char} (hc : c ∈ word) :
    c ∈ cs :=
  mem_of_mem_splitOnP (List.mem_filter.mp h).1 hc

end Text
end PredicatedCpu

/-
# Tokens

What the reader of a line looks for in it are blanks and four punctuation marks.  Between them stand
words.  A line may be spaced out in many ways, and all of them have the same **tokens**: the words
and the marks, in order.

Blanks may be put anywhere, except between two characters of a word, where they would make two words
of it.

* `tokens`: the words and marks of a text;
* `Loose`, `tokens_append`, `tokens_insert_blanks`: where a text may be cut, or spaced out;
* `tokens_eq_cons`, `tokens_eq_singleton`: a text is its tokens, with blanks between;
* `tokens_intercalate`, `splitOn_tokens`: cutting a text at a mark is cutting its tokens there.
-/
import PredicatedCpu.Proofs.Text.Cutting

namespace PredicatedCpu
namespace Text

/-! ## 1. Words and marks -/

/-- The punctuation marks of a line. -/
def marks : List Char := [':', ',', '(', ')']

def isMark (c : Char) : Bool := marks.contains c

/-- Whether a character belongs in a word. -/
def isWordChar (c : Char) : Bool := !isBlank c && !isMark c

/-- Whether a text is a **word**. -/
structure IsWord (cs : List Char) : Prop where
  ne_nil : cs ≠ []
  all : ∀ c ∈ cs, isWordChar c = true

theorem not_blank_of_isMark {c : Char} (h : isMark c = true) : isBlank c = false := by
  have hall : ∀ d ∈ marks, (!isBlank d) = true := List.all_eq_true.mp (by decide)
  simpa using hall c (by simpa [isMark] using h)

theorem not_isWordChar_of_isMark {c : Char} (h : isMark c = true) : isWordChar c = false := by
  simp [isWordChar, h]

theorem not_isWordChar_of_isBlank {c : Char} (h : isBlank c = true) : isWordChar c = false := by
  simp [isWordChar, h]

theorem not_blank_of_isWordChar {c : Char} (h : isWordChar c = true) : isBlank c = false := by
  simp_all [isWordChar]

/-- A character is a blank, a mark, or part of a word. -/
theorem char_cases (c : Char) : isBlank c = true ∨ isMark c = true ∨ isWordChar c = true := by
  cases hblank : isBlank c <;> cases hmark : isMark c <;> simp [isWordChar, hblank, hmark]

theorem IsWord.tight {cs : List Char} (h : IsWord cs) : Tight cs :=
  .of_solid fun c hc => not_blank_of_isWordChar (h.all c hc)

theorem IsWord.not_mem {cs : List Char} (h : IsWord cs) {m : Char} (hm : isMark m = true) :
    m ∉ cs := by
  intro hmem
  have hchar := h.all m hmem
  rw [not_isWordChar_of_isMark hm] at hchar
  cases hchar

/-- A word is no mark. -/
theorem IsWord.ne_mark {cs : List Char} (h : IsWord cs) {m : Char} (hm : isMark m = true) :
    cs ≠ [m] := by
  rintro rfl
  exact h.not_mem hm List.mem_cons_self

/-- Whether a text does not go on with a word. -/
def Breaks (cs : List Char) : Prop := ∀ c ∈ cs.head?, isWordChar c = false

/-! ## 2. Tokens -/

/-- A character in front of the word that the first token is. -/
def extendWord (c : Char) : List (List Char) → List (List Char)
  | [] => [[c]]
  | word :: rest => (c :: word) :: rest

/-- The **tokens** of a text: its words, and each of its marks. -/
def tokens : List Char → List (List Char)
  | [] => []
  | c :: rest =>
    if isBlank c then tokens rest
    else if (rest.head?.map isWordChar).getD false && isWordChar c then extendWord c (tokens rest)
    else [c] :: tokens rest

@[simp] theorem tokens_nil : tokens [] = [] := rfl

theorem tokens_cons_blank {c : Char} (h : isBlank c = true) (rest : List Char) :
    tokens (c :: rest) = tokens rest := by
  rw [tokens, if_pos h]

theorem tokens_cons_mark {c : Char} (h : isMark c = true) (rest : List Char) :
    tokens (c :: rest) = [c] :: tokens rest := by
  rw [tokens, not_blank_of_isMark h, not_isWordChar_of_isMark h]
  simp

/-- The last character of a word. -/
theorem tokens_cons_last {c : Char} (h : isWordChar c = true) {rest : List Char}
    (hrest : Breaks rest) : tokens (c :: rest) = [c] :: tokens rest := by
  have hnot : ¬ ((rest.head?.map isWordChar).getD false && isWordChar c) = true := by
    cases rest with
    | nil => simp
    | cons d rest => simp [hrest d rfl]
  rw [tokens, not_blank_of_isWordChar h, if_neg hnot]
  simp

/-- Any other character of a word. -/
theorem tokens_cons_word {c d : Char} (h : isWordChar c = true) (hd : isWordChar d = true)
    (rest : List Char) : tokens (c :: d :: rest) = extendWord c (tokens (d :: rest)) := by
  rw [tokens, not_blank_of_isWordChar h]
  simp [h, hd]

/-- Only a blank text has no tokens. -/
theorem tokens_cons_ne_nil {c : Char} (h : isBlank c = false) (rest : List Char) :
    tokens (c :: rest) ≠ [] := by
  rw [tokens, h, if_neg (by simp)]
  split
  · cases tokens rest <;> simp [extendWord]
  · simp

theorem tokens_blanks {cs : List Char} (h : ∀ c ∈ cs, isBlank c = true) : tokens cs = [] := by
  induction cs with
  | nil => rfl
  | cons c rest ih =>
    rw [List.forall_mem_cons] at h
    rw [tokens_cons_blank h.1, ih h.2]

theorem tokens_word {word : List Char} (h : IsWord word) : tokens word = [word] := by
  obtain ⟨hne, hall⟩ := h
  induction word with
  | nil => exact absurd rfl hne
  | cons c rest ih =>
    rw [List.forall_mem_cons] at hall
    cases rest with
    | nil => exact tokens_cons_last hall.1 (by simp [Breaks])
    | cons d rest =>
      rw [tokens_cons_word hall.1 (hall.2 d List.mem_cons_self), ih (by simp) hall.2]
      rfl

/-! ## 3. Cutting and spacing -/

/-- Whether a text may be cut, or spaced out, between `front` and `back`: the cut is not between two
characters of a word. -/
def Loose (front back : List Char) : Prop :=
  (∀ c ∈ front.getLast?, isWordChar c = false) ∨ Breaks back

theorem Loose.of_blanks_left {gap : List Char} (h : ∀ c ∈ gap, isBlank c = true)
    (back : List Char) : Loose gap back :=
  .inl fun c hc => not_isWordChar_of_isBlank (h c (List.mem_of_getLast? hc))

theorem Loose.of_mark (front : List Char) {m : Char} (h : isMark m = true) (back : List Char) :
    Loose front (m :: back) :=
  .inr fun c hc => by
    obtain rfl : m = c := by simpa using hc
    exact not_isWordChar_of_isMark h

/-- **At a loose place** the tokens are cut as the text is.  The induction is on the front part: only
its last character can be part of a word that would go on behind it. -/
theorem tokens_append {front back : List Char} (h : Loose front back) :
    tokens (front ++ back) = tokens front ++ tokens back := by
  induction front with
  | nil => rfl
  | cons c rest ih =>
    have hrest : Loose rest back := by
      refine h.imp_left fun hlast d hd => hlast d ?_
      cases rest with
      | nil => cases hd
      | cons e rest => simpa using hd
    rw [List.cons_append]
    rcases char_cases c with hblank | hmark | hword
    · rw [tokens_cons_blank hblank, tokens_cons_blank hblank, ih hrest]
    · rw [tokens_cons_mark hmark, tokens_cons_mark hmark, ih hrest, List.cons_append]
    · cases rest with
      | nil =>
        have hback : Breaks back := by
          refine h.resolve_left fun hlast => ?_
          have hc := hlast c rfl
          rw [hword] at hc
          cases hc
        rw [List.nil_append, tokens_cons_last hword hback, tokens_cons_last hword (by simp [Breaks])]
        rfl
      | cons d rest =>
        rcases Bool.eq_false_or_eq_true (isWordChar d) with hd | hd
        · rw [List.cons_append, tokens_cons_word hword hd, tokens_cons_word hword hd,
            ← List.cons_append, ih hrest]
          -- The next word begins in the front part, so it is there to be extended.
          cases hfirst : tokens (d :: rest) with
          | nil => exact absurd hfirst (tokens_cons_ne_nil (not_blank_of_isWordChar hd) rest)
          | cons first others => rfl
        · have hbreaks : ∀ cs, Breaks (d :: cs) := fun cs e he => by
            obtain rfl : d = e := by simpa using he
            exact hd
          rw [List.cons_append, tokens_cons_last hword (hbreaks _),
            tokens_cons_last hword (hbreaks _), ← List.cons_append, ih hrest, List.cons_append]

/-- **Blanks at a loose place** leave the tokens as they are. -/
theorem tokens_insert_blanks {front gap back : List Char} (h : Loose front back)
    (hgap : ∀ c ∈ gap, isBlank c = true) : tokens (front ++ gap ++ back) = tokens (front ++ back) := by
  have hfront : Loose front (gap ++ back) := by
    cases gap with
    | nil => exact h
    | cons c rest =>
      refine .inr fun d hd => ?_
      obtain rfl : c = d := by simpa using hd
      exact not_isWordChar_of_isBlank (hgap c List.mem_cons_self)
  rw [List.append_assoc, tokens_append hfront, tokens_append (.of_blanks_left hgap back),
    tokens_blanks hgap, List.nil_append, tokens_append h]

theorem tokens_trimStart (cs : List Char) : tokens (trimStart cs) = tokens cs := by
  have hgap : ∀ c ∈ cs.takeWhile isBlank, isBlank c = true := fun c hc => List.mem_takeWhile_imp hc
  have hparts : tokens (cs.takeWhile isBlank ++ trimStart cs) = tokens (trimStart cs) := by
    rw [tokens_append (.of_blanks_left hgap _), tokens_blanks hgap, List.nil_append]
  rw [← hparts, trimStart, List.takeWhile_append_dropWhile]

theorem tokens_trim (cs : List Char) : tokens (trim cs) = tokens cs := by
  have hend : trimEnd cs ++ (cs.reverse.takeWhile isBlank).reverse = cs := by
    rw [trimEnd, ← List.reverse_append, List.takeWhile_append_dropWhile, List.reverse_reverse]
  have hgap : ∀ c ∈ (cs.reverse.takeWhile isBlank).reverse, isBlank c = true :=
    fun c hc => List.mem_takeWhile_imp (List.mem_reverse.mp hc)
  have hbreaks : Breaks (cs.reverse.takeWhile isBlank).reverse := fun c hc =>
    not_isWordChar_of_isBlank (hgap c (List.mem_of_mem_head? hc))
  have hparts := tokens_append (.inr hbreaks : Loose (trimEnd cs) _)
  rw [hend, tokens_blanks hgap, List.append_nil] at hparts
  rw [trim, tokens_trimStart, hparts]

/-! ## 4. From the tokens back to the text -/

theorem tokens_eq_nil_iff {cs : List Char} : tokens cs = [] ↔ ∀ c ∈ cs, isBlank c = true := by
  refine ⟨fun h => ?_, tokens_blanks⟩
  induction cs with
  | nil => simp
  | cons c rest ih =>
    cases hblank : isBlank c with
    | false => exact absurd h (tokens_cons_ne_nil hblank rest)
    | true =>
      rw [tokens_cons_blank hblank] at h
      exact List.forall_mem_cons.mpr ⟨hblank, ih h⟩

/-- **The first token** of a text stands in it behind blanks.  It is a word that does not go on, or a
mark. -/
theorem tokens_eq_cons {cs token : List Char} {more : List (List Char)}
    (h : tokens cs = token :: more) :
    ∃ gap rest, cs = gap ++ token ++ rest ∧ (∀ c ∈ gap, isBlank c = true) ∧ tokens rest = more ∧
      (IsWord token ∧ Breaks rest ∨ ∃ m, isMark m = true ∧ token = [m]) := by
  induction cs generalizing token with
  | nil => cases h
  | cons c rest ih =>
    rcases char_cases c with hblank | hmark | hword
    · rw [tokens_cons_blank hblank] at h
      obtain ⟨gap, rest', rfl, hgap, hmore, htoken⟩ := ih h
      exact ⟨c :: gap, rest', rfl, List.forall_mem_cons.mpr ⟨hblank, hgap⟩, hmore, htoken⟩
    · rw [tokens_cons_mark hmark] at h
      obtain ⟨rfl, hmore⟩ := List.cons.inj h
      exact ⟨[], rest, rfl, by simp, hmore, .inr ⟨c, hmark, rfl⟩⟩
    · by_cases hbreaks : Breaks rest
      · rw [tokens_cons_last hword hbreaks] at h
        obtain ⟨rfl, hmore⟩ := List.cons.inj h
        exact ⟨[], rest, rfl, by simp, hmore, .inl ⟨⟨by simp, by simpa using hword⟩, hbreaks⟩⟩
      · obtain ⟨d, rest, rfl⟩ : ∃ d others, rest = d :: others := by
          refine List.exists_cons_of_ne_nil ?_
          rintro rfl
          exact hbreaks (by simp [Breaks])
        have hd : isWordChar d = true := by simpa [Breaks] using hbreaks
        rw [tokens_cons_word hword hd] at h
        cases hfirst : tokens (d :: rest) with
        | nil => exact absurd hfirst (tokens_cons_ne_nil (not_blank_of_isWordChar hd) rest)
        | cons first others =>
          rw [hfirst] at h
          obtain ⟨rfl, rfl⟩ := List.cons.inj h
          obtain ⟨gap, rest', hrest, hgap, hmore, htoken⟩ := ih hfirst
          -- The rest of the word follows at once, so there is no gap.
          obtain rfl : gap = [] := by
            cases gap with
            | nil => rfl
            | cons g gap =>
              obtain ⟨rfl, -⟩ := List.cons.inj hrest
              have hblank := hgap d List.mem_cons_self
              rw [not_blank_of_isWordChar hd] at hblank
              cases hblank
          refine ⟨[], rest', by simpa using hrest, by simp, hmore, .inl ?_⟩
          rcases htoken with ⟨hfirstWord, hbreaks'⟩ | ⟨m, hm, rfl⟩
          · refine ⟨⟨by simp, List.forall_mem_cons.mpr ⟨hword, hfirstWord.all⟩⟩, hbreaks'⟩
          · obtain ⟨rfl, -⟩ := List.cons.inj hrest
            rw [not_isWordChar_of_isMark hm] at hd
            cases hd

/-- In a text that does not begin with a blank, the first token stands at the front. -/
theorem tokens_eq_cons_front {cs token : List Char} {more : List (List Char)}
    (hfirst : ∀ c ∈ cs.head?, isBlank c = false) (h : tokens cs = token :: more) :
    ∃ rest, cs = token ++ rest ∧ tokens rest = more ∧
      (IsWord token ∧ Breaks rest ∨ ∃ m, isMark m = true ∧ token = [m]) := by
  obtain ⟨gap, rest, rfl, hgap, hmore, htoken⟩ := tokens_eq_cons h
  cases gap with
  | nil => exact ⟨rest, rfl, hmore, htoken⟩
  | cons g gap =>
    have hblank := hgap g List.mem_cons_self
    rw [hfirst g rfl] at hblank
    cases hblank

/-- A text with one token is this token, with blanks around. -/
theorem trim_of_tokens {cs token : List Char} (h : tokens cs = [token]) : trim cs = token := by
  obtain ⟨gap, rest, rfl, hgap, hrest, htoken⟩ := tokens_eq_cons h
  have htight : Tight token := by
    rcases htoken with ⟨hword, -⟩ | ⟨m, hm, rfl⟩
    · exact hword.tight
    · exact .of_solid (by simpa using not_blank_of_isMark hm)
  exact htight.trim_of_blanks_around hgap (tokens_eq_nil_iff.mp hrest)

/-! ## 5. Cutting at a mark -/

/-- There is nothing in the tokens that is not in the text. -/
theorem mem_of_mem_tokens {cs token : List Char} (h : token ∈ tokens cs) {c : Char}
    (hc : c ∈ token) : c ∈ cs := by
  induction hn : tokens cs generalizing cs with
  | nil =>
    rw [hn] at h
    cases h
  | cons first others ih =>
    rw [hn] at h
    obtain ⟨gap, rest, rfl, -, hmore, -⟩ := tokens_eq_cons hn
    rcases List.mem_cons.mp h with rfl | h
    · simp [hc]
    · have := ih (hmore ▸ h) hmore
      simp [this]

theorem tokens_append_mark {m : Char} (hm : isMark m = true) (front back : List Char) :
    tokens (front ++ m :: back) = tokens front ++ [m] :: tokens back := by
  rw [tokens_append (.of_mark front hm back), tokens_cons_mark hm]

theorem mark_mem_tokens_iff {m : Char} (hm : isMark m = true) {cs : List Char} :
    [m] ∈ tokens cs ↔ m ∈ cs := by
  refine ⟨fun h => mem_of_mem_tokens h List.mem_cons_self, fun h => ?_⟩
  obtain ⟨front, back, rfl⟩ := List.append_of_mem h
  rw [tokens_append_mark hm]
  simp

/-- **The first of some marks** among the tokens is the first in the text. -/
theorem exists_of_tokens_mark {m : Char} (hm : isMark m = true) {cs : List Char}
    {front back : List (List Char)} (h : tokens cs = front ++ [m] :: back) (hfront : [m] ∉ front) :
    ∃ before after, cs = before ++ m :: after ∧ m ∉ before ∧ tokens before = front ∧
      tokens after = back := by
  have hmem : m ∈ cs := by
    rw [← mark_mem_tokens_iff hm, h]
    simp
  obtain ⟨before, after, rfl, hbefore⟩ := List.eq_append_cons_of_mem hmem
  rw [tokens_append_mark hm] at h
  have hbefore' : [m] ∉ tokens before := mt (mark_mem_tokens_iff hm).mp hbefore
  have hsplit := congrArg (List.splitOn [m]) h
  rw [List.splitOn_append_cons_self_of_not_mem hbefore',
    List.splitOn_append_cons_self_of_not_mem hfront] at hsplit
  have hfronts : tokens before = front := (List.cons.inj hsplit).1
  rw [hfronts] at h
  exact ⟨before, after, rfl, hbefore, hfronts, (List.cons.inj (List.append_cancel_left h)).2⟩

theorem tokens_intercalate {m : Char} (hm : isMark m = true) (pieces : List (List Char)) :
    tokens ([m].intercalate pieces) = [[m]].intercalate (pieces.map tokens) := by
  induction pieces with
  | nil => rfl
  | cons piece rest ih =>
    cases rest with
    | nil => simp
    | cons next rest =>
      rw [List.intercalate_cons_cons, List.append_assoc, List.singleton_append,
        tokens_append_mark hm, ih]
      simp [List.intercalate_cons_cons]

/-- **Cutting a text at a mark** is cutting its tokens there. -/
theorem splitOn_tokens {m : Char} (hm : isMark m = true) (cs : List Char) :
    (tokens cs).splitOn [m] = (cs.splitOn m).map tokens := by
  have hpieces : ∀ piece ∈ (cs.splitOn m).map tokens, [m] ∉ piece := by
    intro piece hpiece
    obtain ⟨piece, hmem, rfl⟩ := List.mem_map.mp hpiece
    rw [mark_mem_tokens_iff hm]
    exact not_mem_of_mem_splitOn hmem
  have htokens : tokens cs = [[m]].intercalate ((cs.splitOn m).map tokens) := by
    rw [← tokens_intercalate hm, List.intercalate_splitOn]
  rw [htokens]
  exact List.splitOn_intercalate [m] hpieces (by simp [List.splitOn_ne_nil])

end Text
end PredicatedCpu

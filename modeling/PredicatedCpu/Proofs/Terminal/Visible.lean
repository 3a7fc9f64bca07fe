/-
# What is visible of a text

Taking colour out of a text is a scan with one bit of memory, and the bit is where it can go wrong:
a second escape within a sequence begins nothing, an `m` outside of one ends nothing, and a sequence
that is never ended swallows the rest of the text.  What is to come of the scan can be said without
the bit.  A text falls into stretches without an escape and sequences between them, and what is
visible are the stretches.

A text may be cut in two before colour is taken out only where no sequence is cut.  So it is behind
a text in which every escape has an `m` behind it, and colours are put into a text by such pieces.

* `Cleared`: a text and what is left of it without its sequences;
* `visible_eq_iff`: the scan finds just this;
* `Closed`, `plain_append`: texts behind which may be cut;
* `Clean`, `clean_plain`: texts without an escape, and what is left is one;
* `plain_paint`: a text in a colour looks as it did;
* `plain_clears`: all that taking colour out is good for.
-/
import PredicatedCpu.Terminal.Colour

namespace PredicatedCpu
namespace Terminal

/-! ## 1. Stretches and sequences -/

/-- Whether the second text is what is left of the first one **without its sequences**.  A sequence
goes from an escape through the next `m`, or to the end of the text if there is none. -/
inductive Cleared : List Char → List Char → Prop
  | stretch {cs : List Char} (clean : escape ∉ cs) : Cleared cs cs
  | ended {front body rest seen : List Char} (clean : escape ∉ front) (within : 'm' ∉ body)
      (others : Cleared rest seen) :
      Cleared (front ++ escape :: (body ++ 'm' :: rest)) (front ++ seen)
  | endless {front body : List Char} (clean : escape ∉ front) (within : 'm' ∉ body) :
      Cleared (front ++ escape :: body) front

/-- Every text falls into stretches and sequences.  The induction is on the length: what is behind
the first sequence is shorter. -/
theorem exists_cleared (cs : List Char) : ∃ seen, Cleared cs seen := by
  induction hlength : cs.length using Nat.strongRecOn generalizing cs with
  | ind length ih =>
    by_cases hescape : escape ∈ cs
    · obtain ⟨front, rest, rfl, hfront⟩ := List.eq_append_cons_of_mem hescape
      by_cases hend : 'm' ∈ rest
      · obtain ⟨body, rest, rfl, hbody⟩ := List.eq_append_cons_of_mem hend
        have hshorter : rest.length < length := by
          rw [← hlength]
          simp only [List.length_append, List.length_cons]
          omega
        obtain ⟨seen, hseen⟩ := ih _ hshorter rest rfl
        exact ⟨_, .ended hfront hbody hseen⟩
      · exact ⟨_, .endless hfront hend⟩
    · exact ⟨_, .stretch hescape⟩

/-- What is left has no escape in it. -/
theorem Cleared.clean {cs seen : List Char} (h : Cleared cs seen) : escape ∉ seen := by
  induction h with
  | stretch clean | endless clean _ => exact clean
  | ended clean _ _ ih => exact fun hmem => (List.mem_append.mp hmem).elim clean ih

/-! ## 2. The scan -/

/-- A stretch is kept. -/
theorem visible_append_of_clean {front : List Char} (h : escape ∉ front) (rest : List Char) :
    visible false (front ++ rest) = front ++ visible false rest := by
  induction front with
  | nil => rfl
  | cons c front ih =>
    rw [List.mem_cons, not_or] at h
    rw [List.cons_append, visible, if_neg Bool.false_ne_true, if_neg (Ne.symm h.1), ih h.2,
      List.cons_append]

theorem visible_of_clean {cs : List Char} (h : escape ∉ cs) : visible false cs = cs := by
  have hvisible := visible_append_of_clean h []
  rwa [List.append_nil, visible, List.append_nil] at hvisible

theorem visible_escape (rest : List Char) :
    visible false (escape :: rest) = visible true rest := by
  rw [visible, if_neg Bool.false_ne_true, if_pos rfl]

/-- Nothing is kept of a sequence before its end, whatever is in it. -/
theorem visible_within {body : List Char} (h : 'm' ∉ body) (rest : List Char) :
    visible true (body ++ rest) = visible true rest := by
  induction body with
  | nil => rfl
  | cons c body ih =>
    rw [List.mem_cons, not_or] at h
    have hgoes : (c != 'm') = true := bne_iff_ne.mpr (Ne.symm h.1)
    rw [List.cons_append, visible, if_pos rfl, hgoes, ih h.2]

/-- **The scan keeps the stretches.** -/
theorem Cleared.visible_eq {cs seen : List Char} (h : Cleared cs seen) :
    visible false cs = seen := by
  induction h with
  | stretch clean => exact visible_of_clean clean
  | @ended front body rest seen clean within _ ih =>
    calc visible false (front ++ escape :: (body ++ 'm' :: rest))
        = front ++ visible true ('m' :: rest) := by
          rw [visible_append_of_clean clean, visible_escape, visible_within within]
      _ = front ++ seen := congrArg (front ++ ·) ih
  | @endless front body clean within =>
    have hnothing := visible_within within []
    rw [List.append_nil] at hnothing
    rw [visible_append_of_clean clean, visible_escape, hnothing, visible, List.append_nil]

/-- **The scan finds what is left**, and there is one thing only that can be left. -/
theorem visible_eq_iff {cs seen : List Char} : visible false cs = seen ↔ Cleared cs seen := by
  constructor
  · rintro rfl
    obtain ⟨seen, hseen⟩ := exists_cleared cs
    rwa [hseen.visible_eq]
  · exact Cleared.visible_eq

/-! ## 3. Texts behind which may be cut -/

/-- Whether no sequence of a text goes on behind it: every escape has an `m` somewhere behind it. -/
def Closed (cs : List Char) : Prop := ∀ after, escape :: after <:+ cs → 'm' ∈ after

theorem Closed.of_suffix {cs back : List Char} (h : Closed cs) (hback : back <:+ cs) :
    Closed back :=
  fun after hafter => h after (hafter.trans hback)

/-- A text that ends with an `m` is closed. -/
theorem closed_concat (front : List Char) : Closed (front ++ ['m']) := by
  intro after hafter
  obtain hnil | ⟨init, hinit, -⟩ := List.suffix_concat_iff.mp hafter
  · cases hnil
  · cases init with
    | nil => exact absurd (List.cons.inj hinit).1 (by decide)
    | cons c init =>
      obtain ⟨-, rfl⟩ := List.cons.inj hinit
      exact List.mem_concat_self

/-- So is a text without an escape. -/
theorem closed_of_clean {cs : List Char} (h : escape ∉ cs) : Closed cs :=
  fun _ hafter => absurd (hafter.mem List.mem_cons_self) h

/-- Where a text is closed, what stands behind it is scanned by itself. -/
theorem Cleared.visible_append {cs seen : List Char} (h : Cleared cs seen) (hclosed : Closed cs)
    (rest : List Char) : visible false (cs ++ rest) = seen ++ visible false rest := by
  induction h with
  | stretch clean => exact visible_append_of_clean clean rest
  | @ended front body back seen clean within _ ih =>
    have hback : back <:+ front ++ escape :: (body ++ 'm' :: back) :=
      ⟨front ++ escape :: (body ++ ['m']), by simp⟩
    calc visible false (front ++ escape :: (body ++ 'm' :: back) ++ rest)
        = visible false (front ++ escape :: (body ++ 'm' :: (back ++ rest))) := by simp
      _ = front ++ visible true ('m' :: (back ++ rest)) := by
          rw [visible_append_of_clean clean, visible_escape, visible_within within]
      _ = front ++ visible false (back ++ rest) := rfl
      _ = front ++ seen ++ visible false rest := by
          rw [ih (hclosed.of_suffix hback), List.append_assoc]
  | @endless front body clean within => exact absurd (hclosed body (List.suffix_append _ _)) within

/-- Whether a text is **clean**: there is no escape in it. -/
def Clean (text : String) : Prop := escape ∉ text.toList

instance (text : String) : Decidable (Clean text) :=
  inferInstanceAs (Decidable (escape ∉ text.toList))

@[simp] theorem clean_append {a b : String} : Clean (a ++ b) ↔ Clean a ∧ Clean b := by
  rw [Clean, String.toList_append, List.mem_append, not_or, Clean, Clean]

theorem toList_plain (text : String) : (plain text).toList = visible false text.toList := by
  rw [plain, String.toList_ofList]

/-- **Behind a closed text may be cut.** -/
theorem plain_append {a : String} (h : Closed a.toList) (b : String) :
    plain (a ++ b) = plain a ++ plain b := by
  obtain ⟨seen, hseen⟩ := exists_cleared a.toList
  refine String.toList_inj.mp ?_
  rw [String.toList_append, toList_plain, toList_plain, toList_plain, String.toList_append,
    hseen.visible_append h, hseen.visible_eq]

/-- **What is visible is clean.** -/
theorem clean_plain (text : String) : Clean (plain text) := by
  rw [Clean, toList_plain]
  exact (visible_eq_iff.mp rfl).clean

theorem plain_of_clean {text : String} (h : Clean text) : plain text = text := by
  rw [plain, visible_of_clean h, String.ofList_toList]

/-! ## 4. Colours -/

/-- Where there is no escape there is no reset. -/
theorem restyle_of_clean (style : List Char) {cs : List Char} (h : escape ∉ cs) :
    restyle style cs = cs := by
  induction cs with
  | nil => rfl
  | cons c cs ih =>
    rw [List.mem_cons, not_or] at h
    rw [restyle, ih h.2]
    rintro _ rfl
    exact absurd rfl h.1

theorem closed_sequence (colour : Colour) : Closed colour.sequence.toList := by
  cases colour <;> exact closed_concat ['\x1b', '[', '3', _]

/-- A text in a colour ends with a reset. -/
theorem closed_paint (colour : Colour) (text : String) : Closed (paint colour text).toList := by
  rw [paint, String.toList_append]
  exact (List.append_assoc _ ['\x1b', '[', '0'] ['m']) ▸ closed_concat _

/-- **A text in a colour looks as it did**, if there was no colour in it. -/
theorem plain_paint (colour : Colour) {text : String} (h : Clean text) :
    plain (paint colour text) = text := by
  have hsequence : plain colour.sequence = "" := by cases colour <;> rfl
  have hreset : plain reset = "" := rfl
  rw [paint, restyle_of_clean _ h, String.ofList_toList, String.append_assoc,
    plain_append (closed_sequence colour), plain_append (closed_of_clean h), plain_of_clean h,
    hsequence, hreset, String.empty_append, String.append_empty]

/-! ## 5. Taking colour out -/

/-- **Taking colour out** leaves a text without an escape, in which the stretches between the
sequences stand as they stood before, and nothing else.  Doing it again changes nothing.  It may be
done before or after two texts are put together, if the first of them is closed. -/
theorem plain_clears :
    (∀ text : String, Clean (plain text) ∧
      (∀ seen, Cleared text.toList seen ↔ seen = (plain text).toList) ∧
        plain (plain text) = plain text) ∧
    ∀ a b : String, Closed a.toList → plain (a ++ b) = plain a ++ plain b := by
  refine ⟨fun text => ?_, fun a b h => plain_append h b⟩
  refine ⟨clean_plain text, fun seen => ?_, plain_of_clean (clean_plain text)⟩
  rw [← visible_eq_iff, toList_plain, eq_comm]

/-- A sequence with a second escape in it, and one that is never ended. -/
theorem plain_clears_nested :
    Closed "abc\x1b[0;\x1b2mdef\x1b[0m".toList ∧
      plain ("abc\x1b[0;\x1b2mdef\x1b[0m" ++ "gh\x1b[0xyz") = "abcdef" ++ "gh" := by
  have hclosed : Closed "abc\x1b[0;\x1b2mdef\x1b[0m".toList :=
    closed_concat "abc\x1b[0;\x1b2mdef\x1b[0".toList
  exact ⟨hclosed, plain_clears.2 _ "gh\x1b[0xyz" hclosed⟩

end Terminal
end PredicatedCpu

/-
# A fragment lies where it says

A fragment that was cut out of another one, perhaps out of what an earlier cut had left, still says
where it begins in the whole text.  Nothing in its type holds it to that: a cut that counted
characters for bytes, or forgot the separator, would still yield a fragment, with a place that is
between two bytes of one character or in another line.

* `Fragment.PieceOf`: a fragment that lies in another one, where it says;
* one lemma for each way of cutting, all of which yield pieces;
* `Span.Marks`: a range of bytes that is the place of a piece, so that it begins and ends between
  characters (`Span.Marks.isValid`).
-/
import PredicatedCpu.Proofs.Text.Cutting

namespace PredicatedCpu

/-! ## 1. Bytes -/

namespace Text

theorem utf8ByteSize_ofList (cs : List Char) : (String.ofList cs).utf8ByteSize = byteWidth cs := by
  induction cs with
  | nil => rfl
  | cons c rest ih =>
    rw [← List.singleton_append, String.ofList_append, String.utf8ByteSize_append, ih,
      ← String.singleton_eq_ofList, String.utf8ByteSize_singleton]
    rfl

/-- A part of the front of a text ends between two of its characters. -/
theorem isValid_byteWidth {source : String} {front back : List Char}
    (h : source.toList = front ++ back) :
    String.Pos.Raw.IsValid source ⟨byteWidth front⟩ := by
  refine String.Pos.Raw.isValid_iff_exists_append.mpr
    ⟨String.ofList front, String.ofList back, ?_, ?_⟩
  · rw [← String.ofList_append, ← h, String.ofList_toList]
  · rw [String.rawEndPos, utf8ByteSize_ofList]

end Text

/-! ## 2. Pieces -/

namespace Fragment

open Text

/-- Whether a fragment **is a piece** of another one and lies where it says. -/
def PieceOf (f g : Fragment) : Prop :=
  ∃ before after, g.chars = before ++ f.chars ++ after ∧ f.start = g.start + byteWidth before

theorem PieceOf.refl (f : Fragment) : f.PieceOf f := ⟨[], [], by simp, by simp [byteWidth]⟩

/-- A piece of a piece is a piece. -/
theorem PieceOf.trans {f g h : Fragment} (hf : f.PieceOf g) (hg : g.PieceOf h) : f.PieceOf h := by
  obtain ⟨before, after, hchars, hstart⟩ := hf
  obtain ⟨before', after', hchars', hstart'⟩ := hg
  refine ⟨before' ++ before, after ++ after', ?_, ?_⟩
  · rw [hchars', hchars]
    simp only [List.append_assoc]
  · rw [hstart, hstart', byteWidth_append, Nat.add_assoc]

/-- A piece begins and ends inside of the whole. -/
theorem PieceOf.bounds {f g : Fragment} (h : f.PieceOf g) : g.start ≤ f.start ∧ f.stop ≤ g.stop := by
  obtain ⟨before, after, hchars, hstart⟩ := h
  rw [stop, stop, hchars, byteWidth_append, byteWidth_append, hstart]
  omega

/-- Moving the whole moves the piece. -/
theorem PieceOf.shift {f : Fragment} {cs : List Char} (h : f.PieceOf ⟨0, cs⟩) (offset : Nat) :
    (⟨offset + f.start, f.chars⟩ : Fragment).PieceOf ⟨offset, cs⟩ := by
  obtain ⟨before, after, hchars, hstart⟩ := h
  exact ⟨before, after, hchars, by simp [hstart]⟩

/-- The front of a fragment is a piece of it. -/
theorem pieceOf_front (start : Nat) (front back : List Char) :
    (⟨start, front⟩ : Fragment).PieceOf ⟨start, front ++ back⟩ :=
  ⟨[], back, by simp, by simp [byteWidth]⟩

/-- So is what is left behind the front. -/
theorem pieceOf_back (start : Nat) (front back : List Char) :
    (⟨start + byteWidth front, back⟩ : Fragment).PieceOf ⟨start, front ++ back⟩ :=
  ⟨front, [], by simp, rfl⟩

theorem pieceOf_takeWhile (p : Char → Bool) (f : Fragment) : (f.takeWhile p).PieceOf f := by
  have h := pieceOf_front f.start (f.chars.takeWhile p) (f.chars.dropWhile p)
  rwa [List.takeWhile_append_dropWhile] at h

theorem pieceOf_dropWhile (p : Char → Bool) (f : Fragment) : (f.dropWhile p).PieceOf f := by
  have h := pieceOf_back f.start (f.chars.takeWhile p) (f.chars.dropWhile p)
  rwa [List.takeWhile_append_dropWhile] at h

theorem pieceOf_trimEnd (f : Fragment) : f.trimEnd.PieceOf f := by
  have hchars : Text.trimEnd f.chars ++ (f.chars.reverse.takeWhile isBlank).reverse = f.chars := by
    rw [Text.trimEnd, ← List.reverse_append, List.takeWhile_append_dropWhile, List.reverse_reverse]
  have h := pieceOf_front f.start (Text.trimEnd f.chars)
    (f.chars.reverse.takeWhile isBlank).reverse
  rwa [hchars] at h

theorem pieceOf_trimStart (f : Fragment) : f.trimStart.PieceOf f := pieceOf_dropWhile isBlank f

theorem pieceOf_trim (f : Fragment) : f.trim.PieceOf f :=
  (pieceOf_trimStart f.trimEnd).trans (pieceOf_trimEnd f)

/-- The empty fragment behind the last character. -/
theorem pieceOf_stop (f : Fragment) : (⟨f.stop, []⟩ : Fragment).PieceOf f :=
  ⟨f.chars, [], by simp, rfl⟩

/-- **A cut**: the first character of the kind stands between the two parts. -/
theorem splitFirst?_eq_some {p : Char → Bool} {f front back : Fragment}
    (h : f.splitFirst? p = some (front, back)) :
    front.start = f.start ∧ ∃ c, f.chars = front.chars ++ c :: back.chars ∧
      back.start = front.stop + c.utf8Size := by
  unfold splitFirst? at h
  simp only at h
  split at h
  · cases h
  · rename_i c after hdrop
    cases h
    refine ⟨rfl, c, ?_, rfl⟩
    rw [takeWhile, ← hdrop, List.takeWhile_append_dropWhile]

theorem pieceOf_splitFirst? {p : Char → Bool} {f front back : Fragment}
    (h : f.splitFirst? p = some (front, back)) : front.PieceOf f ∧ back.PieceOf f := by
  obtain ⟨hfront, c, hchars, hback⟩ := splitFirst?_eq_some h
  constructor
  · exact ⟨[], c :: back.chars, hchars, by rw [hfront]; rfl⟩
  · refine ⟨front.chars ++ [c], [], by simp [hchars], ?_⟩
    rw [hback, stop, hfront, byteWidth_append, ← Nat.add_assoc]
    rfl

/-- The pieces between separators. -/
theorem pieceOf_place {separator : Char} {start : Nat} {pieces : List (List Char)} {f : Fragment}
    (h : f ∈ place separator start pieces) :
    f.PieceOf ⟨start, [separator].intercalate pieces⟩ := by
  induction pieces generalizing start with
  | nil => cases h
  | cons piece rest ih =>
    cases rest with
    | nil =>
      rw [place, place, List.mem_singleton] at h
      rw [h, List.intercalate_singleton]
      exact .refl _
    | cons next rest =>
      rw [place, List.mem_cons] at h
      rw [List.intercalate_cons_cons]
      rcases h with rfl | h
      · rw [List.append_assoc]
        exact pieceOf_front start piece _
      · refine (ih h).trans ?_
        have hwidth : start + byteWidth piece + separator.utf8Size =
            start + byteWidth (piece ++ [separator]) := by
          rw [byteWidth_append, Nat.add_assoc]
          rfl
        rw [hwidth]
        exact pieceOf_back start (piece ++ [separator]) _

theorem pieceOf_splitOn {separator : Char} {f g : Fragment} (h : g ∈ f.splitOn separator) :
    g.PieceOf f := by
  have hpiece := pieceOf_place h
  rwa [List.intercalate_splitOn] at hpiece

end Fragment

/-! ## 3. Places -/

/-- Whether a range of bytes **marks** something in a fragment: it is the place of a piece. -/
def Span.Marks (span : Span) (f : Fragment) : Prop := ∃ g : Fragment, g.PieceOf f ∧ span = g.span

namespace Span.Marks

theorem of_pieceOf {f g : Fragment} (h : g.PieceOf f) : g.span.Marks f := ⟨g, h, rfl⟩

theorem mono {span : Span} {f g : Fragment} (h : span.Marks f) (hf : f.PieceOf g) : span.Marks g := by
  obtain ⟨piece, hpiece, rfl⟩ := h
  exact of_pieceOf (hpiece.trans hf)

theorem shift {span : Span} {cs : List Char} (h : span.Marks ⟨0, cs⟩) (offset : Nat) :
    (span.shift offset).Marks ⟨offset, cs⟩ := by
  obtain ⟨piece, hpiece, rfl⟩ := h
  exact ⟨_, hpiece.shift offset, rfl⟩

theorem bounds {span : Span} {f : Fragment} (h : span.Marks f) :
    f.start ≤ span.start ∧ span.start + span.length ≤ f.stop := by
  obtain ⟨piece, hpiece, rfl⟩ := h
  exact hpiece.bounds

/-- **What is marked can be cut out**: it begins and ends between characters. -/
theorem isValid {span : Span} {source : String} (h : span.Marks ⟨0, source.toList⟩) :
    String.Pos.Raw.IsValid source ⟨span.start⟩ ∧
      String.Pos.Raw.IsValid source ⟨span.start + span.length⟩ := by
  obtain ⟨piece, ⟨before, after, hchars, hstart⟩, rfl⟩ := h
  have hbefore : piece.span.start = Text.byteWidth before := by
    rw [Fragment.span, hstart, Nat.zero_add]
  constructor
  · rw [hbefore]
    exact Text.isValid_byteWidth (hchars.trans (List.append_assoc ..))
  · rw [hbefore, Fragment.span, ← Text.byteWidth_append]
    exact Text.isValid_byteWidth hchars

end Span.Marks
end PredicatedCpu

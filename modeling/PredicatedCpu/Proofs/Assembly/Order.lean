/-
# The order of what is found

What is wrong with a source is found by two passes and answered line by line.  Between the two is a
stable sort, and all that is ever asked of it is what makes it one: the result is in order, and what
has the same key stays as it was.  There is no other list of which both can be said, so a sort can
be moved past whatever respects the keys.

* `sortBy`: lists sorted by a number; `pairwise_sortBy`, `perm_sortBy`, `filter_key_sortBy`;
* `sortBy_eq_iff`: sorted lists are told by the elements of each key;
* `filter_sortBy`, `map_sortBy`: what is left out, or changed with its key, may be so before or
  after;
* `Carries`: a change of the statements of a source that carries their diagnostics with it;
  `Carries.found`: then it carries all that is found.
-/
import Mathlib.Data.List.Pairwise
import PredicatedCpu.Assembly.Assemble

namespace PredicatedCpu

/-! ## 1. Stable sorting -/

section

variable {α : Type} {key : α → Nat} {l l' : List α}

/-- A list **sorted by a number**.  What has the same number stays in its order. -/
def sortBy (key : α → Nat) (l : List α) : List α := l.mergeSort fun a b => key a ≤ key b

theorem inLineOrder_eq_sortBy (ds : List Diagnostic) :
    inLineOrder ds = sortBy Diagnostic.line ds := rfl

theorem perm_sortBy (key : α → Nat) (l : List α) : (sortBy key l).Perm l := List.mergeSort_perm l _

theorem byKey_trans (key : α → Nat) (a b c : α) (hab : decide (key a ≤ key b) = true)
    (hbc : decide (key b ≤ key c) = true) : decide (key a ≤ key c) = true :=
  decide_eq_true (Nat.le_trans (of_decide_eq_true hab) (of_decide_eq_true hbc))

theorem byKey_total (key : α → Nat) (a b : α) :
    (decide (key a ≤ key b) || decide (key b ≤ key a)) = true := by
  simpa using Nat.le_total (key a) (key b)

theorem pairwise_sortBy (key : α → Nat) (l : List α) :
    (sortBy key l).Pairwise fun a b => key a ≤ key b :=
  (List.pairwise_mergeSort (byKey_trans key) (byKey_total key) l).imp of_decide_eq_true

/-- What is in order already is left as it is. -/
theorem sortBy_of_pairwise (h : l.Pairwise fun a b => key a ≤ key b) : sortBy key l = l :=
  List.mergeSort_of_pairwise (h.imp decide_eq_true)

/-- **Sorting is stable**: the elements of one key keep their order.  They are in order among
themselves, so the sort has them as a sublist, and it has no others. -/
theorem filter_key_sortBy (key : α → Nat) (l : List α) (k : Nat) :
    (sortBy key l).filter (fun a => key a = k) = l.filter fun a => key a = k := by
  have hsorted : (l.filter fun a => key a = k).Pairwise
      fun a b => decide (key a ≤ key b) = true := by
    refine List.pairwise_of_forall_mem_list fun a ha b hb => decide_eq_true ?_
    have hka : key a = k := of_decide_eq_true (List.mem_filter.mp ha).2
    have hkb : key b = k := of_decide_eq_true (List.mem_filter.mp hb).2
    omega
  have hkept : (l.filter fun a => key a = k).Sublist (sortBy key l) :=
    List.sublist_mergeSort (byKey_trans key) (byKey_total key) hsorted List.filter_sublist
  have hsublist := hkept.filter fun a => key a = k
  simp only [List.filter_filter, Bool.and_self] at hsublist
  exact (hsublist.eq_of_length ((perm_sortBy key l).filter _).length_eq.symm).symm

/-- An element is among those of its key. -/
theorem mem_of_filter_eq (h : ∀ k, l.filter (fun a => key a = k) = l'.filter fun a => key a = k)
    {a : α} (ha : a ∈ l) : a ∈ l' := by
  have hmem : a ∈ l.filter fun b => key b = key a := List.mem_filter.mpr ⟨ha, decide_eq_true rfl⟩
  rw [h] at hmem
  exact (List.mem_filter.mp hmem).1

/-- **Lists in order are told by the elements of each key.**  The induction is on the first list:
the first elements have the least key of all, which is the same in both. -/
theorem eq_of_filter_key_eq (hl : l.Pairwise fun a b => key a ≤ key b)
    (hl' : l'.Pairwise fun a b => key a ≤ key b)
    (h : ∀ k, l.filter (fun a => key a = k) = l'.filter fun a => key a = k) : l = l' := by
  induction l generalizing l' with
  | nil =>
    refine (List.eq_nil_iff_forall_not_mem.mpr fun a ha => ?_).symm
    exact List.not_mem_nil (mem_of_filter_eq (fun k => (h k).symm) ha)
  | cons a rest ih =>
    have ha : a ∈ l' := mem_of_filter_eq h List.mem_cons_self
    cases l' with
    | nil => cases ha
    | cons b rest' =>
      have hb : b ∈ a :: rest := mem_of_filter_eq (fun k => (h k).symm) List.mem_cons_self
      rw [List.pairwise_cons] at hl hl'
      -- Either head is somewhere in the other list, where nothing has a lower key than the head.
      have hle : key a ≤ key b := by
        rcases List.mem_cons.mp hb with rfl | hb
        · exact Nat.le_refl _
        · exact hl.1 b hb
      have hge : key b ≤ key a := by
        rcases List.mem_cons.mp ha with rfl | ha
        · exact Nat.le_refl _
        · exact hl'.1 a ha
      have hfirst := h (key a)
      rw [List.filter_cons_of_pos (by exact decide_eq_true rfl),
        List.filter_cons_of_pos (by exact decide_eq_true (Nat.le_antisymm hge hle))] at hfirst
      obtain ⟨rfl, -⟩ := List.cons.inj hfirst
      refine congrArg (a :: ·) (ih hl.2 hl'.2 fun k => ?_)
      have hothers := h k
      rw [List.filter_cons, List.filter_cons] at hothers
      split at hothers
      · exact (List.cons.inj hothers).2
      · exact hothers

/-- **A sort is stable, and there is no other way to be so.** -/
theorem sortBy_eq_iff :
    sortBy key l = l' ↔ l'.Pairwise (fun a b => key a ≤ key b) ∧
      ∀ k, l'.filter (fun a => key a = k) = l.filter fun a => key a = k := by
  constructor
  · rintro rfl
    exact ⟨pairwise_sortBy key l, filter_key_sortBy key l⟩
  · rintro ⟨hsorted, hsame⟩
    exact eq_of_filter_key_eq (pairwise_sortBy key l) hsorted
      fun k => (filter_key_sortBy key l k).trans (hsame k).symm

/-- What is left out may be left out first. -/
theorem filter_sortBy (key : α → Nat) (p : α → Bool) (l : List α) :
    (sortBy key l).filter p = sortBy key (l.filter p) := by
  refine (sortBy_eq_iff.mpr ⟨(pairwise_sortBy key l).filter p, fun k => ?_⟩).symm
  have hcomm (l : List α) : (l.filter p).filter (fun a => key a = k) =
      (l.filter fun a => key a = k).filter p := by
    rw [List.filter_filter, List.filter_filter]
    simp only [Bool.and_comm]
  rw [hcomm, filter_key_sortBy, hcomm]

/-- What is changed with its key may be changed first. -/
theorem map_sortBy {β : Type} {key' : β → Nat} (f : α → β)
    (h : ∀ a b, key a ≤ key b ↔ key' (f a) ≤ key' (f b)) (l : List α) :
    (sortBy key l).map f = sortBy key' (l.map f) :=
  List.map_mergeSort fun a _ b _ => decide_eq_decide.mpr (h a b)

end

/-! ## 2. What is answered -/

/-- A source is not assembled if anything is found wrong with it, and all of that is answered, in
the order of the lines. -/
theorem assemble_eq_error_iff {source : String} {ds : List Diagnostic} :
    assemble source = .error ds ↔ inLineOrder (found source) = ds ∧ ds ≠ [] := by
  unfold assemble
  cases hfound : found source with
  | nil => simp [inLineOrder, eq_comm]
  | cons d rest =>
    have hnonempty : inLineOrder (d :: rest) ≠ [] := fun hnil => by
      have hlength := (perm_sortBy Diagnostic.line (d :: rest)).length_eq
      rw [← inLineOrder_eq_sortBy, hnil] at hlength
      cases hlength
    constructor
    · rintro ⟨⟩
      exact ⟨rfl, hnonempty⟩
    · rintro ⟨rfl, -⟩
      rfl

/-- Nothing is left out of the answer, and nothing is added. -/
theorem perm_of_assemble {source : String} {ds : List Diagnostic}
    (h : assemble source = .error ds) : ds.Perm (found source) := by
  obtain ⟨rfl, -⟩ := assemble_eq_error_iff.mp h
  exact perm_sortBy Diagnostic.line _

/-- What is found in the order of the lines is answered as it is found. -/
theorem assemble_of_found {source : String} {ds : List Diagnostic} (h : found source = ds)
    (hnonempty : ds ≠ []) (hsorted : ds.Pairwise fun d d' => d.line ≤ d'.line) :
    assemble source = .error ds := by
  rw [assemble_eq_error_iff, h]
  exact ⟨sortBy_of_pairwise hsorted, hnonempty⟩

/-! ## 3. Changes that carry what is found -/

/-- Whether a change of statements **carries** their diagnostics with it: what is wrong with a
statement is wrong with it after the change, changed in its own way. -/
structure Carries (g : Entry → Entry) (f : Diagnostic → Diagnostic) : Prop where
  isInstruction : ∀ e, (g e).isInstruction = e.isInstruction
  extend : ∀ table e, (g e).extend table = e.extend table
  label : ∀ table e, ((g e).labelFindings table).map (g e).diagnostic =
    ((e.labelFindings table).map e.diagnostic).map f
  size : ∀ count e, (g e).diagnostic ((g e).statement.body.finding (.programTooLarge count)) =
    f (e.diagnostic (e.statement.body.finding (.programTooLarge count)))
  instruction : ∀ symbols e, ((g e).instructionFindings symbols).map (g e).diagnostic =
    ((e.instructionFindings symbols).map e.diagnostic).map f

/-- A change of place does, if the places in the diagnostics are changed with it. -/
theorem Carries.of_placed {g : Entry → Entry} {f : Diagnostic → Diagnostic}
    (statement : ∀ e, (g e).statement = e.statement) (address : ∀ e, (g e).address = e.address)
    (diagnostic : ∀ e finding, (g e).diagnostic finding = f (e.diagnostic finding)) :
    Carries g f := by
  have hmap (e : Entry) (findings : List Finding) :
      findings.map (g e).diagnostic = (findings.map e.diagnostic).map f := by
    rw [List.map_map]
    exact List.map_congr_left fun finding _ => diagnostic e finding
  have hdefine (table : SymbolTable) (e : Entry) :
      (g e).defineLabel table = e.defineLabel table := by
    rw [Entry.defineLabel, statement, address, Entry.defineLabel]
  constructor
  · intro e
    rw [Entry.isInstruction, statement, Entry.isInstruction]
  · intro table e
    rw [Entry.extend, hdefine, Entry.extend]
  · intro table e
    rw [Entry.labelFindings, hdefine, hmap, Entry.labelFindings]
  · intro count e
    rw [statement, diagnostic]
  · intro symbols e
    rw [Entry.instructionFindings, Entry.instruction, statement, hmap]
    rfl

namespace Carries

variable {g : Entry → Entry} {f : Diagnostic → Diagnostic} (h : Carries g f)

include h

theorem symbolsOf (es : List Entry) : symbolsOf (es.map g) = PredicatedCpu.symbolsOf es := by
  rw [PredicatedCpu.symbolsOf, List.foldl_map, PredicatedCpu.symbolsOf]
  simp only [h.extend]

theorem filter_isInstruction (es : List Entry) :
    (es.map g).filter Entry.isInstruction = (es.filter Entry.isInstruction).map g := by
  have hsame : Entry.isInstruction ∘ g = Entry.isInstruction := funext h.isInstruction
  rw [List.filter_map, hsame]

/-- The first pass.  The induction is on the statements, with the table that they leave. -/
theorem labelDiagnostics (before : SymbolTable) (es : List Entry) :
    labelDiagnostics before (es.map g) = (PredicatedCpu.labelDiagnostics before es).map f := by
  induction es generalizing before with
  | nil => rfl
  | cons e rest ih =>
    rw [List.map_cons, PredicatedCpu.labelDiagnostics, h.label, h.extend, ih,
      PredicatedCpu.labelDiagnostics, List.map_append]

theorem sizeDiagnostics (es : List Entry) :
    sizeDiagnostics (es.map g) = (PredicatedCpu.sizeDiagnostics es).map f := by
  unfold PredicatedCpu.sizeDiagnostics
  rw [List.getElem?_map, List.length_map]
  cases es[memorySize]? with
  | none => rfl
  | some e => exact congrArg (fun d => [d]) (h.size es.length e)

theorem instructionDiagnostics (symbols : SymbolTable) (es : List Entry) :
    instructionDiagnostics symbols (es.map g) =
      (PredicatedCpu.instructionDiagnostics symbols es).map f := by
  unfold PredicatedCpu.instructionDiagnostics
  rw [List.flatMap_map, List.map_flatMap]
  simp only [h.instruction]

/-- **Whatever carries the diagnostics of each statement** carries all that is found. -/
theorem found {source source' : String} (hentries : entries source' = (entries source).map g) :
    found source' = (PredicatedCpu.found source).map f := by
  have hinstructions : instructionEntries source' = (instructionEntries source).map g := by
    rw [instructionEntries, hentries, h.filter_isInstruction, instructionEntries]
  rw [PredicatedCpu.found, hentries, hinstructions, h.symbolsOf, h.labelDiagnostics,
    h.sizeDiagnostics, h.instructionDiagnostics, PredicatedCpu.found, List.map_append,
    List.map_append]

end Carries
end PredicatedCpu

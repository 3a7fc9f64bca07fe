/-
# Printed programs are assembled back

The texts of instructions, one on each line, make a source.  It is assembled to the slots of
these instructions, so that printing a program and assembling what was printed comes back to the
same words and tags.  The symbols are lost: what is printed has addresses and no labels.

* `sourceOf`, `Program.printed`: the source that instructions, or the slots of a program, make;
* `statements_sourceOf`: it has one statement for each instruction;
* `assemble_sourceOf`: it is assembled to these instructions;
* `assemble_printed_exact`: the same for every program that came from some source.
-/
import PredicatedCpu.Program.Listing
import PredicatedCpu.Proofs.Assembly.Canonical
import PredicatedCpu.Proofs.Assembly.Statements

namespace PredicatedCpu

/-- The source that has the text of one instruction on each line. -/
def sourceOf (is : List Instruction) : String := "\n".intercalate (is.map Instruction.text)

/-- The source that has the text of one slot on each line. -/
def Program.printed (p : Program) : String := "\n".intercalate (p.slots.map Slot.text)

/-! ## 1. Statements -/

/-- Between the line feeds of a printed source stand the texts. -/
theorem splitOn_sourceOf {is : List Instruction} (h : is ≠ []) :
    (sourceOf is).toList.splitOn '\n' = is.map fun i => i.text.toList := by
  rw [sourceOf, String.toList_intercalate, List.map_map]
  refine List.splitOn_intercalate '\n' ?_ (by simpa using h)
  rw [List.forall_mem_map]
  exact fun i _ hmem => ne_of_mem_text hmem (by decide) rfl

/-- Every line of a printed source is a statement, and nothing is a label. -/
theorem statements_sourceOf (is : List Instruction) :
    statements (sourceOf is) = is.map fun i => ⟨none, ⟨0, i.text.toList⟩⟩ := by
  by_cases hnil : is = []
  · subst hnil
    rfl
  · rw [statements_eq_filterMap, splitOn_sourceOf hnil, List.filterMap_map,
      ← List.filterMap_eq_map]
    exact congrArg (List.filterMap · is) (funext ofLine?_text)

theorem instructionStatements_sourceOf (is : List Instruction) :
    instructionStatements (sourceOf is) = is.map fun i => ⟨none, ⟨0, i.text.toList⟩⟩ := by
  rw [instructionStatements, statements_sourceOf, List.filter_eq_self, List.forall_mem_map]
  intro i _
  simpa [Statement.isInstruction, Fragment.isEmpty] using text_ne_nil i

theorem labelsOf_sourceOf (is : List Instruction) : labelsOf (sourceOf is) = [] := by
  rw [labelsOf, statements_sourceOf]
  refine labelsFrom_of_unlabelled 0 ?_
  rw [List.forall_mem_map]
  exact fun _ _ => rfl

/-- The instructions are read back from their statements, whatever labels there are. -/
theorem instructions_sourceOf {is : List Instruction} (symbols : SymbolTable)
    (hfits : ∀ i ∈ is, i.Fits) :
    (instructionStatements (sourceOf is)).map (Statement.instruction symbols) = is.map .ok := by
  rw [instructionStatements_sourceOf, List.map_map]
  exact List.map_congr_left fun i hmem =>
    readInstruction_text String.ofList_toList (hfits i hmem)

/-! ## 2. Programs -/

/-- **The texts of instructions are assembled** to these instructions. -/
theorem assemble_sourceOf {is : List Instruction} (hlength : is.length ≤ memorySize)
    (hfits : ∀ i ∈ is, i.Fits) :
    assemble (sourceOf is) = .ok ⟨is.map Slot.ofInstruction, .empty⟩ := by
  refine assemble_iff_statements.mpr ⟨?_, ?_, is, instructions_sourceOf _ hfits, ?_⟩
  · rw [labelsOf_sourceOf]
    exact ⟨nofun, List.nodup_nil⟩
  · rwa [instructionStatements_sourceOf, List.length_map]
  · rw [labelsOf_sourceOf]
    rfl

/-- A slot that holds an instruction shows its text. -/
theorem Slot.text_ofInstruction {i : Instruction} (h : i.Fits) :
    (Slot.ofInstruction i).text = i.text := by
  rw [Slot.text, Slot.decode_ofInstruction h]

/-- **Printing is undone by assembling.**  Instructions that fit, and are not too many for
memory, are assembled from their texts to their words and tags, without symbols.  So whatever
source a program came from, each of its slots holds an instruction, and what is printed of them
is assembled to the same words and tags. -/
theorem assemble_printed_exact :
    (∀ is : List Instruction, is.length ≤ memorySize → (∀ i ∈ is, i.Fits) →
      ∃ p : Program, assemble (sourceOf is) = .ok p ∧ p.symbols = .empty ∧
        p.slots.map (fun slot => (slot.word, slot.tag)) = is.map Instruction.encode) ∧
    (∀ (source : String) (p : Program), assemble source = .ok p →
      (∀ slot ∈ p.slots, ∃ i, slot.decode = .ok i ∧ slot.text = i.text) ∧
        ∃ q : Program, assemble p.printed = .ok q ∧ q.words = p.words ∧ q.tags = p.tags) := by
  constructor
  · intro is hlength hfits
    refine ⟨_, assemble_sourceOf hlength hfits, rfl, ?_⟩
    rw [List.map_map]
    rfl
  · intro source p h
    obtain ⟨is, -, hslots, hfits, hlength⟩ := exists_instructions_of_assemble h
    have hprinted : p.printed = sourceOf is := by
      rw [Program.printed, sourceOf, hslots, List.map_map]
      refine congrArg _ (List.map_congr_left fun i hmem => ?_)
      exact Slot.text_ofInstruction (hfits i hmem)
    refine ⟨?_, ⟨is.map Slot.ofInstruction, .empty⟩, ?_, ?_, ?_⟩
    · rw [hslots, List.forall_mem_map]
      exact fun i hmem =>
        ⟨i, Slot.decode_ofInstruction (hfits i hmem), Slot.text_ofInstruction (hfits i hmem)⟩
    · rw [hprinted]
      exact assemble_sourceOf hlength hfits
    · rw [Program.words, Program.words, hslots]
    · rw [Program.tags, Program.tags, hslots]

/-- A source with a label, a comment and names in either case. -/
def labelledSource : String := "x: cmp r1, #0X3 ; three\n(p1) b X"

/-- The program of `labelledSource`. -/
def labelledProgram : Program :=
  ⟨[⟨0x800B, .immediateCompare⟩, ⟨0xC600, .branch⟩], ⟨[("X", 0)]⟩⟩

theorem assemble_printed_exact_labelled :
    (assemble labelledSource = .ok labelledProgram ∧
      (∀ slot ∈ labelledProgram.slots, ∃ i, slot.decode = .ok i ∧ slot.text = i.text) ∧
        ∃ q : Program, assemble labelledProgram.printed = .ok q ∧
          q.words = labelledProgram.words ∧ q.tags = labelledProgram.tags) ∧
    [Instruction.mk .notP2 (.alu .xor 1 7 (.immediate 7)), ⟨.p3, .store 0x1FF⟩].length ≤
        memorySize ∧
      (∀ i ∈ [Instruction.mk .notP2 (.alu .xor 1 7 (.immediate 7)), ⟨.p3, .store 0x1FF⟩],
        i.Fits) ∧
      ∃ p : Program,
        assemble
            (sourceOf [.mk .notP2 (.alu .xor 1 7 (.immediate 7)), ⟨.p3, .store 0x1FF⟩]) = .ok p ∧
          p.symbols = .empty ∧ p.slots.map (fun slot => (slot.word, slot.tag)) =
            [(0x6C7F, .immediateAlu), (0x1FFF, .memory)] := by
  have hassemble : assemble labelledSource = .ok labelledProgram := rfl
  refine ⟨⟨hassemble, assemble_printed_exact.2 _ _ hassemble⟩, by decide, by decide, ?_⟩
  exact assemble_printed_exact.1 _ (by decide) (by decide)

end PredicatedCpu

/-
# When a source is assembled

A source is assembled where nothing is wrong with any of its statements, and that comes down to
three things: the labels can be defined one after the other, the instructions are not too many,
and each of them can be read.  The program then has the instructions of the source in their
order, one in each slot.

* `addresses_layout`: the instructions of a source take consecutive addresses;
* `found_eq_nil_iff`: nothing is found wrong, by either pass;
* `assemble_eq_ok_iff`: a source is assembled, and to which program.
-/
import PredicatedCpu.Assembly.Assemble
import PredicatedCpu.Proofs.Assembly.Range
import PredicatedCpu.Proofs.Instruction.RoundTrip

namespace PredicatedCpu

/-! ## 1. Addresses -/

/-- **Instructions take consecutive addresses.**  A label on its own takes none. -/
theorem addresses_layout (address : Nat) (lines : List SourceLine) :
    ((layout address lines).filter Entry.isInstruction).map Entry.address =
      List.range' address ((layout address lines).filter Entry.isInstruction).length := by
  induction lines generalizing address with
  | nil => rfl
  | cons line rest ih =>
    unfold layout
    cases hline : Statement.ofLine? line.chars with
    | none => exact ih address
    | some statement =>
      by_cases hinstruction : statement.isInstruction = true
      · simp [Entry.isInstruction, Statement.size, hinstruction, List.range'_succ] at ih ⊢
        exact ih (address + 1)
      · simp [Entry.isInstruction, Statement.size, hinstruction] at ih ⊢
        exact ih address

/-! ## 2. Statements with which nothing is wrong -/

/-- Whether the labels of some statements can be defined one after the other. -/
def LabelsDefine (before : SymbolTable) : List Entry → Prop
  | [] => True
  | e :: rest => e.labelFindings before = [] ∧ LabelsDefine (e.extend before) rest

/-- The first pass finds nothing wrong with the labels if they can be defined. -/
theorem labelDiagnostics_eq_nil_iff {before : SymbolTable} {es : List Entry} :
    labelDiagnostics before es = [] ↔ LabelsDefine before es := by
  induction es generalizing before with
  | nil => simp [labelDiagnostics, LabelsDefine]
  | cons e rest ih =>
    rw [labelDiagnostics, List.append_eq_nil_iff, List.map_eq_nil_iff, ih, LabelsDefine]

/-- It finds nothing wrong with the size if memory holds all instructions. -/
theorem sizeDiagnostics_eq_nil_iff {es : List Entry} :
    sizeDiagnostics es = [] ↔ es.length ≤ memorySize := by
  rw [← List.getElem?_eq_none_iff, sizeDiagnostics]
  cases es[memorySize]? <;> simp

theorem Entry.instructionFindings_eq_nil_iff {e : Entry} {symbols : SymbolTable} :
    e.instructionFindings symbols = [] ↔ ∃ i, e.instruction symbols = .ok i := by
  unfold instructionFindings
  cases e.instruction symbols <;> simp [complaints]

/-- The second pass finds nothing wrong if each instruction can be read. -/
theorem instructionDiagnostics_eq_nil_iff {symbols : SymbolTable} {es : List Entry} :
    instructionDiagnostics symbols es = [] ↔ ∀ e ∈ es, ∃ i, e.instruction symbols = .ok i := by
  rw [instructionDiagnostics, List.flatMap_eq_nil_iff]
  simp only [List.map_eq_nil_iff, Entry.instructionFindings_eq_nil_iff]

/-- **Nothing is wrong** with a source if nothing is wrong with the labels, the size and the
instructions, each taken by themselves. -/
theorem found_eq_nil_iff (source : String) :
    found source = [] ↔
      LabelsDefine .empty (entries source) ∧ (instructionEntries source).length ≤ memorySize ∧
        ∀ e ∈ instructionEntries source,
          ∃ i, e.instruction (symbolsOf (entries source)) = .ok i := by
  rw [found, List.append_eq_nil_iff, List.append_eq_nil_iff, labelDiagnostics_eq_nil_iff,
    sizeDiagnostics_eq_nil_iff, instructionDiagnostics_eq_nil_iff, and_assoc]

/-! ## 3. Programs -/

/-- The instructions of statements are known as soon as each of them can be read. -/
theorem exists_instructions_iff {symbols : SymbolTable} {es : List Entry} :
    (∀ e ∈ es, ∃ i, e.instruction symbols = .ok i) ↔
      ∃ is : List Instruction, es.map (Entry.instruction symbols) = is.map .ok := by
  constructor
  · intro h
    induction es with
    | nil => exact ⟨[], rfl⟩
    | cons e rest ih =>
      obtain ⟨⟨i, hi⟩, hrest⟩ := List.forall_mem_cons.mp h
      obtain ⟨is, his⟩ := ih hrest
      exact ⟨i :: is, by rw [List.map_cons, List.map_cons, hi, his]⟩
  · rintro ⟨is, his⟩ e he
    have hmem : e.instruction symbols ∈ es.map (Entry.instruction symbols) :=
      List.mem_map_of_mem he
    rw [his] at hmem
    obtain ⟨i, -, hi⟩ := List.mem_map.mp hmem
    exact ⟨i, hi.symm⟩

/-- The slots of statements whose instructions are known. -/
theorem filterMap_slot? {symbols : SymbolTable} {es : List Entry} {is : List Instruction}
    (h : es.map (Entry.instruction symbols) = is.map .ok) :
    es.filterMap (Entry.slot? symbols) = is.map Slot.ofInstruction := by
  induction es generalizing is with
  | nil =>
    obtain rfl : is = [] := by simpa using h
    rfl
  | cons e rest ih =>
    obtain ⟨i, is, rfl, hi, hrest⟩ := List.map_eq_cons_iff.mp h.symm
    have hslot : e.slot? symbols = some (Slot.ofInstruction i) := by rw [Entry.slot?, ← hi]
    rw [List.filterMap_cons_some hslot, ih hrest.symm, List.map_cons]

/-- The slot of an instruction that fits holds it. -/
theorem Slot.decode_ofInstruction {i : Instruction} (h : i.Fits) :
    (Slot.ofInstruction i).decode = .ok i := decode_word_of_fits h

/-- **A source is assembled** if its labels can be defined, its instructions are not too many
and each of them can be read; and then the program has these instructions, in their order. -/
theorem assemble_eq_ok_iff {source : String} {p : Program} :
    assemble source = .ok p ↔
      LabelsDefine .empty (entries source) ∧ (instructionEntries source).length ≤ memorySize ∧
        ∃ is : List Instruction,
          (instructionEntries source).map (Entry.instruction (symbolsOf (entries source))) =
              is.map .ok ∧
            p = ⟨is.map Slot.ofInstruction, symbolsOf (entries source)⟩ := by
  have hnil := found_eq_nil_iff source
  rw [exists_instructions_iff] at hnil
  unfold assemble
  constructor
  · intro h
    split at h
    · rename_i hempty
      obtain ⟨hlabels, hlength, is, his⟩ := hnil.mp hempty
      cases h
      exact ⟨hlabels, hlength, is, his, by rw [filterMap_slot? his]⟩
    · cases h
  · rintro ⟨hlabels, hlength, is, his, rfl⟩
    rw [hnil.mpr ⟨hlabels, hlength, is, his⟩]
    simp only [filterMap_slot? his]

/-- **What a program was assembled from**: as many instructions as there are slots, each of them
read from its statement with the symbols of the program, and each fits in its word. -/
theorem exists_instructions_of_assemble {source : String} {p : Program}
    (h : assemble source = .ok p) :
    ∃ is : List Instruction,
      (instructionEntries source).map (Entry.instruction p.symbols) = is.map .ok ∧
        p.slots = is.map Slot.ofInstruction ∧ (∀ i ∈ is, i.Fits) ∧ is.length ≤ memorySize := by
  obtain ⟨-, hlength, is, his, rfl⟩ := assemble_eq_ok_iff.mp h
  refine ⟨is, his, rfl, fun i hmem => ?_, ?_⟩
  · have hread : (.ok i : Except Finding Instruction) ∈ is.map .ok := List.mem_map_of_mem hmem
    rw [← his] at hread
    obtain ⟨e, -, he⟩ := List.mem_map.mp hread
    exact fits_of_readInstruction he
  · have hcount := congrArg List.length his
    rw [List.length_map, List.length_map] at hcount
    rwa [← hcount]

/-- The slot at an address holds what was read from the statement that takes this address. -/
theorem exists_entry_of_slot {source : String} {p : Program} (h : assemble source = .ok p)
    {address : Nat} {slot : Slot} (hslot : p.slots[address]? = some slot) :
    ∃ (e : Entry) (i : Instruction), (instructionEntries source)[address]? = some e ∧
      e.instruction p.symbols = .ok i ∧ slot.decode = .ok i := by
  obtain ⟨is, his, hslots, hfits, -⟩ := exists_instructions_of_assemble h
  rw [hslots, List.getElem?_map, Option.map_eq_some_iff] at hslot
  obtain ⟨i, hi, rfl⟩ := hslot
  have hread := congrArg (·[address]?) his
  simp only [List.getElem?_map, hi, Option.map_some, Option.map_eq_some_iff] at hread
  obtain ⟨e, he, hinstruction⟩ := hread
  exact ⟨e, i, he, hinstruction, Slot.decode_ofInstruction (hfits i (List.mem_of_getElem? hi))⟩

end PredicatedCpu

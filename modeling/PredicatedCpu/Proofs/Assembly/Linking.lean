/-
# Sources link by concatenation

A source can be written behind another one, from a new line on.  Its instructions and its labels
then stand as many addresses further on as the other has instructions, and so does what its
instructions say of labels.  An address that is written as a number stays what it is, and the
source in front is not touched, as long as no name is defined in both.

* `statements_append_line`: the statements of the whole are those of the parts;
* `Statement.refersToLabel`: whether an instruction says its address by a label;
* `Slot.relocate`: adding to the nine bits of an address;
* `Statement.relocated_of_moves`: how a statement is read when the labels have moved on;
* `assemble_link`: the program of the whole.
-/
import PredicatedCpu.Proofs.Assembly.Statements

namespace PredicatedCpu

/-! ## 1. The statements of the whole -/

/-- **The seam is a line ending**: no statement of either part runs across it. -/
theorem statements_append_line (front back : String) :
    statements (front ++ "\n" ++ back) = statements front ++ statements back := by
  have hchars : (front ++ "\n" ++ back).toList = front.toList ++ '\n' :: back.toList := by
    rw [String.toList_append, String.toList_append, List.append_assoc]
    rfl
  rw [statements_eq_filterMap, hchars, List.splitOn_append_cons_self, List.filterMap_append,
    ← statements_eq_filterMap, ← statements_eq_filterMap]

theorem instructionStatements_append_line (front back : String) :
    instructionStatements (front ++ "\n" ++ back) =
      instructionStatements front ++ instructionStatements back := by
  rw [instructionStatements, statements_append_line, List.filter_append]
  rfl

/-- The labels of the part behind have moved on by the instructions of the part in front. -/
theorem labelsOf_append_line (front back : String) :
    labelsOf (front ++ "\n" ++ back) =
      labelsOf front ++
        (labelsOf back).map (PlacedLabel.shift (instructionStatements front).length) := by
  rw [labelsOf, statements_append_line, labelsFrom_append, labelsFrom_add]
  rfl

/-! ## 2. Symbols of the whole -/

namespace SymbolTable

/-- A symbol table with all addresses further on. -/
def shift (offset : Nat) (table : SymbolTable) : SymbolTable :=
  ⟨table.entries.map fun entry => (entry.1, entry.2 + offset)⟩

theorem names_shift (offset : Nat) (table : SymbolTable) :
    (table.shift offset).names = table.names := by
  rw [names, shift, List.map_map]
  rfl

theorem get?_shift (offset : Nat) (table : SymbolTable) (name : String) :
    (table.shift offset).get? name = (table.get? name).map (· + offset) := by
  obtain ⟨entries⟩ := table
  unfold get? shift
  induction entries with
  | nil => rfl
  | cons entry rest ih =>
    obtain ⟨key, address⟩ := entry
    simp only [List.map_cons, List.lookup_cons] at ih ⊢
    split
    · rfl
    · exact ih

theorem mem_entries_of_get? {table : SymbolTable} {name : String} {address : Nat}
    (h : table.get? name = some address) : (Text.upper name, address) ∈ table.entries := by
  obtain ⟨front, back, hentries, -⟩ := List.lookup_eq_some_iff.mp h
  rw [hentries]
  exact List.mem_append_right _ List.mem_cons_self

/-- **Symbols move**: whatever a table gives an address, the other one gives an address further
on, which is still in memory. -/
structure Moves (offset : Nat) (symbols symbols' : SymbolTable) : Prop where
  get? : ∀ {name address}, symbols.get? name = some address →
    symbols'.get? name = some (address + offset)
  inMemory : ∀ {name address}, symbols.get? name = some address → address + offset < memorySize

/-- Symbols do not move when others are put behind them. -/
theorem moves_append_left (front back : SymbolTable)
    (hmemory : ∀ entry ∈ front.entries, entry.2 < memorySize) :
    Moves 0 front (front.append back) where
  get? h := by rw [get?_append, h]; rfl
  inMemory h := hmemory _ (mem_entries_of_get? h)

/-- Symbols with new names that are put behind others move as far as they are shifted. -/
theorem moves_append_right {front back : SymbolTable} {offset : Nat}
    (hnames : ∀ name ∈ front.names, name ∉ back.names)
    (hmemory : ∀ entry ∈ back.entries, entry.2 + offset < memorySize) :
    Moves offset back (front.append (back.shift offset)) where
  get? {name address} h := by
    have hback : Text.upper name ∈ back.names := List.mem_map_of_mem (mem_entries_of_get? h)
    have hfront : front.get? name = none :=
      get?_eq_none_iff.mpr fun hmem => hnames _ hmem hback
    rw [get?_append, hfront, get?_shift, h]
    rfl
  inMemory h := hmemory _ (mem_entries_of_get? h)

end SymbolTable

theorem tableOf_append (front back : List PlacedLabel) :
    tableOf (front ++ back) = (tableOf front).append (tableOf back) :=
  congrArg SymbolTable.mk List.map_append

theorem tableOf_shift (offset : Nat) (labels : List PlacedLabel) :
    tableOf (labels.map (PlacedLabel.shift offset)) = (tableOf labels).shift offset := by
  rw [tableOf, tableOf, SymbolTable.shift, List.map_map, List.map_map]
  rfl

/-! ## 3. Addresses that are said by a label -/

/-- Whether a text in the place of an address is taken for a label. -/
def Fragment.isLabel (f : Fragment) : Bool := !(f.chars.head?.map Char.isDigit).getD false

/-- The operand of a load, a store or a branch. -/
def addressOperand? : Opcode → List Fragment → Option Fragment
  | .ldr, [address] => some address
  | .str, [address] => some address
  | .b, [target] => some target
  | _, _ => none

namespace Statement

/-- The text of the address in an instruction, if it is a load, a store or a branch. -/
def address? (s : Statement) : Option Fragment :=
  match readPredicate s.body with
  | .error _ => none
  | .ok (_, rest) =>
    match Opcode.ofName? (splitMnemonic rest).1.text with
    | none => none
    | some opcode => addressOperand? opcode (splitOperands (splitMnemonic rest).2)

/-- Whether an instruction is a load, a store or a branch that says its address by a label. -/
def refersToLabel (s : Statement) : Bool := s.address?.any Fragment.isLabel

end Statement

/-- The operations that have an address. -/
inductive Operation.Addressing : (Word → Operation) → Prop where
  | load : Addressing .load
  | store : Addressing .store
  | branch : Addressing .branch

/-- Where there is an address, the symbols matter for nothing else. -/
theorem readOperation_of_address {opcode : Opcode} {fragments : List Fragment} {f : Fragment}
    (h : addressOperand? opcode fragments = some f) :
    ∃ build, Operation.Addressing build ∧ ∀ symbols miscounted,
      readOperation symbols miscounted opcode fragments =
        (readAddress symbols f).map build := by
  unfold addressOperand? at h
  split at h
  · cases h
    exact ⟨.load, .load, fun _ _ => rfl⟩
  · cases h
    exact ⟨.store, .store, fun _ _ => rfl⟩
  · cases h
    exact ⟨.branch, .branch, fun _ _ => rfl⟩
  · cases h

/-- Where there is none, they do not matter at all. -/
theorem readOperation_of_no_address {opcode : Opcode} {fragments : List Fragment}
    (h : addressOperand? opcode fragments = none) (symbols symbols' : SymbolTable)
    (miscounted : Finding) :
    readOperation symbols miscounted opcode fragments =
      readOperation symbols' miscounted opcode fragments := by
  unfold readOperation
  split
  · cases h
  · cases h
  · cases h
  all_goals rfl

/-- An empty text is no mnemonic. -/
theorem isEmpty_of_ofName? {f : Fragment} {opcode : Opcode}
    (h : Opcode.ofName? f.text = some opcode) : f.isEmpty = false := by
  have hnone : Opcode.ofName? (String.ofList []) = none := by decide +kernel
  obtain ⟨start, chars⟩ := f
  cases chars with
  | nil => exact absurd (hnone.symm.trans h) nofun
  | cons c rest => rfl

namespace Statement

theorem instruction_of_no_predicate {s : Statement} {finding : Finding}
    (h : readPredicate s.body = .error finding) (symbols : SymbolTable) :
    s.instruction symbols = .error finding := by
  rw [instruction, readInstruction, h]
  rfl

theorem instruction_of_predicate {s : Statement} {predicate : Predicate} {rest : Fragment}
    (h : readPredicate s.body = .ok (predicate, rest)) (symbols : SymbolTable) :
    s.instruction symbols =
      if (splitMnemonic rest).1.isEmpty then .error (s.body.finding .missingInstruction)
      else (readOperationOf symbols (splitMnemonic rest).1 (splitMnemonic rest).2).map
        (Instruction.mk predicate) := by
  have hbind : ∀ x : Except Finding Operation,
      (do return Instruction.mk predicate (← x)) = x.map (Instruction.mk predicate) := by
    intro x
    cases x <;> rfl
  rw [instruction, readInstruction, h, ← hbind]
  rfl

theorem instruction_of_opcode {s : Statement} {predicate : Predicate} {rest : Fragment}
    {opcode : Opcode} (hpredicate : readPredicate s.body = .ok (predicate, rest))
    (hopcode : Opcode.ofName? (splitMnemonic rest).1.text = some opcode) :
    ∃ miscounted, ∀ symbols, s.instruction symbols =
      (readOperation symbols miscounted opcode (splitOperands (splitMnemonic rest).2)).map
        (Instruction.mk predicate) := by
  generalize hsplit : splitMnemonic rest = parts at hopcode
  obtain ⟨mnemonic, operands⟩ := parts
  refine ⟨(if operands.isEmpty then mnemonic else operands).finding
    (.operandCount opcode (splitOperands operands).length), fun symbols => ?_⟩
  rw [instruction_of_predicate hpredicate, hsplit, if_neg (by simp [isEmpty_of_ofName? hopcode]),
    readOperationOf, hopcode]

theorem instruction_of_address {s : Statement} {f : Fragment} (h : s.address? = some f) :
    ∃ predicate build, Operation.Addressing build ∧ ∀ symbols,
      s.instruction symbols =
        (readAddress symbols f).map fun address => ⟨predicate, build address⟩ := by
  unfold address? at h
  split at h
  · cases h
  · rename_i predicate rest hpredicate
    split at h
    · cases h
    · rename_i opcode hopcode
      obtain ⟨miscounted, hinstruction⟩ := instruction_of_opcode hpredicate hopcode
      obtain ⟨build, hbuild, hoperation⟩ := readOperation_of_address h
      refine ⟨predicate, build, hbuild, fun symbols => ?_⟩
      rw [hinstruction, hoperation]
      cases readAddress symbols f <;> rfl

theorem instruction_of_no_address {s : Statement} (h : s.address? = none)
    (symbols symbols' : SymbolTable) : s.instruction symbols = s.instruction symbols' := by
  unfold address? at h
  split at h
  · rename_i finding hpredicate
    rw [instruction_of_no_predicate hpredicate, instruction_of_no_predicate hpredicate]
  · rename_i predicate rest hpredicate
    split at h
    · rename_i hopcode
      rw [instruction_of_predicate hpredicate, instruction_of_predicate hpredicate,
        readOperationOf, readOperationOf, hopcode]
    · rename_i opcode hopcode
      obtain ⟨miscounted, hinstruction⟩ := instruction_of_opcode hpredicate hopcode
      rw [hinstruction, hinstruction, readOperation_of_no_address h symbols symbols']

end Statement

/-! ## 4. Moving on -/

/-- An address that is a number does not move. -/
theorem readAddress_of_number {f : Fragment} (h : f.isLabel = false)
    (symbols symbols' : SymbolTable) : readAddress symbols f = readAddress symbols' f := by
  have hdigit : (f.chars.head?.map Char.isDigit).getD false = true := by
    simpa [Fragment.isLabel] using h
  rw [readAddress, readAddress, addressValue, addressValue, if_pos hdigit, if_pos hdigit]

/-- An address that is a label moves with the symbols. -/
theorem readAddress_of_label {offset : Nat} {symbols symbols' : SymbolTable}
    (hmoves : symbols.Moves offset symbols') {f : Fragment} (hlabel : f.isLabel = true)
    {address : Word} (h : readAddress symbols f = .ok address) :
    readAddress symbols' f = .ok (Word.ofNat (address.toNat + offset)) ∧
      address.toNat + offset < memorySize := by
  have hdigit : ¬ (f.chars.head?.map Char.isDigit).getD false = true := by
    simpa [Fragment.isLabel] using hlabel
  obtain ⟨value, hvalue, hread⟩ := exists_of_bind_eq_ok h
  rw [addressValue, if_neg hdigit] at hvalue
  split at hvalue
  · rename_i hidentifier
    split at hvalue
    · rename_i found hfound
      cases hvalue
      have hmemory : value + offset < memorySize := hmoves.inMemory hfound
      -- The word that was read is the number itself: it was held against the size of memory.
      have haddress : address.toNat = value := by
        split at hread
        · rename_i hvalue
          cases hread
          exact Word.toNat_ofNat_of_lt (Nat.lt_trans hvalue (by decide))
        · cases hread
      rw [readAddress, addressValue, if_neg hdigit, if_pos hidentifier, hmoves.get? hfound,
        haddress]
      exact ⟨if_pos hmemory, hmemory⟩
    · cases hvalue
  · cases hvalue

namespace Slot

/-- The nine bits of an address in a slot. -/
def address (slot : Slot) : Nat := slot.word.toNat % 512

/-- A slot with a number **added to its nine bits** of address. -/
def relocate (offset : Nat) (slot : Slot) : Slot :=
  { slot with word := Word.ofNat (slot.word.toNat / 512 * 512 + (slot.address + offset) % 512) }

theorem relocate_zero (slot : Slot) : slot.relocate 0 = slot := by
  obtain ⟨word, tag⟩ := slot
  have hword : word.toNat / 512 * 512 + (word.toNat % 512 + 0) % 512 = word.toNat := by omega
  rw [relocate, address, hword, Word.ofNat, BitVec.ofNat_toNat, BitVec.setWidth_eq]

/-- In the slot of an operation with an address the nine bits are the address. -/
theorem toNat_word_ofInstruction {build : Word → Operation} (hbuild : Operation.Addressing build)
    (predicate : Predicate) {address : Word} (h : address.toNat < memorySize) :
    (ofInstruction ⟨predicate, build address⟩).word.toNat =
      ((build 0).opcode.code * 8 + predicate.code) * 512 + address.toNat := by
  have hmod : address.toNat % 512 = address.toNat := Nat.mod_eq_of_lt h
  rw [ofInstruction, Instruction.toNat_word]
  cases hbuild <;> simp only [Instruction.opcode, Operation.opcode, Operation.field, hmod] <;> omega

theorem address_ofInstruction {build : Word → Operation} (hbuild : Operation.Addressing build)
    (predicate : Predicate) {address : Word} (h : address.toNat < memorySize) :
    (ofInstruction ⟨predicate, build address⟩).address = address.toNat := by
  have hsmall : address.toNat < 512 := h
  rw [Slot.address, toNat_word_ofInstruction hbuild predicate h]
  omega

/-- **An address that is moved is added to** in the slot. -/
theorem ofInstruction_moved {build : Word → Operation} (hbuild : Operation.Addressing build)
    (predicate : Predicate) {address : Word} {offset : Nat}
    (h : address.toNat + offset < memorySize) :
    ofInstruction ⟨predicate, build (Word.ofNat (address.toNat + offset))⟩ =
      (ofInstruction ⟨predicate, build address⟩).relocate offset := by
  have hsmall : address.toNat + offset < 512 := h
  have hoffset : (Word.ofNat (address.toNat + offset)).toNat = address.toNat + offset :=
    Word.toNat_ofNat_of_lt (by omega)
  have hstays := toNat_word_ofInstruction hbuild predicate (Nat.lt_of_le_of_lt (Nat.le_add_right ..) h)
  have hmoved := toNat_word_ofInstruction hbuild predicate (hoffset.symm ▸ h)
  rw [hoffset] at hmoved
  have hword : (ofInstruction ⟨predicate, build (Word.ofNat (address.toNat + offset))⟩).word =
      ((ofInstruction ⟨predicate, build address⟩).relocate offset).word := by
    have hlt := BitVec.isLt
      (ofInstruction ⟨predicate, build (Word.ofNat (address.toNat + offset))⟩).word
    apply BitVec.eq_of_toNat_eq
    rw [hmoved] at hlt ⊢
    rw [relocate, Slot.address, hstays, Word.toNat_ofNat]
    omega
  have htag : (ofInstruction ⟨predicate, build (Word.ofNat (address.toNat + offset))⟩).tag =
      (ofInstruction ⟨predicate, build address⟩).tag := by
    cases hbuild <;> rfl
  exact congrArg₂ Slot.mk hword htag

end Slot

namespace Statement

/-- The slot of a statement, with its address moved on if it is said by a label. -/
def link (offset : Nat) (s : Statement) (slot : Slot) : Slot :=
  if s.refersToLabel then slot.relocate offset else slot

/-- **How a statement is read when the labels have moved on.** -/
theorem instruction_of_moves {offset : Nat} {symbols symbols' : SymbolTable}
    (hmoves : symbols.Moves offset symbols') {s : Statement} {i : Instruction}
    (h : s.instruction symbols = .ok i) :
    (∃ i', s.instruction symbols' = .ok i' ∧
      Slot.ofInstruction i' = s.link offset (Slot.ofInstruction i)) ∧
      (s.refersToLabel = true → (Slot.ofInstruction i).address + offset < memorySize) := by
  cases haddress : s.address? with
  | none =>
    have hrefers : s.refersToLabel = false := by rw [refersToLabel, haddress]; rfl
    rw [link, hrefers]
    exact ⟨⟨i, instruction_of_no_address haddress symbols symbols' ▸ h, rfl⟩, nofun⟩
  | some f =>
    have hrefers : s.refersToLabel = f.isLabel := by rw [refersToLabel, haddress]; rfl
    obtain ⟨predicate, build, hbuild, hinstruction⟩ := instruction_of_address haddress
    rw [hinstruction] at h
    rw [link, hrefers, hinstruction]
    cases hread : readAddress symbols f with
    | error finding =>
      rw [hread] at h
      cases h
    | ok address =>
      rw [hread] at h
      cases h
      cases hlabel : f.isLabel with
      | false =>
        rw [← readAddress_of_number hlabel symbols symbols', hread]
        exact ⟨⟨_, rfl, rfl⟩, nofun⟩
      | true =>
        obtain ⟨hmoved, hmemory⟩ := readAddress_of_label hmoves hlabel hread
        rw [hmoved]
        refine ⟨⟨_, rfl, Slot.ofInstruction_moved hbuild predicate hmemory⟩, fun _ => ?_⟩
        rwa [Slot.address_ofInstruction hbuild predicate (fits_of_readAddress hread)]

end Statement

theorem length_of_instructions {symbols : SymbolTable} {ss : List Statement}
    {is : List Instruction} (h : ss.map (Statement.instruction symbols) = is.map .ok) :
    ss.length = is.length := by
  simpa using congrArg List.length h

theorem Statement.link_zero (s : Statement) (slot : Slot) : s.link 0 slot = slot := by
  unfold link
  split
  · exact slot.relocate_zero
  · rfl

/-- **How statements are read when the labels have moved on**: each as it was, but for the
addresses that are said by a label, and these stay in memory. -/
theorem instructions_of_moves {offset : Nat} {symbols symbols' : SymbolTable}
    (hmoves : symbols.Moves offset symbols') {ss : List Statement} {is : List Instruction}
    (h : ss.map (Statement.instruction symbols) = is.map .ok) :
    (∃ is' : List Instruction, ss.map (Statement.instruction symbols') = is'.map .ok ∧
      is'.map Slot.ofInstruction =
        List.zipWith (Statement.link offset) ss (is.map Slot.ofInstruction)) ∧
      ∀ pair ∈ ss.zip (is.map Slot.ofInstruction),
        pair.1.refersToLabel = true → pair.2.address + offset < memorySize := by
  induction ss generalizing is with
  | nil => exact ⟨⟨[], rfl, rfl⟩, nofun⟩
  | cons s rest ih =>
    obtain ⟨i, is, rfl, hi, hrest⟩ := List.map_eq_cons_iff.mp h.symm
    obtain ⟨⟨is', his', hslots⟩, hall⟩ := ih hrest.symm
    obtain ⟨⟨i', hi', hslot⟩, hone⟩ := Statement.instruction_of_moves hmoves hi.symm
    refine ⟨⟨i' :: is', ?_, ?_⟩, List.forall_mem_cons.mpr ⟨hone, hall⟩⟩
    · rw [List.map_cons, hi', his', List.map_cons]
    · rw [List.map_cons, hslot, hslots, List.map_cons, List.zipWith_cons_cons]

/-- Statements are read as they were when no label moves. -/
theorem instructions_of_moves_zero {symbols symbols' : SymbolTable}
    (hmoves : symbols.Moves 0 symbols') {ss : List Statement} {is : List Instruction}
    (h : ss.map (Statement.instruction symbols) = is.map .ok) :
    ∃ is' : List Instruction, ss.map (Statement.instruction symbols') = is'.map .ok ∧
      is'.map Slot.ofInstruction = is.map Slot.ofInstruction := by
  obtain ⟨⟨is', his', hslots⟩, -⟩ := instructions_of_moves hmoves h
  have hlink : Statement.link 0 = fun _ slot => slot :=
    funext fun s => funext fun slot => s.link_zero slot
  have hlength : (is.map Slot.ofInstruction).length ≤ ss.length := by
    rw [List.length_map, length_of_instructions h]
  have hsnd := List.map_snd_zip hlength
  rw [List.map_zip_eq_zipWith] at hsnd
  refine ⟨is', his', ?_⟩
  rw [hslots, hlink]
  exact hsnd

/-! ## 5. The program of the whole -/

/-- Labels of different names can stand in one source, as long as they stay in memory. -/
theorem Compatible.append {front back : List PlacedLabel} {offset : Nat}
    (hfront : Compatible front) (hback : Compatible back)
    (hnames : ∀ name ∈ (tableOf front).names, name ∉ (tableOf back).names)
    (hmemory : ∀ entry ∈ (tableOf back).entries, entry.2 + offset < memorySize) :
    Compatible (front ++ back.map (PlacedLabel.shift offset)) where
  definable l hmem := by
    obtain hmem | hmem := List.mem_append.mp hmem
    · exact hfront.definable l hmem
    · obtain ⟨l, hl, rfl⟩ := List.mem_map.mp hmem
      have hdefinable := hback.definable l hl
      exact ⟨hmemory l.symbol (List.mem_map_of_mem hl), hdefinable.identifier, hdefinable.free⟩
  distinct := by
    rw [tableOf_append, tableOf_shift, SymbolTable.names_append, SymbolTable.names_shift,
      List.nodup_append]
    refine ⟨hfront.distinct, hback.distinct, ?_⟩
    rintro name hname _ hother rfl
    exact hnames name hname hother

/-- **Sources link by concatenation.**  If both parts are assembled, no name is defined in both,
and the instructions and the labels of the whole stay in memory, then the whole is assembled.  Its
symbols and its slots are those of the part in front, and then those of the part behind, with the
size of the part in front added to each label, and to the address in each slot whose line is a
load, a store or a branch that says the address by a label. -/
theorem assemble_link {front back : String} {q p : Program} (hfront : assemble front = .ok q)
    (hback : assemble back = .ok p) (hnames : ∀ name ∈ q.symbols.names, name ∉ p.symbols.names)
    (hsize : q.size + p.size ≤ memorySize)
    (hsymbols : ∀ entry ∈ p.symbols.entries, entry.2 + q.size < memorySize) :
    assemble (front ++ "\n" ++ back) =
        .ok ⟨q.slots ++
              List.zipWith (Statement.link q.size) (instructionStatements back) p.slots,
            q.symbols.append (p.symbols.shift q.size)⟩ ∧
      (instructionStatements back).length = p.slots.length ∧
      ∀ pair ∈ (instructionStatements back).zip p.slots,
        pair.1.refersToLabel = true → pair.2.address + q.size < memorySize := by
  obtain ⟨hqlabels, -, qs, hqs, rfl⟩ := assemble_iff_statements.mp hfront
  obtain ⟨hplabels, -, ps, hps, rfl⟩ := assemble_iff_statements.mp hback
  have hqlength := length_of_instructions hqs
  have hplength := length_of_instructions hps
  have hqsize : (instructionStatements front).length =
      Program.size ⟨qs.map Slot.ofInstruction, tableOf (labelsOf front)⟩ := by
    rw [Program.size, List.length_map, hqlength]
  have hqmoves := SymbolTable.moves_append_left (tableOf (labelsOf front))
    ((tableOf (labelsOf back)).shift (instructionStatements front).length) fun entry hmem => by
      obtain ⟨l, hl, rfl⟩ := List.mem_map.mp hmem
      exact (hqlabels.definable l hl).inMemory
  -- Both parts are read against the table of the whole: the first as it was, the second moved on.
  rw [← hqsize] at hsize hsymbols ⊢
  have hpmoves := SymbolTable.moves_append_right hnames hsymbols
  obtain ⟨qs', hqs', hqslots⟩ := instructions_of_moves_zero hqmoves hqs
  obtain ⟨⟨ps', hps', hpslots⟩, hfields⟩ := instructions_of_moves hpmoves hps
  refine ⟨?_, ?_, hfields⟩
  · refine assemble_iff_statements.mpr ⟨?_, ?_, qs' ++ ps', ?_, ?_⟩
    · rw [labelsOf_append_line]
      exact hqlabels.append hplabels hnames hsymbols
    · rw [Program.size, List.length_map] at hsize
      rwa [instructionStatements_append_line, List.length_append, hplength]
    · rw [instructionStatements_append_line, labelsOf_append_line, tableOf_append, tableOf_shift,
        List.map_append, List.map_append, hqs', hps']
    · rw [labelsOf_append_line, tableOf_append, tableOf_shift, List.map_append, hqslots, hpslots]
  · rw [List.length_map, hplength]

/-- A source whose last label names what comes behind it. -/
def leadingSource : String := "start: b END\r\nend:"

/-- The program of `leadingSource`. -/
def leadingProgram : Program := ⟨[⟨0xC001, .branch⟩], ⟨[("START", 0), ("END", 1)]⟩⟩

/-- A source with an address that is a number and one that is a label. -/
def trailingSource : String := "ldr 0x1F0\nloop: (p1) b Loop"

/-- The program of `trailingSource`. -/
def trailingProgram : Program := ⟨[⟨0x01F0, .memory⟩, ⟨0xC601, .branch⟩], ⟨[("LOOP", 1)]⟩⟩

theorem assemble_link_looping :
    (assemble leadingSource = .ok leadingProgram ∧ assemble trailingSource = .ok trailingProgram ∧
      (∀ name ∈ leadingProgram.symbols.names, name ∉ trailingProgram.symbols.names) ∧
      leadingProgram.size + trailingProgram.size ≤ memorySize ∧
      ∀ entry ∈ trailingProgram.symbols.entries, entry.2 + leadingProgram.size < memorySize) ∧
    assemble "start: b END\r\nend:\nldr 0x1F0\nloop: (p1) b Loop" =
      .ok ⟨[⟨0xC001, .branch⟩, ⟨0x01F0, .memory⟩, ⟨0xC602, .branch⟩],
        ⟨[("START", 0), ("END", 1), ("LOOP", 2)]⟩⟩ := by
  have hleading : assemble leadingSource = .ok leadingProgram := by decide +kernel
  have htrailing : assemble trailingSource = .ok trailingProgram := by decide +kernel
  refine ⟨⟨hleading, htrailing, by decide, by decide, by decide⟩, ?_⟩
  exact (assemble_link hleading htrailing (by decide) (by decide) (by decide)).1

end PredicatedCpu

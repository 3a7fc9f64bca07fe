/-
# What is assembled is well formed

Whatever is done with a program goes by its parts: a slot is put at each address, a slot is
fetched and decoded, a symbol is looked up or shown at its address.  All of it relies on the parts
being in order, which is checked nowhere once a program is there.  A program that was assembled is
in order, because nothing that is out of order gets through the assembler.

* `reservedNames`, `isUpperIdentifier`: the names that a symbol cannot have, and those it can;
* `Slot.IsOf`: the slot that the instruction of a line is assembled to;
* `Program.WellFormed`: a program that is in order, and belongs to its source line by line;
* `wellFormed_of_assemble`: every program that is assembled is.
-/
import Mathlib
import PredicatedCpu.Proofs.Assembly.Lines

namespace PredicatedCpu

/-! ## 1. Names of symbols -/

/-- The names that mean something in an instruction, in upper case. -/
def reservedNames : List String :=
  Register.all.map Register.name ++ PredicateRegister.all.map PredicateRegister.name ++
    Condition.all.map Condition.name ++ ["HS", "LO"] ++ Opcode.all.map Opcode.mnemonic ++ ["AL"]

example : reservedNames =
    ["R0", "R1", "R2", "R3", "R4", "R5", "R6", "R7", "P0", "P1", "P2", "P3",
      "EQ", "NE", "CS", "CC", "MI", "PL", "VS", "VC", "HI", "LS", "GE", "LT", "GT", "LE",
      "HS", "LO", "LDR", "STR", "ADD", "SUB", "AND", "ORR", "XOR", "MOV", "CMP", "LSHL", "LSHR",
      "SETP", "B", "HLT", "AL"] := by
  decide

/-- A condition can be said by its name, and two of them by a second one. -/
theorem Condition.isSome_ofName? {name : String}
    (h : (∃ c ∈ Condition.all, c.name = Text.upper name) ∨
      Text.upper name = "HS" ∨ Text.upper name = "LO") :
    (Condition.ofName? name).isSome = true := by
  unfold Condition.ofName?
  by_cases hhs : Text.upper name = "HS"
  · simp only [if_pos hhs, Option.isSome_some]
  · by_cases hlo : Text.upper name = "LO"
    · simp only [if_neg hhs, if_pos hlo, Option.isSome_some]
    · obtain ⟨c, hc, hname⟩ := h.resolve_right (not_or.mpr ⟨hhs, hlo⟩)
      simp only [if_neg hhs, if_neg hlo, List.find?_isSome, beq_iff_eq]
      exact ⟨c, hc, hname⟩

/-- Every one of these names is reserved, in either case. -/
theorem isReserved_of_mem {name : String} (h : Text.upper name ∈ reservedNames) :
    isReserved name = true := by
  simp only [reservedNames, List.mem_append, List.mem_map, List.mem_cons, List.not_mem_nil,
    or_false] at h
  simp only [isReserved, Bool.or_eq_true, Register.ofName?, PredicateRegister.ofName?,
    Opcode.ofName?, List.find?_isSome, beq_iff_eq]
  rcases h with ((((hregister | hpredicate) | hcondition) | hsecond) | hopcode) | halways
  · exact .inl (.inl (.inl (.inl hregister)))
  · exact .inl (.inl (.inl (.inr hpredicate)))
  · exact .inl (.inl (.inr (Condition.isSome_ofName? (.inl hcondition))))
  · exact .inl (.inl (.inr (Condition.isSome_ofName? (.inr hsecond))))
  · exact .inl (.inr hopcode)
  · exact .inr halways

/-- Whether a text is an identifier in upper case: of the letters `A` to `Z`, the digits and the
underscore, and no digit first. -/
def isUpperIdentifier : List Char → Bool
  | [] => false
  | c :: rest =>
    (c.isUpper || c == '_') && rest.all fun d => d.isUpper || d.isDigit || d == '_'

theorem isUpper_or_underscore_toUpper {c : Char} (h : isIdentifierStart c = true) :
    (c.toUpper.isUpper || c.toUpper == '_') = true := by
  rw [isIdentifierStart, Bool.or_eq_true] at h
  rw [Char.isUpper_toUpper_eq_isAlpha, Bool.or_eq_true]
  refine h.imp_right fun hunderscore => ?_
  rw [beq_iff_eq.mp hunderscore]
  decide

theorem toUpper_of_isDigit {c : Char} (h : c.isDigit = true) : c.toUpper = c := by
  refine Char.toUpper_eq_of_not_isLower fun hlower => ?_
  simp only [Char.isDigit, Char.isLower, Bool.and_eq_true, decide_eq_true_eq] at h hlower
  have hle : 'a'.val ≤ '9'.val := UInt32.le_trans hlower.1 h.2
  exact absurd hle (by decide)

/-- An identifier is one in upper case when its letters are. -/
theorem isUpperIdentifier_map_toUpper {cs : List Char} (h : isIdentifier cs = true) :
    isUpperIdentifier (cs.map Char.toUpper) = true := by
  cases cs with
  | nil => cases h
  | cons c rest =>
    rw [isIdentifier, Bool.and_eq_true, List.all_eq_true] at h
    rw [List.map_cons, isUpperIdentifier, Bool.and_eq_true, List.all_eq_true]
    refine ⟨isUpper_or_underscore_toUpper h.1, ?_⟩
    rw [List.forall_mem_map]
    intro d hd
    have hpart := h.2 d hd
    rw [isIdentifierPart, Char.isAlphanum, Bool.or_assoc, Bool.or_eq_true, Bool.or_eq_true] at hpart
    rcases hpart with halpha | hdigit | hunderscore
    · rw [Char.isUpper_toUpper_eq_isAlpha, halpha]
      rfl
    · rw [toUpper_of_isDigit hdigit, hdigit, Bool.or_true]
      rfl
    · rw [beq_iff_eq.mp hunderscore]
      decide

/-! ## 2. Programs in order -/

/-- Whether a slot is what the instruction of a line is assembled to. -/
def Slot.IsOf (symbols : SymbolTable) (line : SourceLine) (slot : Slot) : Prop :=
  ∃ (body : Fragment) (i : Instruction), body.chars = line.instructionText ∧
    readInstruction symbols body = .ok i ∧ i.encode = (slot.word, slot.tag)

/-- The name that a line defines, if it has a label. -/
def SourceLine.definedName? (line : SourceLine) : Option String :=
  line.label?.map fun label => Text.upper (String.ofList label)

/-- Whether a program is **well formed**, with respect to the source that it comes from. -/
structure Program.WellFormed (source : String) (p : Program) : Prop where
  /-- The program fits in memory. -/
  inMemory : p.size ≤ memorySize
  /-- There is a slot for each line with an instruction, in the order of the lines. -/
  slots : List.Forall₂ (Slot.IsOf p.symbols)
    ((sourceLines source).filter SourceLine.hasInstruction) p.slots
  /-- Every slot holds an instruction, in its own word and with its own tag. -/
  decodes : ∀ slot ∈ p.slots,
    slot.tag ≠ .error ∧ ∃ i, slot.decode = .ok i ∧ i.encode = (slot.word, slot.tag)
  /-- There is a symbol for each line with a label, in the order of the lines. -/
  names : p.symbols.names = (sourceLines source).filterMap SourceLine.definedName?
  /-- No two symbols have one name. -/
  distinct : p.symbols.names.Nodup
  /-- A name is an identifier in upper case. -/
  identifiers : ∀ name ∈ p.symbols.names, isUpperIdentifier name.toList = true
  /-- A name means nothing in an instruction. -/
  free : ∀ name ∈ p.symbols.names, name ∉ reservedNames
  /-- A symbol stands for the number of instruction lines before the line that defines it. -/
  addresses : ∀ name address, (name, address) ∈ p.symbols.entries ↔
    ∃ before line after, sourceLines source = before ++ line :: after ∧
      line.definedName? = some name ∧ address = before.countP SourceLine.hasInstruction
  /-- A symbol stands for an address of memory, at most the first one behind the program. -/
  inRange : ∀ entry ∈ p.symbols.entries, entry.2 ≤ min p.size (memorySize - 1)
  /-- The symbols stand in the order of their addresses. -/
  ascending : (p.symbols.entries.map Prod.snd).Pairwise (· ≤ ·)

/-! ## 3. Slots and symbols of a source -/

/-- **Slots belong to lines**: where the instructions of lines can be read, they are put into slots
in their order.  The induction is on the lines; one without an instruction has no slot. -/
theorem forall₂_isOf {symbols : SymbolTable} {lines : List SourceLine} {is : List Instruction}
    (h : ((statementsOf lines).filter Statement.isInstruction).map (Statement.instruction symbols) =
      is.map .ok) :
    List.Forall₂ (Slot.IsOf symbols) (lines.filter SourceLine.hasInstruction)
      (is.map Slot.ofInstruction) := by
  induction lines generalizing is with
  | nil =>
    obtain rfl : is = [] := by simpa [statementsOf] using h.symm
    exact .nil
  | cons line rest ih =>
    have hinstruction := line.says_ofLine?.isInstruction
    have hbody := line.says_ofLine?.body
    rw [statementsOf, List.filterMap_cons] at h
    cases hline : Statement.ofLine? line.chars with
    | none =>
      rw [hline] at h hinstruction
      have hnone : ¬ line.hasInstruction = true := by
        rw [← hinstruction]
        exact Bool.false_ne_true
      rw [List.filter_cons_of_neg hnone]
      exact ih h
    | some s =>
      rw [hline] at h hinstruction hbody
      rw [← statementsOf] at h
      cases hs : s.isInstruction with
      | false =>
        rw [Option.any_some, hs] at hinstruction
        rw [List.filter_cons_of_neg (by rw [hs]; decide)] at h
        rw [List.filter_cons_of_neg (by rw [← hinstruction]; decide)]
        exact ih h
      | true =>
        rw [Option.any_some, hs] at hinstruction
        rw [List.filter_cons_of_pos hs, List.map_cons] at h
        rw [List.filter_cons_of_pos hinstruction.symm]
        obtain ⟨i, is, rfl, hi, hrest⟩ := List.map_eq_cons_iff.mp h.symm
        exact .cons ⟨s.body, i, hbody, hi.symm, rfl⟩ (ih hrest.symm)

/-- The names of the symbols are those that the lines define. -/
theorem names_tableOf_labelsOf (source : String) :
    (tableOf (labelsOf source)).names =
      (sourceLines source).filterMap SourceLine.definedName? := by
  have hnames := names_labelsFrom 0 (sourceLines source)
  rw [← statements_eq_statementsOf, ← labelsOf] at hnames
  have hdefined : SourceLine.definedName? =
      fun line => line.label?.map fun label => Text.upper (String.ofList label) := rfl
  rw [hdefined, ← List.map_filterMap, ← hnames, List.map_map, SymbolTable.names, tableOf,
    List.map_map]
  rfl

/-- A line with a label defines a symbol for the number of instruction lines before it. -/
theorem mem_entries_of_definedName? {source : String} {before after : List SourceLine}
    {line : SourceLine} {name : String} (h : sourceLines source = before ++ line :: after)
    (hname : line.definedName? = some name) :
    (name, before.countP SourceLine.hasInstruction) ∈ (tableOf (labelsOf source)).entries := by
  obtain ⟨label, hlabel, rfl⟩ := Option.map_eq_some_iff.mp hname
  obtain ⟨l, hl, hchars, haddress⟩ := exists_label_of_line h hlabel
  refine List.mem_map.mpr ⟨l, hl, ?_⟩
  rw [PlacedLabel.symbol, Fragment.text, hchars, haddress]

/-- **A symbol stands for the number of instruction lines before its definition**, and nothing
else is a symbol. -/
theorem mem_entries_iff {source : String} (hdistinct : (tableOf (labelsOf source)).names.Nodup)
    {name : String} {address : Nat} :
    (name, address) ∈ (tableOf (labelsOf source)).entries ↔
      ∃ before line after, sourceLines source = before ++ line :: after ∧
        line.definedName? = some name ∧ address = before.countP SourceLine.hasInstruction := by
  constructor
  · intro h
    have hmem : name ∈ (tableOf (labelsOf source)).names := List.mem_map_of_mem h
    rw [names_tableOf_labelsOf, List.mem_filterMap] at hmem
    obtain ⟨line, hline, hname⟩ := hmem
    obtain ⟨before, after, hlines⟩ := List.mem_iff_append.mp hline
    refine ⟨before, line, after, hlines, hname, ?_⟩
    -- The line has an entry of its own, and there is only one with this name.
    have hentry := mem_entries_of_definedName? hlines hname
    exact (Prod.mk.inj (List.inj_on_of_nodup_map hdistinct h hentry rfl)).2
  · rintro ⟨before, line, after, hlines, hname, rfl⟩
    exact mem_entries_of_definedName? hlines hname

/-! ## 4. What is assembled -/

/-- A slot of an instruction that fits holds just this instruction. -/
theorem Slot.decodes_ofInstruction {i : Instruction} (h : i.Fits) :
    (Slot.ofInstruction i).tag ≠ .error ∧ ∃ i', (Slot.ofInstruction i).decode = .ok i' ∧
      i'.encode = ((Slot.ofInstruction i).word, (Slot.ofInstruction i).tag) := by
  have hdecode := Slot.decode_ofInstruction h
  refine ⟨fun htag => ?_, i, hdecode, rfl⟩
  rw [Slot.decode, htag, decode_of_unreadable (.noInstruction rfl)] at hdecode
  cases hdecode

/-- **What is assembled is well formed.**  Its slots are at most as many as memory has words, one
for each line with an instruction, and each of them holds the instruction of its line and nothing
else.  Its symbols have names of their own that mean nothing else, one for each line with a label,
and each of them stands for the number of instruction lines before this line: an address of memory
inside the program or just behind it, and one that does not descend from symbol to symbol. -/
theorem wellFormed_of_assemble {source : String} {p : Program} (h : assemble source = .ok p) :
    p.WellFormed source := by
  obtain ⟨⟨hdefinable, hdistinct⟩, hlength, is, his, rfl⟩ := assemble_iff_statements.mp h
  obtain ⟨is', -, hslots, hfits, -⟩ := exists_instructions_of_assemble h
  have hsize : is.length = (instructionStatements source).length := by
    rw [← List.length_map Except.ok, ← his, List.length_map]
  have hsymbol : ∀ name ∈ (tableOf (labelsOf source)).names,
      ∃ l ∈ labelsOf source, Text.upper l.name.text = name := by
    intro name hname
    rw [SymbolTable.names, tableOf, List.map_map, List.mem_map] at hname
    exact hname
  refine ⟨?_, ?_, ?_, names_tableOf_labelsOf source, hdistinct, ?_, ?_,
    fun name address => mem_entries_iff hdistinct, ?_, ?_⟩
  · rw [Program.size, List.length_map, hsize]
    exact hlength
  · rw [instructionStatements, statements_eq_statementsOf] at his
    exact forall₂_isOf his
  · rw [hslots, List.forall_mem_map]
    exact fun i hmem => Slot.decodes_ofInstruction (hfits i hmem)
  · intro name hname
    obtain ⟨l, hl, rfl⟩ := hsymbol name hname
    rw [Text.toList_upper, Fragment.toList_text]
    exact isUpperIdentifier_map_toUpper (hdefinable l hl).identifier
  · intro name hname hreserved
    obtain ⟨l, hl, rfl⟩ := hsymbol name hname
    have hfree := (hdefinable l hl).free
    rw [isReserved_of_mem hreserved] at hfree
    cases hfree
  · simp only [tableOf, List.forall_mem_map, PlacedLabel.symbol]
    intro l hl
    have hmemory : l.address < 512 := (hdefinable l hl).inMemory
    have hle := (address_of_mem_labelsFrom hl).2
    rw [← instructionStatements, ← hsize, Nat.zero_add] at hle
    rw [Program.size, List.length_map]
    exact Nat.le_min.mpr ⟨hle, Nat.le_sub_one_of_lt hmemory⟩
  · rw [tableOf, List.map_map, List.pairwise_map]
    exact labelsFrom_ascend 0 (statements source)

/-- A source with two labels for one address, a label behind the last instruction, a comment with a
colon in it, and two kinds of line endings. -/
def twiceLabelledSource : String :=
  "start:\r\n Loop : add r0, r0, #1 ; as: is\n\n(p1) b LOOP\nend:"

/-- The program of `twiceLabelledSource`. -/
def twiceLabelledProgram : Program :=
  ⟨[⟨0x2001, .immediateAlu⟩, ⟨0xC600, .branch⟩], ⟨[("START", 0), ("LOOP", 0), ("END", 2)]⟩⟩

/-- It has two instruction lines and three that define a name. -/
theorem wellFormed_of_assemble_twiceLabelled :
    assemble twiceLabelledSource = .ok twiceLabelledProgram ∧
      twiceLabelledProgram.WellFormed twiceLabelledSource ∧
        ((sourceLines twiceLabelledSource).filter SourceLine.hasInstruction).length =
          twiceLabelledProgram.size ∧
        (sourceLines twiceLabelledSource).filterMap SourceLine.definedName? =
          ["START", "LOOP", "END"] := by
  have hassemble : assemble twiceLabelledSource = .ok twiceLabelledProgram := by decide +kernel
  have hwell := wellFormed_of_assemble hassemble
  exact ⟨hassemble, hwell, hwell.slots.length_eq, hwell.names.symm⟩

end PredicatedCpu

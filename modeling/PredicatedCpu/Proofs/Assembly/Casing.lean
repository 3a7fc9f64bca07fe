/-
# Sources may be written in either case

A source has letters in mnemonics, in the names of registers, predicates and conditions, in radix
marks and hexadecimal digits, and in labels, where they are defined and where they are used.  Each
of these is compared by a function of its own, and each of them has to fold the case away: one that
did not would make a source fail, or a label resolve to another place, depending on how it is
written.

What is done to a source is therefore followed through from its lines to its program, and every
function on the way is shown to do the same to the source in upper case: where it succeeds it
returns the same, and where it fails it complains of the same at the same place, quoting the source
in upper case.

* `Problem.upper`, `Finding.upper`, `Diagnostic.upper`: what is wrong, quoted in upper case;
* `readInstruction_upper`, `entries_upper`, `carries_upper`: one lemma for each function;
* `assemble_upper`: a source in upper case is assembled like the source itself;
* `assemble_caseInsensitive`: so are two sources that differ in nothing but case.
-/
import PredicatedCpu.Proofs.Assembly.Order
import PredicatedCpu.Proofs.Text.Casing

namespace PredicatedCpu

open Text

/-! ## 1. What is wrong, in upper case -/

/-- A problem whose quotations are in upper case. -/
def Problem.upper : Problem → Problem
  | labelPastEnd name address => labelPastEnd (Text.upper name) address
  | malformedLabel name => malformedLabel (Text.upper name)
  | reservedLabel name => reservedLabel (Text.upper name)
  | duplicateLabel name existing => duplicateLabel (Text.upper name) existing
  | programTooLarge instructions => programTooLarge instructions
  | unclosedPredicate => unclosedPredicate
  | unknownPredicate text => unknownPredicate (Text.upper text)
  | missingInstruction => missingInstruction
  | unknownMnemonic text => unknownMnemonic (Text.upper text)
  | operandCount opcode found => operandCount opcode found
  | notRegister text => notRegister (Text.upper text)
  | notOperand text => notOperand (Text.upper text)
  | malformedImmediate text => malformedImmediate (Text.upper text)
  | wideImmediate text => wideImmediate (Text.upper text)
  | malformedAddress text => malformedAddress (Text.upper text)
  | undefinedLabel text => undefinedLabel (Text.upper text)
  | farAddress text => farAddress (Text.upper text)
  | unknownCondition text => unknownCondition (Text.upper text)
  | readOnlyPredicate => readOnlyPredicate
  | notPredicateRegister text => notPredicateRegister (Text.upper text)

/-- The kind of a problem has nothing to do with what it quotes. -/
theorem Problem.category_upper (p : Problem) : p.upper.category = p.category := by
  cases p <;> rfl

/-- A finding whose quotations are in upper case. -/
def Finding.upper (finding : Finding) : Finding := ⟨finding.problem.upper, finding.span⟩

/-- A diagnostic whose quotations are in upper case. -/
def Diagnostic.upper (d : Diagnostic) : Diagnostic := ⟨d.problem.upper, d.line, d.span⟩

theorem Fragment.finding_upper (f : Fragment) (problem : Problem) :
    f.upper.finding problem.upper = (f.finding problem).upper := by
  simp [Fragment.finding, Finding.upper]

/-- The reading of a text in upper case: what is read is the same, and what is wrong is quoted in
upper case. -/
def quotedUpper {α : Type} (result : Except Finding α) : Except Finding α :=
  result.mapError Finding.upper

@[simp] theorem quotedUpper_ok {α : Type} (a : α) : quotedUpper (.ok a) = .ok a := rfl

@[simp] theorem quotedUpper_error {α : Type} (finding : Finding) :
    quotedUpper (.error finding : Except Finding α) = .error finding.upper := rfl

theorem quotedUpper_bind {α β : Type} (x : Except Finding α) (f : α → Except Finding β) :
    quotedUpper (x >>= f) = quotedUpper x >>= fun a => quotedUpper (f a) := by
  cases x <;> rfl

/-! ## 2. Names -/

theorem Register.ofName?_upper (name : String) :
    Register.ofName? (Text.upper name) = Register.ofName? name := by
  rw [Register.ofName?, upper_upper, Register.ofName?]

theorem PredicateRegister.ofName?_upper (name : String) :
    PredicateRegister.ofName? (Text.upper name) = PredicateRegister.ofName? name := by
  rw [PredicateRegister.ofName?, upper_upper, PredicateRegister.ofName?]

theorem Condition.ofName?_upper (name : String) :
    Condition.ofName? (Text.upper name) = Condition.ofName? name := by
  rw [Condition.ofName?, upper_upper, Condition.ofName?]

theorem Opcode.ofName?_upper (name : String) :
    Opcode.ofName? (Text.upper name) = Opcode.ofName? name := by
  rw [Opcode.ofName?, upper_upper, Opcode.ofName?]

theorem Predicate.ofText?_upper (text : String) :
    Predicate.ofText? (Text.upper text) = Predicate.ofText? text := by
  have hkey : Text.upper (String.ofList (trim (Text.upper text).toList)) =
      Text.upper (String.ofList (trim text.toList)) := by
    rw [toList_upper, trim_upper, ofList_upper, upper_upper]
  rw [Predicate.ofText?, hkey, Predicate.ofText?]

theorem isReserved_upper (name : String) : isReserved (Text.upper name) = isReserved name := by
  rw [isReserved, Register.ofName?_upper, PredicateRegister.ofName?_upper, Condition.ofName?_upper,
    Opcode.ofName?_upper, upper_upper, isReserved]

theorem isIdentifier_upper (cs : List Char) :
    isIdentifier (cs.map Char.toUpper) = isIdentifier cs := by
  have hunderscore : ∀ c : Char, (c.toUpper == '_') = (c == '_') := caseBlind_eq (by decide)
  have hstart : CaseBlind isIdentifierStart := by
    intro c
    rw [isIdentifierStart, Char.isAlpha_toUpper_eq_isAlpha, hunderscore c, isIdentifierStart]
  have hpart : CaseBlind isIdentifierPart := by
    intro c
    rw [isIdentifierPart, Char.isAlphanum, Char.isAlpha_toUpper_eq_isAlpha, caseBlind_isDigit c,
      hunderscore c, isIdentifierPart, Char.isAlphanum]
  cases cs with
  | nil => rfl
  | cons c rest =>
    rw [List.map_cons, isIdentifier, isIdentifier, hstart c, List.all_map, hpart.comp_toUpper]

namespace SymbolTable

theorem get?_upper (table : SymbolTable) (name : String) :
    table.get? (Text.upper name) = table.get? name := by
  rw [get?, upper_upper, get?]

theorem insert_upper (table : SymbolTable) (name : String) (address : Nat) :
    table.insert (Text.upper name) address = table.insert name address := by
  rw [insert, get?_upper, upper_upper, insert]

end SymbolTable

/-! ## 3. Reading an instruction -/

theorem readRegister_upper (f : Fragment) : readRegister f.upper = quotedUpper (readRegister f) := by
  rw [readRegister, Fragment.text_upper, Register.ofName?_upper, readRegister]
  cases Register.ofName? f.text with
  | some r => rfl
  | none => exact congrArg Except.error (f.finding_upper (.notRegister f.text))

theorem readImmediate_upper (f : Fragment) (digits : List Char) :
    readImmediate f.upper (digits.map Char.toUpper) = quotedUpper (readImmediate f digits) := by
  rw [readImmediate, numeralBelow?_upper, Fragment.text_upper, readImmediate]
  cases numeralBelow? (.pow 2 32) .all digits with
  | none => exact congrArg Except.error (f.finding_upper (.malformedImmediate f.text))
  | some value =>
    simp only
    split
    · exact congrArg Except.error (f.finding_upper (.wideImmediate f.text))
    · rfl

theorem readOperand_of_name {f : Fragment} (h : f.chars.head? ≠ some '#') :
    readOperand f = match Register.ofName? f.text with
      | some r => .ok (.register r)
      | none => .error (f.finding (.notOperand f.text)) := by
  unfold readOperand
  split
  · rename_i hchars
    exact absurd (by rw [hchars]; rfl) h
  · rfl

theorem readOperand_upper (f : Fragment) : readOperand f.upper = quotedUpper (readOperand f) := by
  by_cases h : f.chars.head? = some '#'
  · obtain ⟨start, chars⟩ := f
    obtain ⟨digits, rfl⟩ := List.head?_eq_some_iff.mp h
    exact readImmediate_upper ⟨start, '#' :: digits⟩ digits
  · rw [readOperand_of_name h,
      readOperand_of_name (mt (Fragment.head?_upper_iff (by decide)).mp h), Fragment.text_upper,
      Register.ofName?_upper]
    cases Register.ofName? f.text with
    | some r => rfl
    | none => exact congrArg Except.error (f.finding_upper (.notOperand f.text))

theorem addressValue_upper (symbols : SymbolTable) (f : Fragment) :
    addressValue symbols f.upper = quotedUpper (addressValue symbols f) := by
  have hdigit : (f.upper.chars.head?.map Char.isDigit) = f.chars.head?.map Char.isDigit := by
    rw [Fragment.chars_upper, List.head?_map, Option.map_map, caseBlind_isDigit.comp_toUpper]
  rw [addressValue, hdigit, Fragment.chars_upper, numeralBelow?_upper, isIdentifier_upper,
    Fragment.text_upper, SymbolTable.get?_upper, addressValue]
  split
  · cases numeralBelow? (.pow 2 32) .hex f.chars with
    | some value => rfl
    | none => exact congrArg Except.error (f.finding_upper (.malformedAddress f.text))
  · split
    · cases symbols.get? f.text with
      | some address => rfl
      | none => exact congrArg Except.error (f.finding_upper (.undefinedLabel f.text))
    · exact congrArg Except.error (f.finding_upper (.malformedAddress f.text))

theorem readAddress_upper (symbols : SymbolTable) (f : Fragment) :
    readAddress symbols f.upper = quotedUpper (readAddress symbols f) := by
  rw [readAddress, addressValue_upper, Fragment.text_upper, readAddress, quotedUpper_bind]
  congr 1
  funext value
  split
  · rfl
  · exact congrArg Except.error (f.finding_upper (.farAddress f.text))

theorem readCondition_upper (f : Fragment) :
    readCondition f.upper = quotedUpper (readCondition f) := by
  rw [readCondition, Fragment.text_upper, Condition.ofName?_upper, readCondition]
  cases Condition.ofName? f.text with
  | some condition => rfl
  | none => exact congrArg Except.error (f.finding_upper (.unknownCondition f.text))

theorem readDestination_upper (f : Fragment) :
    readDestination f.upper = quotedUpper (readDestination f) := by
  rw [readDestination, Fragment.text_upper, PredicateRegister.ofName?_upper, readDestination]
  cases PredicateRegister.ofName? f.text with
  | none => exact congrArg Except.error (f.finding_upper (.notPredicateRegister f.text))
  | some p =>
    simp only
    split
    · exact congrArg Except.error (f.finding_upper .readOnlyPredicate)
    · rfl

theorem splitOperands_upper (f : Fragment) :
    splitOperands f.upper = (splitOperands f).map Fragment.upper := by
  rw [splitOperands, Fragment.isEmpty_upper, Fragment.splitOn_upper (by decide), List.map_map,
    splitOperands]
  split
  · rfl
  · rw [List.map_map]
    congr 1
    funext piece
    exact piece.trim_upper

theorem readOperation_upper (symbols : SymbolTable) (miscounted : Finding) (opcode : Opcode)
    (fragments : List Fragment) :
    readOperation symbols miscounted.upper opcode (fragments.map Fragment.upper) =
      quotedUpper (readOperation symbols miscounted opcode fragments) := by
  rcases fragments with _ | ⟨first, _ | ⟨second, _ | ⟨third, _ | ⟨fourth, rest⟩⟩⟩⟩
  -- How many operands there are decides, with the opcode, which reading applies.
  case nil => cases opcode <;> rfl
  case cons.nil =>
    cases opcode
    case ldr | str | b =>
      simp only [List.map_cons, List.map_nil, readOperation, readAddress_upper, quotedUpper_bind]
      rfl
    all_goals rfl
  case cons.cons.nil =>
    cases opcode
    case cmp =>
      simp only [List.map_cons, List.map_nil, readOperation, readRegister_upper,
        readOperand_upper, quotedUpper_bind]
      rfl
    case setp =>
      simp only [List.map_cons, List.map_nil, readOperation, readCondition_upper,
        readDestination_upper, quotedUpper_bind]
      rfl
    all_goals rfl
  case cons.cons.cons.nil =>
    cases opcode
    case alu op =>
      simp only [List.map_cons, List.map_nil, readOperation, readRegister_upper,
        readOperand_upper, quotedUpper_bind]
      rfl
    all_goals rfl
  case cons.cons.cons.cons => cases opcode <;> rfl

theorem readOperationOf_upper (symbols : SymbolTable) (mnemonic operands : Fragment) :
    readOperationOf symbols mnemonic.upper operands.upper =
      quotedUpper (readOperationOf symbols mnemonic operands) := by
  rw [readOperationOf, Fragment.text_upper, Opcode.ofName?_upper, readOperationOf]
  cases Opcode.ofName? mnemonic.text with
  | none => exact congrArg Except.error (mnemonic.finding_upper (.unknownMnemonic mnemonic.text))
  | some opcode =>
    simp only [splitOperands_upper, List.length_map, Fragment.isEmpty_upper]
    rw [← readOperation_upper]
    congr 1
    split <;> exact Fragment.finding_upper _ (.operandCount opcode _)

/-- What stands in parentheses in front of an instruction is its predicate. -/
theorem readPredicate_of_guarded {body : Fragment} (h : body.chars.head? = some '(') :
    readPredicate body =
      match body.splitFirst? (· == ')') with
      | none => .error (body.finding .unclosedPredicate)
      | some (opened, rest) =>
        match Predicate.ofText? (String.ofList (opened.chars.drop 1)) with
        | some predicate => .ok (predicate, rest.trimStart)
        | none =>
          .error ⟨.unknownPredicate (String.ofList (trim (opened.chars.drop 1))),
            ⟨body.start, rest.start - body.start⟩⟩ := by
  obtain ⟨rest, hchars⟩ := List.head?_eq_some_iff.mp h
  unfold readPredicate
  split
  · cases body.splitFirst? (· == ')') with
    | none => rfl
    | some parts =>
      obtain ⟨opened, rest⟩ := parts
      cases hpredicate : Predicate.ofText? (String.ofList (opened.chars.drop 1)) <;>
        simp only [hpredicate]
  · rename_i hother
    exact absurd hchars (hother rest)

theorem readPredicate_of_unguarded {body : Fragment} (h : body.chars.head? ≠ some '(') :
    readPredicate body = .ok (.always, body) := by
  unfold readPredicate
  split
  · rename_i hchars
    exact absurd (by rw [hchars]; rfl) h
  · rfl

theorem readPredicate_upper (body : Fragment) :
    readPredicate body.upper =
      quotedUpper ((readPredicate body).map (Prod.map id Fragment.upper)) := by
  by_cases h : body.chars.head? = some '('
  · rw [readPredicate_of_guarded h,
      readPredicate_of_guarded ((Fragment.head?_upper_iff (by decide)).mpr h),
      Fragment.splitFirst?_upper (caseBlind_eq (by decide))]
    cases body.splitFirst? (· == ')') with
    | none => exact congrArg Except.error (body.finding_upper .unclosedPredicate)
    | some parts =>
      obtain ⟨opened, rest⟩ := parts
      have hinner : (opened.upper.chars.drop 1) = (opened.chars.drop 1).map Char.toUpper :=
        (List.map_drop ..).symm
      simp only [Option.map_some, Prod.map_apply, hinner, ofList_upper, Predicate.ofText?_upper,
        trim_upper, Fragment.trimStart_upper]
      cases Predicate.ofText? (String.ofList (opened.chars.drop 1)) with
      | some predicate => rfl
      | none => rfl
  · rw [readPredicate_of_unguarded h,
      readPredicate_of_unguarded (mt (Fragment.head?_upper_iff (by decide)).mp h)]
    rfl

theorem splitMnemonic_upper (f : Fragment) :
    splitMnemonic f.upper = Prod.map Fragment.upper Fragment.upper (splitMnemonic f) := by
  rw [splitMnemonic, Fragment.splitFirst?_upper caseBlind_isBlank, splitMnemonic]
  cases f.splitFirst? isBlank with
  | none => simp [Fragment.upper, Fragment.stop, byteWidth_upper]
  | some parts => simp [Fragment.trim_upper]

/-- **An instruction may be written in either case.** -/
theorem readInstruction_upper (symbols : SymbolTable) (body : Fragment) :
    readInstruction symbols body.upper = quotedUpper (readInstruction symbols body) := by
  rw [readInstruction, readPredicate_upper, readInstruction, quotedUpper_bind]
  cases readPredicate body with
  | error finding => rfl
  | ok parts =>
    obtain ⟨predicate, rest⟩ := parts
    rcases hsplit : splitMnemonic rest with ⟨mnemonic, operands⟩
    have hupper : splitMnemonic rest.upper = (mnemonic.upper, operands.upper) := by
      rw [splitMnemonic_upper, hsplit]
      rfl
    simp only [Except.map, quotedUpper_ok, bind, Except.bind, Prod.map_apply, id_eq, hupper, hsplit,
      Fragment.isEmpty_upper, readOperationOf_upper]
    split
    · exact congrArg Except.error (body.finding_upper .missingInstruction)
    · cases readOperationOf symbols mnemonic operands <;> rfl

/-! ## 4. Statements -/

/-- A line in upper case. -/
def SourceLine.upper (line : SourceLine) : SourceLine :=
  { line with chars := line.chars.map Char.toUpper }

/-- A statement in upper case. -/
def Statement.upper (s : Statement) : Statement := ⟨s.label?.map Fragment.upper, s.body.upper⟩

/-- A statement in upper case, in the same place. -/
def Entry.upper (e : Entry) : Entry := { e with statement := e.statement.upper }

theorem dropReturn_upper (cs : List Char) :
    dropReturn (cs.map Char.toUpper) = (dropReturn cs).map Char.toUpper := by
  have hlast : (cs.map Char.toUpper).getLast? = some '\r' ↔ cs.getLast? = some '\r' := by
    simp only [List.getLast?_map, Option.map_eq_some_iff,
      toUpper_eq_iff (show '\r'.isAlpha = false by decide), exists_eq_right]
  unfold dropReturn
  by_cases h : cs.getLast? = some '\r'
  · rw [if_pos h, if_pos (hlast.mpr h), List.map_dropLast]
  · rw [if_neg h, if_neg (mt hlast.mp h)]

theorem numberLines_upper (number start : Nat) (pieces : List (List Char)) :
    numberLines number start (pieces.map (List.map Char.toUpper)) =
      (numberLines number start pieces).map SourceLine.upper := by
  induction pieces generalizing number start with
  | nil => rfl
  | cons piece rest ih =>
    cases rest with
    | nil =>
      cases piece <;> rfl
    | cons next rest =>
      simp only [List.map_cons, numberLines, dropReturn_upper, byteWidth_upper] at ih ⊢
      rw [ih]
      rfl

/-- **The lines of a source** in upper case are its lines in upper case. -/
theorem sourceLines_upper (source : String) :
    sourceLines (Text.upper source) = (sourceLines source).map SourceLine.upper := by
  rw [sourceLines, toList_upper, splitOn_upper (by decide), numberLines_upper, sourceLines]

theorem ofLine?_upper (line : List Char) :
    Statement.ofLine? (line.map Char.toUpper) = (Statement.ofLine? line).map Statement.upper := by
  have hcode : ((Fragment.mk 0 (line.map Char.toUpper)).takeWhile (· != ';')).trim =
      (((Fragment.mk 0 line).takeWhile (· != ';')).trim).upper := by
    rw [← Fragment.trim_upper, ← Fragment.takeWhile_upper (caseBlind_ne (by decide))]
    rfl
  rw [Statement.ofLine?, hcode, Fragment.isEmpty_upper,
    Fragment.splitFirst?_upper (caseBlind_eq (by decide)), Statement.ofLine?]
  split
  · rfl
  · cases (((Fragment.mk 0 line).takeWhile (· != ';')).trim).splitFirst? (· == ':') with
    | none => rfl
    | some parts =>
      obtain ⟨name, rest⟩ := parts
      simp [Statement.upper, Fragment.trim_upper]

theorem layout_upper (address : Nat) (lines : List SourceLine) :
    layout address (lines.map SourceLine.upper) = (layout address lines).map Entry.upper := by
  induction lines generalizing address with
  | nil => rfl
  | cons line rest ih =>
    rw [List.map_cons, layout, SourceLine.upper, ofLine?_upper, layout]
    cases Statement.ofLine? line.chars with
    | none => exact ih address
    | some statement =>
      have hsize : statement.upper.size = statement.size := by
        rw [Statement.size, Statement.isInstruction, Statement.upper, Fragment.isEmpty_upper]
        rfl
      simp only [Option.map_some, List.map_cons, hsize, ih]
      rfl

/-- **The statements of a source** in upper case are its statements in upper case. -/
theorem entries_upper (source : String) :
    entries (Text.upper source) = (entries source).map Entry.upper := by
  rw [entries, sourceLines_upper, layout_upper, entries]

theorem Entry.isInstruction_upper (e : Entry) : e.upper.isInstruction = e.isInstruction :=
  congrArg (!·) e.statement.body.isEmpty_upper

/-! ## 5. Labels -/

theorem defineLabel_upper (table : SymbolTable) (name : Fragment) (address : Nat) :
    defineLabel table name.upper address = quotedUpper (defineLabel table name address) := by
  rw [defineLabel, Fragment.text_upper, Fragment.chars_upper, isIdentifier_upper, isReserved_upper,
    SymbolTable.insert_upper, defineLabel]
  split
  · exact congrArg Except.error (name.finding_upper (.labelPastEnd name.text address))
  · split
    · exact congrArg Except.error (name.finding_upper (.malformedLabel name.text))
    · split
      · exact congrArg Except.error (name.finding_upper (.reservedLabel name.text))
      · cases table.insert name.text address with
        | ok table' => rfl
        | error existing =>
          exact congrArg Except.error (name.finding_upper (.duplicateLabel name.text existing))

namespace Entry

theorem defineLabel_upper (table : SymbolTable) (e : Entry) :
    e.upper.defineLabel table = quotedUpper (e.defineLabel table) := by
  obtain ⟨line, start, ⟨label?, body⟩, address⟩ := e
  cases label? with
  | none => rfl
  | some name => exact PredicatedCpu.defineLabel_upper table name address

theorem extend_upper (table : SymbolTable) (e : Entry) : e.upper.extend table = e.extend table := by
  rw [extend, defineLabel_upper, extend]
  cases e.defineLabel table <;> rfl

end Entry

/-! ## 6. Diagnostics and programs -/

theorem complaints_quotedUpper {α : Type} (result : Except Finding α) :
    complaints (quotedUpper result) = (complaints result).map Finding.upper := by
  cases result <;> rfl

namespace Entry

theorem slot?_upper (symbols : SymbolTable) (e : Entry) :
    e.upper.slot? symbols = e.slot? symbols := by
  have hread : e.upper.instruction symbols = quotedUpper (e.instruction symbols) :=
    readInstruction_upper symbols e.statement.body
  rw [slot?, hread, slot?]
  cases e.instruction symbols <;> rfl

end Entry

/-- **What is wrong with a statement** in upper case is wrong with the statement, at the same
place. -/
theorem carries_upper : Carries Entry.upper Diagnostic.upper where
  isInstruction := Entry.isInstruction_upper
  extend := Entry.extend_upper
  label table e := by
    rw [Entry.labelFindings, Entry.defineLabel_upper, complaints_quotedUpper, Entry.labelFindings,
      List.map_map, List.map_map]
    rfl
  size count e :=
    congrArg e.upper.diagnostic (e.statement.body.finding_upper (.programTooLarge count))
  instruction symbols e := by
    have hread : e.upper.instruction symbols = quotedUpper (e.instruction symbols) :=
      readInstruction_upper symbols e.statement.body
    rw [Entry.instructionFindings, hread, complaints_quotedUpper, Entry.instructionFindings,
      List.map_map, List.map_map]
    rfl

theorem inLineOrder_map_upper (ds : List Diagnostic) :
    inLineOrder (ds.map Diagnostic.upper) = (inLineOrder ds).map Diagnostic.upper :=
  (map_sortBy Diagnostic.upper (fun _ _ => Iff.rfl) ds).symm

/-- **A source in upper case** is assembled to the same program, or complained of in the same
way. -/
theorem assemble_upper (source : String) :
    assemble (Text.upper source) = (assemble source).mapError (List.map Diagnostic.upper) := by
  have hslots (symbols : SymbolTable) :
      (instructionEntries (Text.upper source)).filterMap (Entry.slot? symbols) =
        (instructionEntries source).filterMap (Entry.slot? symbols) := by
    rw [instructionEntries, entries_upper, carries_upper.filter_isInstruction, List.filterMap_map]
    exact congrArg (List.filterMap · _) (funext (Entry.slot?_upper symbols))
  rw [assemble, carries_upper.found (entries_upper source), entries_upper,
    carries_upper.symbolsOf, assemble]
  simp only [hslots]
  cases found source with
  | nil => rfl
  | cons d rest => exact congrArg Except.error (inLineOrder_map_upper (d :: rest))

/-! ## 7. Two sources -/

/-- Whether two diagnostics are **of the same kind and at the same place**. -/
structure Diagnostic.Agrees (d d' : Diagnostic) : Prop where
  category : d.problem.category = d'.problem.category
  line : d.line = d'.line
  span : d.span = d'.span

theorem Diagnostic.Agrees.of_upper {d d' : Diagnostic} (h : d.upper = d'.upper) : d.Agrees d' := by
  obtain ⟨hproblem, hline, hspan⟩ := Diagnostic.mk.inj h
  refine ⟨?_, hline, hspan⟩
  rw [← d.problem.category_upper, hproblem, d'.problem.category_upper]

/-- **Case does not matter to a source.**  Of two sources that differ in nothing but the case of
letters, either both are assembled to one and the same program, with the same words, tags and
symbols, or neither is, and the two lists of diagnostics agree one by one in kind, line and
place. -/
theorem assemble_caseInsensitive {source source' : String}
    (h : Text.upper source = Text.upper source') :
    (∃ p, assemble source = .ok p ∧ assemble source' = .ok p) ∨
      ∃ ds ds', assemble source = .error ds ∧ assemble source' = .error ds' ∧
        ds.length = ds'.length ∧ List.Forall₂ Diagnostic.Agrees ds ds' := by
  have hupper := (assemble_upper source).symm.trans (h ▸ assemble_upper source')
  cases hsource : assemble source with
  | ok p =>
    cases hsource' : assemble source' with
    | ok p' =>
      rw [hsource, hsource'] at hupper
      cases hupper
      exact .inl ⟨p, rfl, rfl⟩
    | error ds' =>
      rw [hsource, hsource'] at hupper
      cases hupper
  | error ds =>
    cases hsource' : assemble source' with
    | ok p' =>
      rw [hsource, hsource'] at hupper
      cases hupper
    | error ds' =>
      rw [hsource, hsource'] at hupper
      have hmap : ds.map Diagnostic.upper = ds'.map Diagnostic.upper := Except.error.inj hupper
      have hlength : ds.length = ds'.length := by simpa using congrArg List.length hmap
      have hagree : List.Forall₂ (fun d d' => d.upper = d'.upper) ds ds' := by
        rw [← List.forall₂_map_right_iff, ← List.forall₂_map_left_iff, hmap]
        exact List.forall₂_refl _
      exact .inr ⟨ds, ds', rfl, rfl, hlength, hagree.imp fun _ _ => Diagnostic.Agrees.of_upper⟩

/-- A program in small letters. -/
def mutteredSource : String := "loop: add r0, r0, #0b1\n(!p1) b loop\nldr 0x1f0\nsetp hs, p2"

/-- The same program with capitals wherever one happened to be typed. -/
def shoutedSource : String := "Loop: ADD R0, r0, #0B1\n(!P1) B lOOP\nLdr 0X1F0\nSETP Hs, P2"

/-- A source with a register too many, and a label that means something else. -/
def mutteredFault : String := "add r0, r9, #1\nal: hlt"

/-- The same faults in capitals. -/
def shoutedFault : String := "ADD R0, R9, #1\nAL: HLT"

/-- The two writings of the program are one program; the two writings of the faults are complained
of in other words, but of the same things in the same places. -/
theorem assemble_caseInsensitive_written :
    (Text.upper mutteredSource = Text.upper shoutedSource ∧
      ∃ p, assemble mutteredSource = .ok p ∧ assemble shoutedSource = .ok p ∧
        p.symbols.entries = [("LOOP", 0)]) ∧
    (Text.upper mutteredFault = Text.upper shoutedFault ∧
      assemble mutteredFault ≠ assemble shoutedFault ∧
        ∃ ds ds', assemble mutteredFault = .error ds ∧ assemble shoutedFault = .error ds' ∧
          ds.length = 2 ∧ List.Forall₂ Diagnostic.Agrees ds ds') := by
  have hsource : Text.upper mutteredSource = Text.upper shoutedSource := by decide +kernel
  have hfault : Text.upper mutteredFault = Text.upper shoutedFault := by decide +kernel
  obtain ⟨ds, hds⟩ : ∃ ds, assemble mutteredFault = .error ds := ⟨_, by rfl⟩
  have hlength : ds.length = 2 := (perm_of_assemble hds).length_eq.trans (by decide +kernel)
  refine ⟨⟨hsource, ?_⟩, hfault, fun hsame => ?_, ?_⟩
  · obtain ⟨p, hp, hsymbols⟩ :
        ∃ p, assemble mutteredSource = .ok p ∧ p.symbols.entries = [("LOOP", 0)] :=
      ⟨_, by rfl, by decide +kernel⟩
    rcases assemble_caseInsensitive hsource with ⟨p', hp', hshouted⟩ | ⟨ds, ds', hds, -⟩
    · cases hp.symm.trans hp'
      exact ⟨p, hp, hshouted, hsymbols⟩
    · cases hp.symm.trans hds
  · have hperm : (found mutteredFault).Perm (found shoutedFault) :=
      (perm_of_assemble hds).symm.trans (perm_of_assemble (hsame.symm.trans hds))
    exact absurd hperm (by decide +kernel)
  · rcases assemble_caseInsensitive hfault with ⟨p, hp, -⟩ | ⟨es, ds', hes, hds', -, hagree⟩
    · cases hds.symm.trans hp
    · cases hds.symm.trans hes
      exact ⟨ds, ds', hds, hds', hlength, hagree⟩

end PredicatedCpu

/-
# The text of an instruction is read back

An instruction that fits in a word is written as a line of source: what a listing shows of it
can be assembled again.  The text is taken apart in the order in which it is read.

* `Operation.tokens`: the operands as they are written, each a `Plain` text: a name or a numeral,
  in which neither blanks nor punctuation occur;
* `readOperation_tokens`: the operands are read back one by one;
* `texts_splitOperands`, `splitMnemonic_operation`, `readPredicate_guardText`: the text falls
  into the parts it was put together from;
* `readInstruction_text`: the whole instruction is read back;
* `ofLine?_text`: its text is a statement, without label and comment.
-/
import PredicatedCpu.Assembly.Reading
import PredicatedCpu.Assembly.Statement
import PredicatedCpu.Proofs.Instruction.Fits
import PredicatedCpu.Proofs.Text.Cutting
import PredicatedCpu.Proofs.Text.Written

namespace PredicatedCpu

/-! ## 1. Plain texts -/

/-- The characters of which names and numerals are made. -/
def plainChars : List Char := "0123456789ABCDEFGHIJKLMNOPQRSTUVWXYZx#!".toList

/-- A name or a numeral. -/
def Plain (text : String) : Prop := text.toList ≠ [] ∧ ∀ c ∈ text.toList, c ∈ plainChars

/-- Whether a text is plain, decided on its characters. -/
def isPlain (text : String) : Bool := !text.toList.isEmpty && text.toList.all plainChars.contains

theorem plain_of_isPlain {text : String} (h : isPlain text = true) : Plain text := by
  simpa [isPlain, Plain] using h

/-- Neither a blank nor punctuation is plain. -/
theorem not_blank_of_plain {c : Char} (h : c ∈ plainChars) : Text.isBlank c = false := by
  have hall : plainChars.all (fun c => !Text.isBlank c) = true := by decide
  simpa using List.all_eq_true.mp hall c h

theorem Plain.not_blank {text : String} (h : Plain text) :
    ∀ c ∈ text.toList, Text.isBlank c = false :=
  fun c hc => not_blank_of_plain (h.2 c hc)

theorem Plain.tight {text : String} (h : Plain text) : Text.Tight text.toList :=
  .of_solid h.not_blank

theorem plain_register (r : Register) : Plain r.name :=
  plain_of_isPlain (by revert r; decide)

theorem plain_predicateRegister (p : PredicateRegister) : Plain p.name :=
  plain_of_isPlain (by revert p; decide)

theorem plain_condition (c : Condition) : Plain c.name :=
  plain_of_isPlain (by cases c <;> decide)

theorem plain_predicate (p : Predicate) : Plain p.name :=
  plain_of_isPlain (by cases p <;> decide)

theorem plain_mnemonic (o : Opcode) : Plain o.mnemonic := by
  refine plain_of_isPlain ?_
  rcases o with _ | _ | op | _ | _ | _ | _
  case alu => cases op <;> decide
  all_goals decide

/-- Digits are plain, in either radix. -/
theorem plain_digitChar : ∀ digit < 16, digit.digitChar.toUpper ∈ plainChars := by decide

theorem plain_decimalDigit : ∀ digit < 10, digit.digitChar ∈ plainChars := by decide

/-- Hexadecimal digits are plain. -/
theorem plain_hex (width value : Nat) : Plain (Text.hex width value) := by
  obtain ⟨zeros, hhex⟩ := Text.toList_hex width value
  refine ⟨by simp [hhex], fun c hc => ?_⟩
  simp only [hhex, List.mem_append, List.mem_replicate, List.mem_map] at hc
  rcases hc with ⟨-, rfl⟩ | ⟨d, hd, rfl⟩
  · decide
  · obtain ⟨digit, hlt, rfl⟩ := Text.exists_of_mem_toDigits (by decide) hd
    exact plain_digitChar digit hlt

/-- So is a hexadecimal numeral with its mark. -/
theorem plain_marked (width value : Nat) : Plain ("0x" ++ Text.hex width value) := by
  have hmark : Plain "0x" := plain_of_isPlain (by decide)
  refine ⟨by simp, fun c hc => ?_⟩
  rw [String.toList_append, List.mem_append] at hc
  exact hc.elim (hmark.2 c) ((plain_hex width value).2 c)

theorem plain_addressText (address : Nat) : Plain (addressText address) := plain_marked 3 address

theorem plain_wordText (word : Word) : Plain (wordText word) := plain_marked 4 word.toNat

theorem toList_immediate (value : Word) :
    (Operand.immediate value).text.toList = '#' :: (Text.decimal value.toNat).toList := by
  rw [Operand.text, String.toList_append]
  rfl

theorem plain_operand (operand : Operand) : Plain operand.text := by
  cases operand with
  | register r => exact plain_register r
  | immediate value =>
    refine ⟨by simp [toList_immediate], fun c hc => ?_⟩
    rw [toList_immediate, Text.toList_decimal, List.mem_cons] at hc
    rcases hc with rfl | hc
    · decide
    · obtain ⟨digit, hlt, rfl⟩ := Text.exists_of_mem_toDigits (by decide) hc
      exact plain_decimalDigit digit hlt

/-! ## 2. Operands -/

/-- The operands of an operation, each as it is written. -/
def Operation.tokens : Operation → List String
  | .load address => [addressText address.toNat]
  | .store address => [addressText address.toNat]
  | .branch target => [addressText target.toNat]
  | .alu _ dest source operand => [dest.name, source.name, operand.text]
  | .compare source operand => [source.name, operand.text]
  | .setPredicate condition dest => [condition.name, dest.name]
  | .halt => []

theorem Operation.plain_of_mem_tokens {op : Operation} {token : String} (h : token ∈ op.tokens) :
    Plain token := by
  cases op <;> simp only [tokens, List.mem_cons, List.not_mem_nil, or_false] at h
  case load | store | branch =>
    obtain rfl := h
    exact plain_addressText _
  case alu dest source operand =>
    rcases h with rfl | rfl | rfl
    · exact plain_register dest
    · exact plain_register source
    · exact plain_operand operand
  case compare source operand =>
    rcases h with rfl | rfl
    · exact plain_register source
    · exact plain_operand operand
  case setPredicate condition dest =>
    rcases h with rfl | rfl
    · exact plain_condition condition
    · exact plain_predicateRegister dest

/-- All operands of an operation, as they are written between commas. -/
def Operation.tokenText (op : Operation) : String := ", ".intercalate op.tokens

/-- The operands stand behind a blank, unless there are none. -/
theorem Operation.toList_operandText (op : Operation) :
    op.operandText.toList = if op.tokens = [] then [] else ' ' :: op.tokenText.toList := by
  cases op <;>
    simp [operandText, tokenText, tokens, String.intercalate_cons_cons, String.append_assoc]

theorem Operation.toList_tokenText (op : Operation) :
    op.tokenText.toList = [',', ' '].intercalate (op.tokens.map String.toList) := by
  rw [tokenText, String.toList_intercalate]
  rfl

theorem Operation.tight_tokenText (op : Operation) : Text.Tight op.tokenText.toList := by
  rw [toList_tokenText]
  refine Text.Tight.intercalate _ ?_ ?_ <;> rw [List.forall_mem_map]
  · exact fun token h => (plain_of_mem_tokens h).tight
  · exact fun token h => (plain_of_mem_tokens h).1

/-- A numeral for a word is not too large to be read. -/
theorem numeralBelow?_toNat {marks : Text.Marks} {cs : List Char} {w : Word}
    (h : Text.numeral? marks cs = some w.toNat) :
    Text.numeralBelow? (.pow 2 32) marks cs = some w.toNat := by
  have hlt : w.toNat < Nat.pow 2 32 := Nat.lt_of_lt_of_le w.isLt (by decide)
  rw [Text.numeralBelow?, h, Option.filter_some, if_pos (decide_eq_true hlt)]

theorem readRegister_name {f : Fragment} {r : Register} (h : f.text = r.name) :
    readRegister f = .ok r := by
  rw [readRegister, h, Register.ofName?_name]

theorem readOperand_text {f : Fragment} {operand : Operand} (h : f.text = operand.text)
    (hfits : operand.Fits) : readOperand f = .ok operand := by
  have hchars : f.chars = operand.text.toList := by rw [← h, f.toList_text]
  cases operand with
  | register r =>
    have hname : f.chars = 'R' :: (Text.decimal r.val).toList := by
      rw [hchars, Operand.text, Register.name, String.toList_append]
      rfl
    have hread : Register.ofName? f.text = some r := by
      rw [h]
      exact Register.ofName?_name r
    simp [readOperand, hname, hread]
  | immediate value =>
    have hseven : ¬ 7 < value.toNat := by
      have : value.toNat < 8 := hfits
      omega
    have hvalue : Text.numeralBelow? (.pow 2 32) .all (Text.decimal value.toNat).toList =
        some value.toNat := numeralBelow?_toNat (Text.numeral?_decimal _ _)
    rw [toList_immediate] at hchars
    simp only [readOperand, hchars, readImmediate, hvalue, if_neg hseven, Word.ofNat,
      BitVec.ofNat_toNat, BitVec.setWidth_eq]

theorem readAddress_text {symbols : SymbolTable} {f : Fragment} {address : Word}
    (h : f.text = addressText address.toNat) (hfits : address.toNat < memorySize) :
    readAddress symbols f = .ok address := by
  have hchars : f.chars = '0' :: 'x' :: (Text.hex 3 address.toNat).toList := by
    rw [← f.toList_text, h, addressText, String.toList_append]
    rfl
  have hvalue : Text.numeralBelow? (.pow 2 32) .hex f.chars = some address.toNat := by
    rw [hchars]
    exact numeralBelow?_toNat (Text.numeral?_hex _ _ _)
  have hdigit : ((f.chars.head?.map Char.isDigit).getD false) = true := by
    rw [hchars]
    rfl
  have hread : addressValue symbols f = .ok address.toNat := by
    rw [addressValue, if_pos hdigit, hvalue]
  have hword : Word.ofNat address.toNat = address := by simp [Word.ofNat]
  rw [readAddress, hread]
  exact (if_pos hfits).trans (by rw [hword])

theorem readCondition_name {f : Fragment} {condition : Condition} (h : f.text = condition.name) :
    readCondition f = .ok condition := by
  rw [readCondition, h, Condition.ofName?_name]

theorem readDestination_name {f : Fragment} {dest : PredicateRegister} (h : f.text = dest.name)
    (hne : dest ≠ 0) : readDestination f = .ok dest := by
  rw [readDestination, h, PredicateRegister.ofName?_name]
  exact if_neg hne

/-- **The operands are read back.**  What the operation was is known from its opcode. -/
theorem readOperation_tokens {symbols : SymbolTable} {miscounted : Finding}
    {fragments : List Fragment} {op : Operation} (htexts : fragments.map Fragment.text = op.tokens)
    (hfits : op.Fits) : readOperation symbols miscounted op.opcode fragments = .ok op := by
  cases op with
  | load address | store address | branch address =>
    obtain ⟨f, rfl, htext⟩ := List.map_eq_singleton_iff.mp htexts
    simp only [Operation.opcode, readOperation, readAddress_text htext hfits]
    rfl
  | alu op dest source operand =>
    obtain ⟨f, fs, rfl, hdest, htexts⟩ := List.map_eq_cons_iff.mp htexts
    obtain ⟨g, gs, rfl, hsource, htexts⟩ := List.map_eq_cons_iff.mp htexts
    obtain ⟨k, rfl, hoperand⟩ := List.map_eq_singleton_iff.mp htexts
    simp only [Operation.opcode, readOperation, readRegister_name hdest,
      readRegister_name hsource, readOperand_text hoperand hfits]
    rfl
  | compare source operand =>
    obtain ⟨f, fs, rfl, hsource, htexts⟩ := List.map_eq_cons_iff.mp htexts
    obtain ⟨g, rfl, hoperand⟩ := List.map_eq_singleton_iff.mp htexts
    simp only [Operation.opcode, readOperation, readRegister_name hsource,
      readOperand_text hoperand hfits]
    rfl
  | setPredicate condition dest =>
    obtain ⟨f, fs, rfl, hcondition, htexts⟩ := List.map_eq_cons_iff.mp htexts
    obtain ⟨g, rfl, hdest⟩ := List.map_eq_singleton_iff.mp htexts
    simp only [Operation.opcode, readOperation, readCondition_name hcondition,
      readDestination_name hdest hfits]
    rfl
  | halt =>
    obtain rfl : fragments = [] := List.map_eq_nil_iff.mp htexts
    rfl

/-! ## 3. The parts of a text -/

/-- The blank behind a comma may be counted to what follows it. -/
theorem intercalate_comma_blank (first : List Char) (rest : List (List Char)) :
    [',', ' '].intercalate (first :: rest) =
      [','].intercalate (first :: rest.map fun piece => ' ' :: piece) := by
  induction rest generalizing first with
  | nil => rfl
  | cons second rest ih =>
    rw [List.intercalate_cons_cons, ih, List.map_cons, List.intercalate_cons_cons]
    cases rest with
    | nil => simp
    | cons third rest => simp [List.intercalate_cons_cons]

/-- What stands between commas is found again, without the blanks. -/
theorem texts_splitOperands {f : Fragment} {op : Operation} (htext : f.text = op.tokenText) :
    (splitOperands f).map Fragment.text = op.tokens := by
  have hchars : f.chars = [',', ' '].intercalate (op.tokens.map String.toList) := by
    rw [← f.toList_text, htext, op.toList_tokenText]
  have hplain : ∀ token ∈ op.tokens, Plain token := fun token => Operation.plain_of_mem_tokens
  generalize op.tokens = tokens at hchars hplain ⊢
  cases tokens with
  | nil =>
    have hempty : f.isEmpty = true := by simp [Fragment.isEmpty, hchars]
    rw [splitOperands, if_pos hempty, List.map_nil]
  | cons first rest =>
    obtain ⟨hfirst, hrest⟩ := List.forall_mem_cons.mp hplain
    have hcomma : ∀ token : String, Plain token → ',' ∉ token.toList :=
      fun token h hmem => absurd (h.2 _ hmem) (by decide)
    have hpieces : f.chars.splitOn ',' =
        first.toList :: rest.map fun token => ' ' :: token.toList := by
      rw [hchars, List.map_cons, intercalate_comma_blank, List.splitOn_intercalate, List.map_map]
      · rfl
      · rw [List.forall_mem_cons, List.map_map, List.forall_mem_map]
        refine ⟨hcomma first hfirst, fun token hmem => ?_⟩
        exact List.not_mem_cons_of_ne_of_not_mem (by decide) (hcomma token (hrest token hmem))
      · exact List.cons_ne_nil _ _
    have htrims : (f.chars.splitOn ',').map Text.trim = (first :: rest).map String.toList := by
      rw [hpieces, List.map_cons, List.map_cons, hfirst.tight.trim, List.map_map]
      refine congrArg _ (List.map_congr_left fun token hmem => ?_)
      exact (hrest token hmem).tight.trim_cons_blank (hrest token hmem).1 (by decide)
    have hnonempty : ¬ f.isEmpty = true := by
      intro hempty
      rw [Fragment.isEmpty, List.isEmpty_iff] at hempty
      rw [hempty] at hpieces
      exact hfirst.1 (List.cons.inj hpieces).1.symm
    have htexts : (splitOperands f).map Fragment.text =
        ((f.chars.splitOn ',').map Text.trim).map String.ofList := by
      rw [splitOperands, if_neg hnonempty, ← Fragment.chars_splitOn, List.map_map, List.map_map,
        List.map_map]
      rfl
    rw [htexts, htrims, List.map_map]
    simp [Function.comp_def]

/-- The mnemonic and the operands part at the first blank. -/
theorem splitMnemonic_operation (start : Nat) (op : Operation) :
    ∃ start', splitMnemonic ⟨start, op.opcode.mnemonic.toList ++ op.operandText.toList⟩ =
      (⟨start, op.opcode.mnemonic.toList⟩, ⟨start', op.tokenText.toList⟩) := by
  have hmnemonic := (plain_mnemonic op.opcode).not_blank
  by_cases hnil : op.tokens = []
  · have htext : op.tokenText.toList = [] := by rw [op.toList_tokenText, hnil]; rfl
    rw [op.toList_operandText, if_pos hnil, htext, List.append_nil, splitMnemonic,
      Fragment.splitFirst?_eq_none hmnemonic]
    exact ⟨_, rfl⟩
  · rw [op.toList_operandText, if_neg hnil, splitMnemonic,
      Fragment.splitFirst?_append hmnemonic (by decide)]
    exact ⟨_, Prod.ext rfl (Fragment.trim_eq_self op.tight_tokenText)⟩

/-- A predicate stands in parentheses with a blank behind them, unless it is "always". -/
theorem Predicate.toList_guardText {p : Predicate} (h : p ≠ .always) :
    p.guardText.toList = '(' :: p.name.toList ++ [')'] ++ [' '] := by
  cases p <;> first | exact absurd rfl h | rfl

/-- The predicate is found in its parentheses, and the blank behind them is skipped. -/
theorem readPredicate_guardText (start : Nat) (p : Predicate) {rest : List Char}
    (hplain : ∀ c ∈ rest.head?, c ∈ plainChars) :
    ∃ start', readPredicate ⟨start, p.guardText.toList ++ rest⟩ = .ok (p, ⟨start', rest⟩) := by
  by_cases halways : p = .always
  · subst halways
    refine ⟨start, ?_⟩
    show readPredicate ⟨start, rest⟩ = _
    unfold readPredicate
    split
    · rename_i rest' hrest
      obtain rfl : rest = '(' :: rest' := hrest
      exact absurd (hplain '(' rfl) (by decide)
    · rfl
  · have hguard : p.guardText.toList ++ rest = '(' :: p.name.toList ++ ')' :: (' ' :: rest) := by
      simp [Predicate.toList_guardText halways]
    have hname : ∀ c ∈ '(' :: p.name.toList, (c == ')') = false := by
      rw [List.forall_mem_cons]
      refine ⟨by decide, fun c hc => ?_⟩
      rw [beq_eq_false_iff_ne]
      rintro rfl
      exact absurd ((plain_predicate p).2 _ hc) (by decide)
    have hread : Predicate.ofText? (String.ofList p.name.toList) = some p := by
      rw [String.ofList_toList, Predicate.ofText?_name]
    obtain ⟨start', hskip⟩ := Fragment.exists_trimStart_cons
      (start + Text.byteWidth ('(' :: p.name.toList) + Char.utf8Size ')')
      (show Text.isBlank ' ' = true by decide) fun c hc => not_blank_of_plain (hplain c hc)
    rw [hguard, readPredicate, List.cons_append]
    simp only
    rw [← List.cons_append, Fragment.splitFirst?_append hname (by decide)]
    simp only [List.drop_succ_cons, List.drop_zero, hread, hskip]
    exact ⟨start', rfl⟩

/-! ## 4. Whole instructions -/

/-- What begins a mnemonic is plain, and so does not begin a predicate. -/
theorem head?_mnemonic (o : Opcode) (rest : List Char) :
    ∀ c ∈ (o.mnemonic.toList ++ rest).head?, c ∈ plainChars := by
  have hplain := plain_mnemonic o
  rcases hchars : o.mnemonic.toList with _ | ⟨d, ds⟩
  · exact absurd hchars hplain.1
  · intro c hc
    obtain rfl : d = c := by simpa using hc
    exact hplain.2 d (by simp [hchars])

/-- **The text of an instruction is read back**, whatever labels there are. -/
theorem readInstruction_text {symbols : SymbolTable} {body : Fragment} {i : Instruction}
    (htext : body.text = i.text) (hfits : i.Fits) : readInstruction symbols body = .ok i := by
  obtain ⟨start, chars⟩ := body
  obtain ⟨predicate, op⟩ := i
  obtain rfl : chars = predicate.guardText.toList ++
      (op.opcode.mnemonic.toList ++ op.operandText.toList) := by
    rw [show chars = (Fragment.mk start chars).chars from rfl, ← Fragment.toList_text, htext,
      Instruction.text, String.toList_append, String.toList_append, List.append_assoc]
    rfl
  have hhead := head?_mnemonic op.opcode op.operandText.toList
  obtain ⟨start', hpredicate⟩ := readPredicate_guardText start predicate hhead
  obtain ⟨start'', hparts⟩ := splitMnemonic_operation start' op
  have hnonempty : ¬ (Fragment.mk start' op.opcode.mnemonic.toList).isEmpty = true := by
    rw [Fragment.isEmpty, List.isEmpty_iff]
    exact (plain_mnemonic op.opcode).1
  have hop : readOperationOf symbols ⟨start', op.opcode.mnemonic.toList⟩
      ⟨start'', op.tokenText.toList⟩ = .ok op := by
    rw [readOperationOf, Fragment.text, String.ofList_toList, Opcode.ofName?_mnemonic]
    exact readOperation_tokens (texts_splitOperands String.ofList_toList) hfits
  simp only [readInstruction, hpredicate, bind, Except.bind, hparts, if_neg hnonempty, hop]
  rfl

/-! ## 5. Statements -/

theorem tight_operationText (op : Operation) :
    Text.Tight (op.opcode.mnemonic.toList ++ op.operandText.toList) := by
  have hmnemonic := plain_mnemonic op.opcode
  rw [op.toList_operandText]
  split
  · rw [List.append_nil]
    exact hmnemonic.tight
  · rename_i hne
    have htokens : op.tokenText.toList ≠ [] := by
      rw [op.toList_tokenText]
      refine Text.intercalate_ne_nil (by simpa using hne) ?_
      rw [List.forall_mem_map]
      exact fun token h => (Operation.plain_of_mem_tokens h).1
    rw [← List.singleton_append, ← List.append_assoc]
    exact hmnemonic.tight.append op.tight_tokenText hmnemonic.1 htokens [' ']

/-- The text of an instruction begins and ends with what is no blank. -/
theorem tight_text (i : Instruction) : Text.Tight i.text.toList := by
  obtain ⟨predicate, op⟩ := i
  have hrest := tight_operationText op
  rw [Instruction.text, String.toList_append, String.toList_append, List.append_assoc]
  by_cases halways : predicate = .always
  · subst halways
    exact hrest
  · have hfront : Text.Tight ('(' :: predicate.name.toList ++ [')']) := by
      refine .of_solid fun c hc => ?_
      rw [List.cons_append, List.mem_cons, List.mem_append, List.mem_singleton] at hc
      rcases hc with rfl | hname | rfl
      · decide
      · exact (plain_predicate predicate).not_blank c hname
      · decide
    have hmnemonic := (plain_mnemonic op.opcode).1
    rw [Predicate.toList_guardText halways]
    exact hfront.append hrest (List.cons_ne_nil _ _) (by simp [hmnemonic]) [' ']

theorem text_ne_nil (i : Instruction) : i.text.toList ≠ [] := by
  have hmnemonic := (plain_mnemonic i.opcode).1
  simp [Instruction.text, hmnemonic]

/-- The characters of which the text of an instruction is made. -/
def writtenChars : List Char := '(' :: ')' :: ' ' :: ',' :: plainChars

theorem mem_writtenChars_of_mem_text {i : Instruction} {c : Char} (h : c ∈ i.text.toList) :
    c ∈ writtenChars := by
  have hplain : ∀ d ∈ plainChars, d ∈ writtenChars := fun d hd => by simp [writtenChars, hd]
  obtain ⟨predicate, op⟩ := i
  simp only [Instruction.text, String.toList_append, List.mem_append] at h
  rcases h with (hguard | hmnemonic) | hoperands
  · by_cases halways : predicate = .always
    · subst halways
      cases hguard
    · rw [Predicate.toList_guardText halways] at hguard
      simp only [List.cons_append, List.mem_cons, List.mem_append, List.not_mem_nil,
        or_false] at hguard
      rcases hguard with rfl | (hname | rfl) | rfl
      · decide
      · exact hplain c ((plain_predicate predicate).2 c hname)
      · decide
      · decide
  · exact hplain c ((plain_mnemonic _).2 c hmnemonic)
  · have hseparator : ∀ d ∈ [',', ' '], d ∈ writtenChars := by simp [writtenChars]
    rw [op.toList_operandText] at hoperands
    split at hoperands
    · cases hoperands
    · rw [List.mem_cons, op.toList_tokenText] at hoperands
      rcases hoperands with rfl | hoperands
      · decide
      · rcases Text.mem_of_mem_intercalate hoperands with hc | ⟨piece, hpiece, hc⟩
        · exact hseparator c hc
        · obtain ⟨token, htoken, rfl⟩ := List.mem_map.mp hpiece
          exact hplain c ((Operation.plain_of_mem_tokens htoken).2 c hc)

/-- What is not written does not occur in the text of an instruction. -/
theorem ne_of_mem_text {i : Instruction} {c d : Char} (h : c ∈ i.text.toList)
    (hd : d ∉ writtenChars) : c ≠ d := by
  rintro rfl
  exact hd (mem_writtenChars_of_mem_text h)

/-- **The text of an instruction is a statement** that has the instruction and nothing else. -/
theorem ofLine?_text (i : Instruction) :
    Statement.ofLine? i.text.toList = some ⟨none, ⟨0, i.text.toList⟩⟩ := by
  have hcomment : ∀ c ∈ i.text.toList, (c != ';') = true := fun c hc =>
    bne_iff_ne.mpr (ne_of_mem_text hc (by decide))
  have hcolon : ∀ c ∈ i.text.toList, (c == ':') = false := fun c hc =>
    beq_eq_false_iff_ne.mpr (ne_of_mem_text hc (by decide))
  have hline : (Fragment.mk 0 i.text.toList).takeWhile (· != ';') = ⟨0, i.text.toList⟩ :=
    Fragment.takeWhile_eq_self hcomment
  have hcode : (Fragment.mk 0 i.text.toList).trim = ⟨0, i.text.toList⟩ :=
    Fragment.trim_eq_self (tight_text i)
  have hnonempty : ¬ (Fragment.mk 0 i.text.toList).isEmpty = true := by
    rw [Fragment.isEmpty, List.isEmpty_iff]
    exact text_ne_nil i
  simp only [Statement.ofLine?, hline, hcode, if_neg hnonempty]
  rw [Fragment.splitFirst?_eq_none hcolon]

end PredicatedCpu

/-
# An instruction is told by its tokens

The reader of an instruction cuts its text four times, and trims what it gets in between.  In the end
it has some words in its hands, and what they are decides everything.  So a text that can be read has
a grammar: which words and marks it has, in which order.

A text that cannot be read has none of that kind, and what is said about it does hang on its blanks:
they are quoted.

* `isWord_of_readOperation`: whatever can be read is a word;
* `readOperation_unplaced`: where it stands does not matter;
* `map_chars_splitOperands_iff`, `tokens_splitMnemonic`, `splitMnemonic_of_tokens`: the cuts, on
  tokens;
* `Reads`: which tokens are which instruction, and `readInstruction_eq_ok_iff`.
-/
import PredicatedCpu.Proofs.Assembly.Canonical
import PredicatedCpu.Proofs.Assembly.Literals
import PredicatedCpu.Proofs.Text.Tokens

namespace PredicatedCpu

open Text (tokens IsWord isWordChar isMark Breaks Tight)

/-! ## 1. What can be read is a word -/

/-- Letters, digits and underscores are parts of words. -/
theorem isWordChar_of_isIdentifierPart {c : Char} (h : isIdentifierPart c = true) :
    isWordChar c = true := by
  have hall : ∀ n < 128, isIdentifierPart (Char.ofNat n) = true →
      isWordChar (Char.ofNat n) = true := by decide +kernel
  have hc := hall c.toNat (toNat_lt_of_isIdentifierPart h)
  rw [Char.ofNat_toNat] at hc
  exact hc h

theorem isWord_of_isIdentifier {cs : List Char} (h : isIdentifier cs = true) : IsWord cs := by
  cases cs with
  | nil => cases h
  | cons c rest =>
    simp only [isIdentifier, Bool.and_eq_true, List.all_eq_true] at h
    have hstart := isWordChar_of_isIdentifierPart (isIdentifierPart_of_start h.1)
    refine ⟨by simp, List.forall_mem_cons.mpr ⟨hstart, ?_⟩⟩
    exact fun d hd => isWordChar_of_isIdentifierPart (h.2 d hd)

/-- What is plain in upper case is a word in either case. -/
theorem isWord_of_upper {cs : List Char} (h : Plain (Text.upper (String.ofList cs))) :
    IsWord cs := by
  obtain ⟨hne, hall⟩ := h
  rw [Text.toList_upper, String.toList_ofList] at hne hall
  refine ⟨fun hnil => hne (by simp [hnil]), fun c hc => ?_⟩
  have hplain := hall c.toUpper (List.mem_map_of_mem hc)
  by_cases hlower : c.isLower = true
  · have hletter : (c.isUpper || c.isLower || c.isDigit || c == '_') = true := by simp [hlower]
    exact isWordChar_of_isIdentifierPart hletter
  · have hsame : c.toUpper = c := dif_neg fun h =>
      hlower (Bool.and_eq_true_iff.mpr ⟨decide_eq_true h.1, decide_eq_true h.2⟩)
    rw [hsame] at hplain
    have hchars : ∀ d ∈ plainChars, isWordChar d = true := List.all_eq_true.mp (by decide +kernel)
    exact hchars c hplain

theorem isWord_of_denotes {marks : Text.Marks} {cs : List Char} {value : Nat}
    (h : Text.Denotes marks cs value) : IsWord cs := by
  have hchars : ∀ d ∈ Text.numeralChars, isWordChar d = true :=
    List.all_eq_true.mp (by decide +kernel)
  refine ⟨?_, fun c hc => hchars c (h.mem_numeralChars c hc)⟩
  rintro rfl
  have hdigit := h.startsWithDigit
  cases hdigit

section Names

variable {name : String}

theorem Register.upper_of_ofName? {r : Register} (h : ofName? name = some r) :
    Text.upper name = r.name := by
  have hfound := List.find?_some h
  exact (beq_iff_eq.mp hfound).symm

theorem PredicateRegister.upper_of_ofName? {p : PredicateRegister} (h : ofName? name = some p) :
    Text.upper name = p.name := by
  have hfound := List.find?_some h
  exact (beq_iff_eq.mp hfound).symm

theorem Opcode.upper_of_ofName? {o : Opcode} (h : ofName? name = some o) :
    Text.upper name = o.mnemonic := by
  have hfound := List.find?_some h
  exact (beq_iff_eq.mp hfound).symm

theorem Condition.plain_upper_of_ofName? {c : Condition} (h : ofName? name = some c) :
    Plain (Text.upper name) := by
  unfold ofName? at h
  dsimp only at h
  split at h
  · rename_i hkey
    exact hkey ▸ plain_of_isPlain (by decide)
  · split at h
    · rename_i hkey
      exact hkey ▸ plain_of_isPlain (by decide)
    · have hfound := List.find?_some h
      exact (beq_iff_eq.mp hfound) ▸ plain_condition c

/-- Inside of the parentheses only the name counts. -/
theorem Predicate.isWord_of_ofText? {cs : List Char} {p : Predicate}
    (h : ofText? (String.ofList cs) = some p) : IsWord (Text.trim cs) := by
  have hfound := List.find?_some h
  rw [String.toList_ofList] at hfound
  exact isWord_of_upper ((beq_iff_eq.mp hfound) ▸ plain_predicate p)

end Names

theorem isWord_of_readRegister {f : Fragment} {r : Register} (h : readRegister f = .ok r) :
    IsWord f.chars := by
  unfold readRegister at h
  split at h
  · rename_i r' hname
    exact isWord_of_upper ((Register.upper_of_ofName? hname) ▸ plain_register r')
  · cases h

theorem isWord_of_readOperand {f : Fragment} {operand : Operand} (h : readOperand f = .ok operand) :
    IsWord f.chars := by
  unfold readOperand at h
  split at h
  · rename_i digits hchars
    obtain ⟨value, -, -, hdenotes⟩ := readImmediate_eq_ok_iff.mp h
    rw [hchars]
    exact ⟨by simp, List.forall_mem_cons.mpr ⟨by decide, (isWord_of_denotes hdenotes).all⟩⟩
  · split at h
    · rename_i r hname
      exact isWord_of_upper ((Register.upper_of_ofName? hname) ▸ plain_register r)
    · cases h

theorem isWord_of_readAddress {symbols : SymbolTable} {f : Fragment} {address : Word}
    (h : readAddress symbols f = .ok address) : IsWord f.chars := by
  obtain ⟨value, hvalue, -⟩ := exists_of_bind_eq_ok h
  rcases addressValue_eq_ok_iff.mp hvalue with ⟨hdenotes, -⟩ | ⟨hidentifier, -⟩
  · exact isWord_of_denotes hdenotes
  · exact isWord_of_isIdentifier hidentifier

theorem isWord_of_readCondition {f : Fragment} {c : Condition} (h : readCondition f = .ok c) :
    IsWord f.chars := by
  unfold readCondition at h
  split at h
  · rename_i c' hname
    exact isWord_of_upper (Condition.plain_upper_of_ofName? hname)
  · cases h

theorem isWord_of_readDestination {f : Fragment} {p : PredicateRegister}
    (h : readDestination f = .ok p) : IsWord f.chars := by
  unfold readDestination at h
  split at h
  · cases h
  · rename_i p' hname
    exact isWord_of_upper ((PredicateRegister.upper_of_ofName? hname) ▸ plain_predicateRegister p')

/-- **Operands that can be read are words**, all of them. -/
theorem isWord_of_readOperation {symbols : SymbolTable} {miscounted : Finding} {opcode : Opcode}
    {fragments : List Fragment} {op : Operation}
    (h : readOperation symbols miscounted opcode fragments = .ok op) :
    ∀ f ∈ fragments, IsWord f.chars := by
  unfold readOperation at h
  split at h
  case h_1 | h_2 | h_3 =>
    obtain ⟨address, haddress, -⟩ := exists_of_bind_eq_ok h
    simpa using isWord_of_readAddress haddress
  case h_4 =>
    obtain ⟨dest, hdest, h⟩ := exists_of_bind_eq_ok h
    obtain ⟨source, hsource, h⟩ := exists_of_bind_eq_ok h
    obtain ⟨operand, hoperand, -⟩ := exists_of_bind_eq_ok h
    simpa using ⟨isWord_of_readRegister hdest, isWord_of_readRegister hsource,
      isWord_of_readOperand hoperand⟩
  case h_5 =>
    obtain ⟨source, hsource, h⟩ := exists_of_bind_eq_ok h
    obtain ⟨operand, hoperand, -⟩ := exists_of_bind_eq_ok h
    simpa using ⟨isWord_of_readRegister hsource, isWord_of_readOperand hoperand⟩
  case h_6 =>
    obtain ⟨condition, hcondition, h⟩ := exists_of_bind_eq_ok h
    obtain ⟨dest, hdest, -⟩ := exists_of_bind_eq_ok h
    simpa using ⟨isWord_of_readCondition hcondition, isWord_of_readDestination hdest⟩
  case h_7 => simp
  case h_8 => cases h

/-! ## 2. Where it stands does not matter -/

/-- A fragment at the front. -/
def Fragment.unplaced (f : Fragment) : Fragment := ⟨0, f.chars⟩

/-- Whether two results are alike, but for what is found wrong. -/
def SameResult {α : Type} (x y : Except Finding α) : Prop := ∀ a, x = .ok a ↔ y = .ok a

namespace SameResult

variable {α β : Type} {x y : Except Finding α}

theorem refl (x : Except Finding α) : SameResult x x := fun _ => Iff.rfl

/-- Two findings come to the same. -/
theorem of_error (finding finding' : Finding) :
    SameResult (.error finding : Except Finding α) (.error finding') := by
  intro a
  simp

theorem bind (h : SameResult x y) {f g : α → Except Finding β} (hfg : ∀ a, SameResult (f a) (g a)) :
    SameResult (x >>= f) (y >>= g) := by
  intro b
  constructor
  · intro hb
    obtain ⟨a, ha, hb⟩ := exists_of_bind_eq_ok hb
    rw [(h a).mp ha]
    exact (hfg a b).mp hb
  · intro hb
    obtain ⟨a, ha, hb⟩ := exists_of_bind_eq_ok hb
    rw [(h a).mpr ha]
    exact (hfg a b).mpr hb

end SameResult

section Unplaced

variable (f : Fragment)

@[simp] theorem Fragment.text_unplaced : f.unplaced.text = f.text := rfl

theorem readRegister_unplaced : SameResult (readRegister f) (readRegister f.unplaced) := by
  rw [readRegister, readRegister, f.text_unplaced]
  cases Register.ofName? f.text with
  | none => exact .of_error _ _
  | some r => exact .refl _

theorem readImmediate_unplaced (digits : List Char) :
    SameResult (readImmediate f digits) (readImmediate f.unplaced digits) := by
  intro operand
  rw [readImmediate_eq_ok_iff, readImmediate_eq_ok_iff]

theorem readOperand_unplaced : SameResult (readOperand f) (readOperand f.unplaced) := by
  have hchars : f.unplaced.chars = f.chars := rfl
  rw [readOperand, readOperand, hchars, f.text_unplaced]
  split
  · exact readImmediate_unplaced f _
  · cases Register.ofName? f.text with
    | none => exact .of_error _ _
    | some r => exact .refl _

theorem readAddress_unplaced (symbols : SymbolTable) :
    SameResult (readAddress symbols f) (readAddress symbols f.unplaced) := by
  refine .bind (fun value => ?_) fun value => ?_
  · rw [addressValue_eq_ok_iff, addressValue_eq_ok_iff]
    rfl
  · split
    · exact .refl _
    · exact .of_error _ _

theorem readCondition_unplaced : SameResult (readCondition f) (readCondition f.unplaced) := by
  rw [readCondition, readCondition, f.text_unplaced]
  cases Condition.ofName? f.text with
  | none => exact .of_error _ _
  | some c => exact .refl _

theorem readDestination_unplaced :
    SameResult (readDestination f) (readDestination f.unplaced) := by
  rw [readDestination, readDestination, f.text_unplaced]
  cases PredicateRegister.ofName? f.text with
  | none => exact .of_error _ _
  | some p =>
    dsimp only
    split
    · exact .of_error _ _
    · exact .refl _

end Unplaced

theorem readOperation_of_miscounted {opcode : Opcode} {fragments : List Fragment}
    (h : fragments.length ≠ opcode.arity) (symbols : SymbolTable) (miscounted : Finding) :
    readOperation symbols miscounted opcode fragments = .error miscounted := by
  unfold readOperation
  split
  case h_8 => rfl
  all_goals exact absurd rfl h

/-- **What is read of operands** hangs on their texts alone. -/
theorem readOperation_unplaced (symbols : SymbolTable) (miscounted miscounted' : Finding)
    (opcode : Opcode) (fragments : List Fragment) :
    SameResult (readOperation symbols miscounted opcode fragments)
      (readOperation symbols miscounted' opcode (fragments.map Fragment.unplaced)) := by
  by_cases hlength : fragments.length = opcode.arity
  · cases opcode with
    | ldr | str | b =>
      obtain ⟨address, rfl⟩ := List.length_eq_one_iff.mp hlength
      exact (readAddress_unplaced address symbols).bind fun _ => .refl _
    | alu op =>
      obtain ⟨dest, source, operand, rfl⟩ := List.length_eq_three.mp hlength
      exact (readRegister_unplaced dest).bind fun _ => (readRegister_unplaced source).bind fun _ =>
        (readOperand_unplaced operand).bind fun _ => .refl _
    | cmp =>
      obtain ⟨source, operand, rfl⟩ := List.length_eq_two.mp hlength
      exact (readRegister_unplaced source).bind fun _ =>
        (readOperand_unplaced operand).bind fun _ => .refl _
    | setp =>
      obtain ⟨condition, dest, rfl⟩ := List.length_eq_two.mp hlength
      exact (readCondition_unplaced condition).bind fun _ =>
        (readDestination_unplaced dest).bind fun _ => .refl _
    | hlt =>
      obtain rfl := List.length_eq_zero_iff.mp hlength
      exact .refl _
  · rw [readOperation_of_miscounted hlength,
      readOperation_of_miscounted (by rwa [List.length_map])]
    exact .of_error _ _

/-! ## 3. Cuts on tokens -/

/-- Words with commas between them. -/
def commaTokens (words : List (List Char)) : List (List Char) :=
  [[',']].intercalate (words.map ([·]))

theorem mem_of_mem_commaTokens {words : List (List Char)} {token : List Char}
    (h : token ∈ commaTokens words) : token = [','] ∨ token ∈ words := by
  induction words with
  | nil => simp [commaTokens] at h
  | cons word rest ih =>
    cases rest with
    | nil => exact .inr (by simpa [commaTokens] using h)
    | cons next rest =>
      have hparts : commaTokens (word :: next :: rest) =
          word :: [','] :: commaTokens (next :: rest) := by
        simp [commaTokens, List.intercalate_cons_cons]
      rw [hparts, List.mem_cons, List.mem_cons] at h
      rcases h with rfl | rfl | h
      · exact .inr List.mem_cons_self
      · exact .inl rfl
      · exact (ih h).imp_right (List.mem_cons_of_mem word)

theorem chars_splitOperands {f : Fragment} (h : f.chars ≠ []) :
    (splitOperands f).map Fragment.chars = (f.chars.splitOn ',').map Text.trim := by
  rw [splitOperands, if_neg (by simpa [Fragment.isEmpty] using h), ← Fragment.chars_splitOn,
    List.map_map, List.map_map]
  rfl

/-- Pieces are words if each of them has this word for its tokens. -/
theorem map_trim_iff {pieces words : List (List Char)} (hwords : ∀ w ∈ words, IsWord w) :
    pieces.map Text.trim = words ↔ pieces.map tokens = words.map ([·]) := by
  induction pieces generalizing words with
  | nil => cases words <;> simp
  | cons piece rest ih =>
    cases words with
    | nil => simp
    | cons word words =>
      rw [List.forall_mem_cons] at hwords
      have hpiece : Text.trim piece = word ↔ tokens piece = [word] := by
        constructor
        · rintro rfl
          rw [← Text.tokens_trim, Text.tokens_word hwords.1]
        · exact Text.trim_of_tokens
      simp only [List.map_cons, List.cons.injEq, hpiece, ih hwords.2]

/-- **The operands** are words if the tokens are these words, with commas between. -/
theorem map_chars_splitOperands_iff {f : Fragment} (htight : Tight f.chars)
    {words : List (List Char)} (hwords : ∀ w ∈ words, IsWord w) :
    (splitOperands f).map Fragment.chars = words ↔ tokens f.chars = commaTokens words := by
  have hcomma : isMark ',' = true := by decide
  by_cases hnil : f.chars = []
  · have hnone : splitOperands f = [] := by
      rw [splitOperands, if_pos (by simp [Fragment.isEmpty, hnil])]
    rw [hnone, hnil]
    cases words with
    | nil => simp [commaTokens]
    | cons word words => cases words <;> simp [commaTokens, List.intercalate_cons_cons]
  · rw [chars_splitOperands hnil, map_trim_iff hwords, ← Text.splitOn_tokens hcomma]
    have hsplit : words ≠ [] → (commaTokens words).splitOn [','] = words.map ([·]) := by
      intro hne
      refine List.splitOn_intercalate [','] ?_ (by simpa using hne)
      intro piece hpiece
      obtain ⟨word, hmem, rfl⟩ := List.mem_map.mp hpiece
      simpa using ((hwords word hmem).ne_mark hcomma).symm
    constructor
    · intro h
      rw [commaTokens, ← h, List.intercalate_splitOn]
    · intro h
      rw [h, hsplit]
      -- A tight text that is not empty has a token.
      rintro rfl
      obtain ⟨c, rest, hchars⟩ := List.exists_cons_of_ne_nil hnil
      refine Text.tokens_cons_ne_nil (htight.first c (by simp [hchars])) rest ?_
      rw [← hchars, h]
      rfl

/-- A cut is at the first character of the kind. -/
theorem Fragment.exists_of_splitFirst? {p : Char → Bool} {f front back : Fragment}
    (h : f.splitFirst? p = some (front, back)) :
    ∃ c, p c = true ∧ f.chars = front.chars ++ c :: back.chars ∧ ∀ d ∈ front.chars, p d = false := by
  unfold splitFirst? at h
  dsimp only at h
  split at h
  · cases h
  · rename_i c after hdrop
    cases h
    have hfirst := List.head?_dropWhile_not (fun c => !p c) f.chars
    rw [hdrop] at hfirst
    refine ⟨c, by simpa using hfirst, ?_, fun d hd => ?_⟩
    · rw [takeWhile, ← hdrop, List.takeWhile_append_dropWhile]
    · simpa using List.mem_takeWhile_imp hd

/-- The mnemonic is the first token. -/
theorem tokens_splitMnemonic {f mnemonic operands : Fragment}
    (h : splitMnemonic f = (mnemonic, operands)) (hword : IsWord mnemonic.chars) :
    tokens f.chars = mnemonic.chars :: tokens operands.chars ∧ Tight operands.chars := by
  unfold splitMnemonic at h
  split at h
  · rename_i front back hsplit
    obtain ⟨rfl, rfl⟩ := Prod.mk.inj h
    obtain ⟨c, hblank, hchars, -⟩ := Fragment.exists_of_splitFirst? hsplit
    have hbreaks : Breaks (c :: back.chars) := fun d hd => by
      obtain rfl : c = d := by simpa using hd
      exact Text.not_isWordChar_of_isBlank hblank
    refine ⟨?_, Text.tight_trim back.chars⟩
    have htrim : tokens back.trim.chars = tokens back.chars := Text.tokens_trim back.chars
    rw [hchars, Text.tokens_append (.inr hbreaks), Text.tokens_word hword,
      Text.tokens_cons_blank hblank, htrim]
    rfl
  · obtain ⟨rfl, rfl⟩ := Prod.mk.inj h
    exact ⟨Text.tokens_word hword, .of_solid (by simp)⟩

/-- A first token that is a word is taken for the mnemonic, if no mark follows it at once. -/
theorem splitMnemonic_of_tokens {f : Fragment} {word : List Char} {more : List (List Char)}
    (hfirst : ∀ c ∈ f.chars.head?, Text.isBlank c = false) (hword : IsWord word)
    (h : tokens f.chars = word :: more) (hmore : ∀ token ∈ more.head?, IsWord token) :
    ∃ mnemonic operands, splitMnemonic f = (mnemonic, operands) ∧ mnemonic.chars = word ∧
      tokens operands.chars = more ∧ Tight operands.chars := by
  obtain ⟨start, chars⟩ := f
  obtain ⟨rest, rfl, hrest, htoken⟩ := Text.tokens_eq_cons_front hfirst h
  have hbreaks : Breaks rest := by
    rcases htoken with ⟨-, hbreaks⟩ | ⟨m, hm, rfl⟩
    · exact hbreaks
    · exact absurd rfl (hword.ne_mark hm)
  have hsolid : ∀ c ∈ word, Text.isBlank c = false :=
    fun c hc => Text.not_blank_of_isWordChar (hword.all c hc)
  cases rest with
  | nil =>
    rw [Text.tokens_nil] at hrest
    subst hrest
    refine ⟨⟨start, word⟩, ⟨start + Text.byteWidth word, []⟩, ?_, rfl, rfl, .of_solid (by simp)⟩
    rw [List.append_nil, splitMnemonic, Fragment.splitFirst?_eq_none hsolid]
    rfl
  | cons c rest =>
    rcases Text.char_cases c with hblank | hmark | hchar
    · rw [Text.tokens_cons_blank hblank] at hrest
      have hsplit := @Fragment.splitFirst?_append _ start _ rest _ hsolid hblank
      refine ⟨_, _, by rw [splitMnemonic, hsplit], rfl, ?_, Text.tight_trim rest⟩
      exact (Text.tokens_trim rest).trans hrest
    · rw [Text.tokens_cons_mark hmark] at hrest
      exact absurd rfl ((hmore [c] (by simp [← hrest])).ne_mark hmark)
    · have hnot := hbreaks c rfl
      rw [hchar] at hnot
      cases hnot

/-- Which tokens are a predicate in parentheses. -/
def GuardReads (guard : List (List Char)) (predicate : Predicate) : Prop :=
  guard = [] ∧ predicate = .always ∨
    ∃ name, guard = [['('], name, [')']] ∧ IsWord name ∧
      Predicate.ofText? (String.ofList name) = some predicate

theorem Predicate.ofText?_trim (cs : List Char) :
    ofText? (String.ofList (Text.trim cs)) = ofText? (String.ofList cs) := by
  rw [ofText?, ofText?, String.toList_ofList, String.toList_ofList, (Text.tight_trim cs).trim]

theorem readPredicate_of_no_parenthesis {body : Fragment} (h : ∀ more, body.chars ≠ '(' :: more) :
    readPredicate body = .ok (.always, body) := by
  unfold readPredicate
  split
  · rename_i more hchars
    exact absurd hchars (h more)
  · rfl

/-- The text up to the first closing parenthesis is taken for a predicate. -/
theorem readPredicate_of_parentheses (start : Nat) {inner : List Char} (h : ')' ∉ inner)
    (behind : List Char) :
    ∃ place, ∀ predicate rest,
      readPredicate ⟨start, '(' :: (inner ++ ')' :: behind)⟩ = .ok (predicate, rest) ↔
        Predicate.ofText? (String.ofList inner) = some predicate ∧
          rest = (Fragment.mk place behind).trimStart := by
  have hopened : ∀ c ∈ '(' :: inner, (c == ')') = false := by
    rw [List.forall_mem_cons]
    exact ⟨by decide, fun c hc => by simpa using ne_of_mem_of_not_mem hc h⟩
  have hsplit := @Fragment.splitFirst?_append _ start _ behind _ hopened
    (show (')' == ')') = true from rfl)
  rw [List.cons_append] at hsplit
  refine ⟨start + Text.byteWidth ('(' :: inner) + ')'.utf8Size, fun predicate rest => ?_⟩
  simp only [readPredicate, hsplit, List.drop_succ_cons, List.drop_zero]
  cases Predicate.ofText? (String.ofList inner) with
  | none => simp
  | some predicate' => simp [eq_comm]

/-- **The predicate** is the first three tokens, if there is one. -/
theorem tokens_readPredicate {body rest : Fragment} {predicate : Predicate}
    (hfirst : ∀ c ∈ body.chars.head?, Text.isBlank c = false)
    (h : readPredicate body = .ok (predicate, rest)) :
    ∃ guard, GuardReads guard predicate ∧ tokens body.chars = guard ++ tokens rest.chars ∧
      ∀ c ∈ rest.chars.head?, Text.isBlank c = false := by
  obtain ⟨start, chars⟩ := body
  by_cases hparenthesis : ∃ more, chars = '(' :: more
  · obtain ⟨more, rfl⟩ := hparenthesis
    by_cases hclosed : ')' ∈ more
    · obtain ⟨inner, behind, rfl, hinner⟩ := List.eq_append_cons_of_mem hclosed
      obtain ⟨place, hread⟩ := readPredicate_of_parentheses start hinner behind
      obtain ⟨hname, rfl⟩ := (hread predicate rest).mp h
      have hword := Predicate.isWord_of_ofText? hname
      have htokens : tokens inner = [Text.trim inner] := by
        rw [← Text.tokens_word hword, Text.tokens_trim]
      have hrest : tokens (Fragment.mk place behind).trimStart.chars = tokens behind :=
        Text.tokens_trimStart behind
      refine ⟨[['('], Text.trim inner, [')']], .inr ⟨Text.trim inner, rfl, hword, ?_⟩, ?_,
        Text.not_blank_of_head?_dropWhile⟩
      · exact (Predicate.ofText?_trim inner).trans hname
      · have hopening : tokens ('(' :: (inner ++ ')' :: behind)) =
            ['('] :: tokens (inner ++ ')' :: behind) := Text.tokens_cons_mark (by decide) _
        have hclosing : tokens (inner ++ ')' :: behind) = tokens inner ++ [')'] :: tokens behind :=
          Text.tokens_append_mark (by decide) inner behind
        simp [hrest, hopening, hclosing, htokens]
    · have hnone : ∀ c ∈ '(' :: more, (c == ')') = false := by
        rw [List.forall_mem_cons]
        exact ⟨by decide, fun c hc => by simpa using ne_of_mem_of_not_mem hc hclosed⟩
      have hsplit : (Fragment.mk start ('(' :: more)).splitFirst? (· == ')') = none :=
        Fragment.splitFirst?_eq_none hnone
      simp only [readPredicate, hsplit] at h
      cases h
  · rw [readPredicate_of_no_parenthesis fun more hchars => hparenthesis ⟨more, hchars⟩] at h
    cases h
    exact ⟨[], .inl ⟨rfl, rfl⟩, rfl, hfirst⟩

/-- The tokens of a predicate are taken for it, and a word in front is taken for none. -/
theorem readPredicate_of_tokens {body : Fragment} {predicate : Predicate}
    {guard more : List (List Char)} {word : List Char}
    (hfirst : ∀ c ∈ body.chars.head?, Text.isBlank c = false) (hword : IsWord word)
    (hguard : GuardReads guard predicate) (h : tokens body.chars = guard ++ word :: more) :
    ∃ rest, readPredicate body = .ok (predicate, rest) ∧ tokens rest.chars = word :: more ∧
      ∀ c ∈ rest.chars.head?, Text.isBlank c = false := by
  obtain ⟨start, chars⟩ := body
  rcases hguard with ⟨rfl, rfl⟩ | ⟨name, rfl, hname, hread⟩
  · refine ⟨⟨start, chars⟩, readPredicate_of_no_parenthesis ?_, h, hfirst⟩
    -- An opening parenthesis would be the first token.
    rintro inner rfl
    rw [Text.tokens_cons_mark (by decide)] at h
    exact absurd (List.cons.inj h).1.symm (hword.ne_mark (by decide))
  · obtain ⟨inside, rfl, hinside, -⟩ := Text.tokens_eq_cons_front hfirst h
    have hinside : tokens inside = [name] ++ [')'] :: word :: more := hinside
    have hclosed : [')'] ∉ [name] := by
      simpa using (hname.ne_mark (by decide)).symm
    obtain ⟨inner, behind, rfl, hinner, htokens, hbehind⟩ :=
      Text.exists_of_tokens_mark (by decide) hinside hclosed
    obtain ⟨place, hpredicate⟩ := readPredicate_of_parentheses start hinner behind
    rw [← Text.trim_of_tokens htokens, Predicate.ofText?_trim] at hread
    exact ⟨_, (hpredicate predicate _).mpr ⟨hread, rfl⟩, (Text.tokens_trimStart behind).trans hbehind,
      Text.not_blank_of_head?_dropWhile⟩

/-! ## 4. Instructions -/

/-- **Which tokens are which instruction**, with the symbols it may refer to: perhaps a predicate in
parentheses, then a mnemonic, then the operands with commas between. -/
def Reads (symbols : SymbolTable) (ts : List (List Char)) (i : Instruction) : Prop :=
  ∃ guard mnemonic operands opcode, ts = guard ++ mnemonic :: commaTokens operands ∧
    GuardReads guard i.predicate ∧ IsWord mnemonic ∧
    Opcode.ofName? (String.ofList mnemonic) = some opcode ∧ (∀ w ∈ operands, IsWord w) ∧
    ∀ miscounted, readOperation symbols miscounted opcode (operands.map (Fragment.mk 0)) =
      .ok i.operation

theorem head?_commaTokens {words : List (List Char)} (h : ∀ w ∈ words, IsWord w) :
    ∀ token ∈ (commaTokens words).head?, IsWord token := by
  rcases words with _ | ⟨word, _ | ⟨next, rest⟩⟩
  · simp [commaTokens]
  · simpa [commaTokens] using h
  · simpa [commaTokens, List.intercalate_cons_cons] using h word List.mem_cons_self

/-- **An instruction is read from its tokens**, wherever it stands and however it is spaced out. -/
theorem readInstruction_eq_ok_iff {symbols : SymbolTable} {body : Fragment}
    (htight : Tight body.chars) {i : Instruction} :
    readInstruction symbols body = .ok i ↔ Reads symbols (tokens body.chars) i := by
  constructor
  · intro h
    obtain ⟨⟨predicate, rest⟩, hpredicate, h⟩ := exists_of_bind_eq_ok h
    rcases hparts : splitMnemonic rest with ⟨mnemonic, operands⟩
    simp only [hparts] at h
    split at h
    · cases h
    · obtain ⟨op, hop, h⟩ := exists_of_bind_eq_ok h
      cases h
      unfold readOperationOf at hop
      split at hop
      · cases hop
      · rename_i opcode hopcode
        have hword : IsWord mnemonic.chars :=
          isWord_of_upper ((Opcode.upper_of_ofName? hopcode) ▸ plain_mnemonic opcode)
        have hwords : ∀ w ∈ (splitOperands operands).map Fragment.chars, IsWord w :=
          List.forall_mem_map.mpr (isWord_of_readOperation hop)
        obtain ⟨guard, hguard, hbody, -⟩ := tokens_readPredicate htight.first hpredicate
        obtain ⟨hrest, hoperands⟩ := tokens_splitMnemonic hparts hword
        refine ⟨guard, mnemonic.chars, (splitOperands operands).map Fragment.chars, opcode, ?_,
          hguard, hword, hopcode, hwords, fun miscounted => ?_⟩
        · rw [hbody, hrest, (map_chars_splitOperands_iff hoperands hwords).mp rfl]
        · rw [List.map_map]
          exact (readOperation_unplaced symbols _ miscounted opcode _ op).mp hop
  · rintro ⟨guard, mnemonic, words, opcode, htokens, hguard, hword, hopcode, hwords, hop⟩
    obtain ⟨rest, hpredicate, hrest, hfirst⟩ :=
      readPredicate_of_tokens htight.first hword hguard htokens
    obtain ⟨name, operands, hparts, rfl, hoperands, htightOperands⟩ :=
      splitMnemonic_of_tokens hfirst hword hrest (head?_commaTokens hwords)
    have hfragments : (splitOperands operands).map Fragment.chars = words :=
      (map_chars_splitOperands_iff htightOperands hwords).mpr hoperands
    have hnonempty : ¬ name.isEmpty = true := by
      simpa [Fragment.isEmpty] using hword.ne_nil
    have hread : ∀ miscounted,
        readOperation symbols miscounted opcode (splitOperands operands) = .ok i.operation := by
      intro miscounted
      refine (readOperation_unplaced symbols _ miscounted opcode _ i.operation).mpr ?_
      rw [← hop miscounted, ← hfragments, List.map_map]
      rfl
    have hopcode' : Opcode.ofName? name.text = some opcode := hopcode
    simp only [readInstruction, hpredicate, hparts, readOperationOf, hopcode', hread, bind,
      Except.bind, if_neg hnonempty]
    rfl

end PredicatedCpu

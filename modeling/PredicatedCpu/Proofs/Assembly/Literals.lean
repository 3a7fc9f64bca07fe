/-
# Literals are not cut

The word of an instruction has nine bits for an address and three for an immediate, and encoding an
instruction cuts off whatever does not fit.  So a number that is too large has to be refused where
it is read.  The digits may be many, and most of them zeros, and the number may be too large for any
word that a reader would keep it in; still it is read as what it denotes, or not at all.

* `LabelledAt`: which address a name stands for in a source, whether or not the source is assembled,
  and `get?_symbolsOf`;
* `AddressSays`: what a text in the place of an address says;
* `readAddress_eq_ok_iff`, `readImmediate_eq_ok_iff`: what is read;
* `literals_read_exactly`: an address and an immediate are read for what they say, and everything
  else is complained of.
-/
import PredicatedCpu.Proofs.Assembly.Range
import PredicatedCpu.Proofs.Assembly.Statements
import PredicatedCpu.Proofs.Text.Numerals

namespace PredicatedCpu

/-! ## 1. Labels of any source -/

/-- Whether a label **defines** a name: it can be defined at all, and it is the name, in either
case. -/
structure PlacedLabel.Defines (l : PlacedLabel) (name : String) : Prop where
  definable : l.Definable
  name_eq : Text.upper l.name.text = Text.upper name

/-- Whether a name **stands for** an address among some labels: the first of them that defines the
name is at this address.  A label that is wrong defines nothing, and one that comes too late does
not count. -/
def LabelledAt (labels : List PlacedLabel) (name : String) (address : Nat) : Prop :=
  ∃ front l back, labels = front ++ l :: back ∧ l.Defines name ∧ l.address = address ∧
    ∀ l' ∈ front, ¬ l'.Defines name

theorem not_labelledAt_nil (name : String) (address : Nat) : ¬ LabelledAt [] name address := by
  rintro ⟨front, l, back, hnil, -⟩
  simp at hnil

theorem labelledAt_cons {l : PlacedLabel} {rest : List PlacedLabel} {name : String}
    {address : Nat} :
    LabelledAt (l :: rest) name address ↔
      l.Defines name ∧ l.address = address ∨ ¬ l.Defines name ∧ LabelledAt rest name address := by
  constructor
  · rintro ⟨front, l', back, hlabels, hdefines, haddress, hfront⟩
    rcases front with _ | ⟨first, front⟩
    · obtain ⟨rfl, -⟩ := List.cons.inj hlabels
      exact .inl ⟨hdefines, haddress⟩
    · obtain ⟨rfl, hrest⟩ := List.cons.inj hlabels
      rw [List.forall_mem_cons] at hfront
      exact .inr ⟨hfront.1, front, l', back, hrest, hdefines, haddress, hfront.2⟩
  · rintro (⟨hdefines, haddress⟩ | ⟨hnot, front, l', back, rfl, hdefines, haddress, hfront⟩)
    · exact ⟨[], l, rest, rfl, hdefines, haddress, nofun⟩
    · exact ⟨l :: front, l', back, rfl, hdefines, haddress, List.forall_mem_cons.mpr ⟨hnot, hfront⟩⟩

theorem LabelledAt.inMemory {labels : List PlacedLabel} {name : String} {address : Nat}
    (h : LabelledAt labels name address) : address < memorySize := by
  obtain ⟨front, l, back, -, hdefines, rfl, -⟩ := h
  exact hdefines.definable.inMemory

theorem get?_tableOf_singleton {l : PlacedLabel} {name : String} {address : Nat} :
    (tableOf [l]).get? name = some address ↔
      Text.upper l.name.text = Text.upper name ∧ l.address = address := by
  simp only [tableOf, SymbolTable.get?, PlacedLabel.symbol, List.map_cons, List.map_nil,
    List.lookup_cons, List.lookup_nil]
  split
  · rename_i hname
    simp [(beq_iff_eq.mp hname).symm]
  · rename_i hname
    have hne : ¬ Text.upper l.name.text = Text.upper name := fun heq =>
      absurd (beq_iff_eq.mpr heq.symm) (by simp [hname])
    simp [hne]

namespace Entry

theorem extend_of_unlabelled {e : Entry} (h : e.label? = none) (table : SymbolTable) :
    e.extend table = table := by
  rw [extend, defineLabel_of_unlabelled h]

theorem extend_of_definable {e : Entry} {l : PlacedLabel} (h : e.label? = some l)
    {table : SymbolTable} (hdefinable : l.Definable) (hnew : l.symbol.1 ∉ table.names) :
    e.extend table = table.append (tableOf [l]) := by
  rw [extend, defineLabel_of_label h, defineLabel_eq_ok_iff.mpr ⟨hdefinable, hnew, rfl⟩]

/-- A label that is wrong, or comes too late, adds nothing. -/
theorem extend_of_not_definable {e : Entry} {l : PlacedLabel} (h : e.label? = some l)
    {table : SymbolTable} (hnot : ¬ (l.Definable ∧ l.symbol.1 ∉ table.names)) :
    e.extend table = table := by
  rw [extend, defineLabel_of_label h]
  split
  · rename_i table' hdefine
    obtain ⟨hdefinable, hnew, -⟩ := defineLabel_eq_ok_iff.mp hdefine
    exact absurd ⟨hdefinable, hnew⟩ hnot
  · rfl

/-- **A label adds its name** to a table, unless it is wrong or the name is there. -/
theorem get?_extend {e : Entry} {l : PlacedLabel} (h : e.label? = some l) (table : SymbolTable)
    {name : String} {address : Nat} :
    (e.extend table).get? name = some address ↔
      table.get? name = some address ∨
        table.get? name = none ∧ l.Defines name ∧ l.address = address := by
  by_cases hok : l.Definable ∧ l.symbol.1 ∉ table.names
  · rw [extend_of_definable h hok.1 hok.2]
    simp only [SymbolTable.get?_append, Option.or_eq_some_iff, get?_tableOf_singleton]
    exact or_congr_right (and_congr_right fun _ =>
      ⟨fun ⟨hname, haddress⟩ => ⟨⟨hok.1, hname⟩, haddress⟩,
        fun ⟨hdefines, haddress⟩ => ⟨hdefines.name_eq, haddress⟩⟩)
  · rw [extend_of_not_definable h hok]
    refine ⟨.inl, ?_⟩
    rintro (hfound | ⟨hnone, hdefines, -⟩)
    · exact hfound
    · -- A name that the table does not have would have been defined.
      refine absurd ⟨hdefines.definable, ?_⟩ hok
      rw [PlacedLabel.symbol, hdefines.name_eq]
      exact SymbolTable.get?_eq_none_iff.mp hnone

end Entry

/-- The table after some statements: the induction is on the statements, and what a name stands for
is settled by the first label that defines it. -/
theorem get?_foldl_extend (es : List Entry) (before : SymbolTable) {name : String}
    {address : Nat} :
    (es.foldl Entry.extend before).get? name = some address ↔
      before.get? name = some address ∨
        before.get? name = none ∧ LabelledAt (es.filterMap Entry.label?) name address := by
  induction es generalizing before with
  | nil => simp [not_labelledAt_nil]
  | cons e rest ih =>
    rw [List.foldl_cons, ih]
    cases hlabel : e.label? with
    | none => rw [Entry.extend_of_unlabelled hlabel, List.filterMap_cons_none hlabel]
    | some l =>
      have hnone : (e.extend before).get? name = none ↔
          before.get? name = none ∧ ¬ l.Defines name := by
        simp only [Option.eq_none_iff_forall_ne_some, ne_eq, Entry.get?_extend hlabel, not_or,
          not_and, forall_and]
        refine and_congr_right fun hbefore => ?_
        exact ⟨fun h hdefines => h _ hbefore hdefines rfl, fun h a _ hdefines => absurd hdefines h⟩
      rw [List.filterMap_cons_some hlabel, labelledAt_cons, hnone, Entry.get?_extend hlabel]
      tauto

/-- **The symbols of any source**, assembled or not: a name has the address that it stands for among
the labels. -/
theorem get?_symbolsOf {source name : String} {address : Nat} :
    (symbolsOf (entries source)).get? name = some address ↔
      LabelledAt (labelsOf source) name address := by
  rw [symbolsOf, get?_foldl_extend, labels_entries, labelsOf]
  simp

/-! ## 2. Addresses -/

/-- What a text in the place of an address **says**: a numeral, decimal or behind `0x`, says what it
denotes, if that is an address; and an identifier says where the label of this name is. -/
def AddressSays (source : String) (cs : List Char) (value : Nat) : Prop :=
  Text.Denotes .hex cs value ∧ value ≤ 511 ∨
    isIdentifier cs = true ∧ LabelledAt (labelsOf source) (String.ofList cs) value

/-- What an identifier begins with may stand anywhere in it. -/
theorem isIdentifierPart_of_start {c : Char} (h : isIdentifierStart c = true) :
    isIdentifierPart c = true := by
  simp only [isIdentifierStart, isIdentifierPart, Char.isAlphanum, Bool.or_eq_true] at h ⊢
  rcases h with hletter | hunderscore
  · exact .inl (.inl hletter)
  · exact .inr hunderscore

/-- Identifiers are made of ASCII characters, and all of these can be gone through. -/
theorem toNat_lt_of_isIdentifierPart {c : Char} (h : isIdentifierPart c = true) :
    c.toNat < 128 := by
  have hle : ∀ d : Char, c.val ≤ d.val → c.toNat ≤ d.toNat := fun d hd => hd
  have hranges : (decide ('A'.val ≤ c.val ∧ c.val ≤ 'Z'.val) ||
      (decide ('a'.val ≤ c.val) && decide (c.val ≤ 'z'.val)) ||
      (decide ('0'.val ≤ c.val) && decide (c.val ≤ '9'.val)) || c == '_') = true := h
  simp only [Bool.or_eq_true, Bool.and_eq_true, decide_eq_true_eq, beq_iff_eq] at hranges
  rcases hranges with ((h | h) | h) | rfl
  · exact Nat.lt_of_le_of_lt (hle 'Z' h.2) (by decide)
  · exact Nat.lt_of_le_of_lt (hle 'z' h.2) (by decide)
  · exact Nat.lt_of_le_of_lt (hle '9' h.2) (by decide)
  · decide

/-- Whether a text begins with a digit. -/
def startsWithDigit (cs : List Char) : Bool := (cs.head?.map Char.isDigit).getD false

/-- A numeral begins with a digit, also if it has a radix mark. -/
theorem Text.Denotes.startsWithDigit {marks : Marks} {cs : List Char} {value : Nat}
    (h : Denotes marks cs value) : startsWithDigit cs = true := by
  rcases h with h | ⟨mark, digits, -, rfl, -⟩ | ⟨-, mark, digits, -, rfl, -⟩
  · cases cs with
    | nil => exact absurd rfl h.1
    | cons c rest => exact h.isDigit c List.mem_cons_self
  · rfl
  · rfl

/-- An identifier does not, so no text is both. -/
theorem startsWithDigit_of_isIdentifier {cs : List Char} (h : isIdentifier cs = true) :
    startsWithDigit cs = false := by
  cases cs with
  | nil => cases h
  | cons c rest =>
    have hstart : isIdentifierStart c = true := (Bool.and_eq_true_iff.mp h).1
    have hall : ∀ n < 128, isIdentifierStart (Char.ofNat n) = true →
        (Char.ofNat n).isDigit = false := by decide +kernel
    have hc := hall c.toNat (toNat_lt_of_isIdentifierPart (isIdentifierPart_of_start hstart))
    rw [Char.ofNat_toNat] at hc
    exact hc hstart

/-- The cases of an address are told apart by its first character. -/
theorem addressValue_eq_ok_iff {symbols : SymbolTable} {f : Fragment} {value : Nat} :
    addressValue symbols f = .ok value ↔
      Text.Denotes .hex f.chars value ∧ value < 2 ^ 32 ∨
        isIdentifier f.chars = true ∧ symbols.get? f.text = some value := by
  have hbelow : Text.numeralBelow? (.pow 2 32) .hex f.chars = some value ↔
      Text.Denotes .hex f.chars value ∧ value < 2 ^ 32 := Text.numeralBelow?_eq_some_iff
  rw [addressValue, ← startsWithDigit, ← hbelow]
  by_cases hdigit : startsWithDigit f.chars = true
  · have hnot : ¬ isIdentifier f.chars = true := fun h => by
      rw [startsWithDigit_of_isIdentifier h] at hdigit
      cases hdigit
    rw [if_pos hdigit]
    cases Text.numeralBelow? (.pow 2 32) .hex f.chars <;> simp [hnot]
  · have hnot : ¬ Text.numeralBelow? (.pow 2 32) .hex f.chars = some value :=
      fun h => hdigit (hbelow.mp h).1.startsWithDigit
    rw [if_neg hdigit]
    by_cases hidentifier : isIdentifier f.chars = true
    · rw [if_pos hidentifier]
      cases symbols.get? f.text <;> simp [hnot, hidentifier]
    · rw [if_neg hidentifier]
      simp [hnot, hidentifier]

/-- **An address is read for what it says.**  That a numeral which is too large for its reader is
not read at all makes no difference: it is no address either. -/
theorem readAddress_eq_ok_iff {source : String} {f : Fragment} {address : Word} :
    readAddress (symbolsOf (entries source)) f = .ok address ↔
      AddressSays source f.chars address.toNat := by
  have hvalue : readAddress (symbolsOf (entries source)) f = .ok address ↔
      addressValue (symbolsOf (entries source)) f = .ok address.toNat ∧
        address.toNat < memorySize := by
    constructor
    · intro h
      obtain ⟨value, hvalue, h⟩ := exists_of_bind_eq_ok h
      split at h
      · rename_i hlt
        cases h
        have hsmall : value < 512 := hlt
        rw [Word.toNat_ofNat_of_lt (by omega)]
        exact ⟨hvalue, hlt⟩
      · cases h
    · rintro ⟨hvalue, hlt⟩
      rw [readAddress, hvalue]
      exact (if_pos hlt).trans (by simp [Word.ofNat])
  rw [hvalue, addressValue_eq_ok_iff, AddressSays, or_and_right]
  refine or_congr ?_ ?_
  · rw [and_assoc]
    exact and_congr_right fun _ => ⟨fun h => Nat.le_of_lt_succ h.2,
      fun h => ⟨Nat.lt_of_le_of_lt h (by decide), Nat.lt_succ_of_le h⟩⟩
  · rw [Fragment.text, get?_symbolsOf]
    exact ⟨fun h => h.1, fun h => ⟨h, h.2.inMemory⟩⟩

/-- An identifier that is no label is complained of as such. -/
theorem readAddress_of_undefined {symbols : SymbolTable} {f : Fragment}
    (hidentifier : isIdentifier f.chars = true) (hnone : symbols.get? f.text = none) :
    readAddress symbols f = .error (f.finding (.undefinedLabel f.text)) := by
  have hdigit : ¬ (f.chars.head?.map Char.isDigit).getD false = true := by
    rw [← startsWithDigit, startsWithDigit_of_isIdentifier hidentifier]
    decide
  rw [readAddress, addressValue, if_neg hdigit, if_pos hidentifier, hnone]
  rfl

/-- Any other text that is no address is out of range, whether it is malformed or too large. -/
theorem readAddress_error_of_not_identifier {symbols : SymbolTable} {f : Fragment}
    {finding : Finding} (h : readAddress symbols f = .error finding)
    (hnot : ¬ isIdentifier f.chars = true) :
    ∃ problem : Problem, finding = f.finding problem ∧ problem.category = .outOfRange := by
  unfold readAddress addressValue at h
  rw [if_neg hnot] at h
  split at h
  · split at h
    · rename_i value _
      change (if value < memorySize then _ else _) = _ at h
      split at h <;> cases h
      exact ⟨.farAddress f.text, rfl, rfl⟩
    · cases h
      exact ⟨.malformedAddress f.text, rfl, rfl⟩
  · cases h
    exact ⟨.malformedAddress f.text, rfl, rfl⟩

/-! ## 3. Immediates -/

/-- **An immediate is read for what it denotes.** -/
theorem readImmediate_eq_ok_iff {f : Fragment} {digits : List Char} {operand : Operand} :
    readImmediate f digits = .ok operand ↔
      ∃ value : Word, operand = .immediate value ∧ value.toNat ≤ 7 ∧
        Text.Denotes .all digits value.toNat := by
  constructor
  · intro h
    unfold readImmediate at h
    split at h
    · cases h
    · rename_i value hvalue
      split at h
      · cases h
      · rename_i hle
        cases h
        obtain ⟨hdenotes, -⟩ := Text.numeralBelow?_eq_some_iff.mp hvalue
        have hword : (Word.ofNat value).toNat = value := Word.toNat_ofNat_of_lt (by omega)
        exact ⟨_, rfl, by omega, hword.symm ▸ hdenotes⟩
  · rintro ⟨value, rfl, hle, hdenotes⟩
    have hlt : value.toNat < .pow 2 32 := Nat.lt_of_le_of_lt hle (by decide)
    rw [readImmediate, Text.numeralBelow?_eq_some_iff.mpr ⟨hdenotes, hlt⟩]
    simp only [if_neg (Nat.not_lt.mpr hle), Word.ofNat, BitVec.ofNat_toNat, BitVec.setWidth_eq]

theorem readImmediate_error {f : Fragment} {digits : List Char} {finding : Finding}
    (h : readImmediate f digits = .error finding) :
    ∃ problem : Problem, finding = f.finding problem ∧ problem.category = .outOfRange := by
  unfold readImmediate at h
  split at h
  · cases h
    exact ⟨.malformedImmediate f.text, rfl, rfl⟩
  · split at h <;> cases h
    exact ⟨.wideImmediate f.text, rfl, rfl⟩

/-! ## 4. All of it -/

/-- **Literals are not cut.**  For the symbols of any source, assembled or not, an address is read
from a text just if the text says one, and it is the one that the text says; what says none is
complained of as an undefined label, if it is an identifier, and as out of range otherwise.  An
operand behind `#` is read just if it is a numeral up to seven, and for what the numeral denotes;
everything else there is out of range. -/
theorem literals_read_exactly (source : String) (f : Fragment) :
    (∀ address : Word, readAddress (symbolsOf (entries source)) f = .ok address ↔
      AddressSays source f.chars address.toNat) ∧
    ((∀ value, ¬ AddressSays source f.chars value) → ∃ problem : Problem,
      readAddress (symbolsOf (entries source)) f = .error (f.finding problem) ∧
        if isIdentifier f.chars = true then problem = .undefinedLabel f.text
        else problem.category = .outOfRange) ∧
    ∀ digits, f.chars = '#' :: digits →
      (∀ operand, readOperand f = .ok operand ↔ ∃ value : Word, operand = .immediate value ∧
        value.toNat ≤ 7 ∧ Text.Denotes .all digits value.toNat) ∧
      ((∀ value, Text.Denotes .all digits value → ¬ value ≤ 7) → ∃ problem : Problem,
        readOperand f = .error (f.finding problem) ∧ problem.category = .outOfRange) := by
  refine ⟨fun address => readAddress_eq_ok_iff, fun hnothing => ?_, fun digits hchars => ?_⟩
  · by_cases hidentifier : isIdentifier f.chars = true
    · have hnone : (symbolsOf (entries source)).get? f.text = none :=
        Option.eq_none_iff_forall_ne_some.mpr fun value hvalue =>
          hnothing value (.inr ⟨hidentifier, get?_symbolsOf.mp hvalue⟩)
      exact ⟨_, readAddress_of_undefined hidentifier hnone, if_pos hidentifier ▸ rfl⟩
    · cases hread : readAddress (symbolsOf (entries source)) f with
      | ok address => exact absurd (readAddress_eq_ok_iff.mp hread) (hnothing address.toNat)
      | error finding =>
        obtain ⟨problem, rfl, hcategory⟩ := readAddress_error_of_not_identifier hread hidentifier
        exact ⟨problem, rfl, (if_neg hidentifier).symm ▸ hcategory⟩
  · have hoperand : readOperand f = readImmediate f digits := by
      rw [readOperand, hchars]
      rfl
    rw [hoperand]
    refine ⟨fun operand => readImmediate_eq_ok_iff, fun hdenotes => ?_⟩
    cases hread : readImmediate f digits with
    | ok operand =>
      obtain ⟨value, -, hle, hvalue⟩ := readImmediate_eq_ok_iff.mp hread
      exact absurd hle (hdenotes value.toNat hvalue)
    | error finding =>
      obtain ⟨problem, rfl, hcategory⟩ := readImmediate_error hread
      exact ⟨problem, rfl, hcategory⟩

/-- Zeros in front of it do not keep the greatest address from being read.  A name that nothing
stands for is an undefined label, a sign is out of range, and seven above `2 ^ 32` does not come out
as seven. -/
theorem long_literal_read_and_others_refused :
    readAddress (symbolsOf (entries "HLT")) ⟨0, "0X0000000000001Ff".toList⟩ = .ok 511 ∧
    (∃ problem : Problem, problem.category = .undefinedLabel ∧
      readAddress (symbolsOf (entries "HLT")) ⟨0, "LOOP".toList⟩ = .error ⟨problem, ⟨0, 4⟩⟩) ∧
    (∃ problem : Problem, problem.category = .outOfRange ∧
      readAddress (symbolsOf (entries "HLT")) ⟨0, "-1".toList⟩ = .error ⟨problem, ⟨0, 2⟩⟩) ∧
    ∃ problem : Problem, problem.category = .outOfRange ∧
      readOperand ⟨0, "#4294967303".toList⟩ = .error ⟨problem, ⟨0, 11⟩⟩ := by
  have hunlabelled : labelsOf "HLT" = [] := by decide
  have hnothing : ∀ cs value, Text.numeral? .hex cs = none → ¬ AddressSays "HLT" cs value := by
    rintro cs value hnone (⟨hdenotes, -⟩ | ⟨-, hlabelled⟩)
    · rw [Text.numeral?_eq_some_iff.mpr hdenotes] at hnone
      cases hnone
    · exact not_labelledAt_nil _ _ (hunlabelled ▸ hlabelled)
  have hgreatest : Text.Denotes .hex "0X0000000000001Ff".toList 511 :=
    Text.numeral?_eq_some_iff.mp (by decide)
  have hfar : Text.Denotes .all "4294967303".toList 4294967303 :=
    Text.numeral?_eq_some_iff.mp (by decide)
  refine ⟨?_, ?_, ?_, ?_⟩
  · exact ((literals_read_exactly "HLT" _).1 511).mpr (.inl ⟨hgreatest, by decide⟩)
  · obtain ⟨problem, hread, hproblem⟩ := (literals_read_exactly "HLT" ⟨0, "LOOP".toList⟩).2.1
      fun value => hnothing _ value (by decide)
    rw [if_pos (by decide)] at hproblem
    exact ⟨problem, hproblem ▸ rfl, hread⟩
  · obtain ⟨problem, hread, hproblem⟩ := (literals_read_exactly "HLT" ⟨0, "-1".toList⟩).2.1
      fun value => hnothing _ value (by decide)
    rw [if_neg (by decide)] at hproblem
    exact ⟨problem, hproblem, hread⟩
  · obtain ⟨problem, hread, hproblem⟩ :=
      ((literals_read_exactly "HLT" ⟨0, "#4294967303".toList⟩).2.2 _ rfl).2
        fun value hvalue => hvalue.unique hfar ▸ by decide
    exact ⟨problem, hproblem, hread⟩

end PredicatedCpu

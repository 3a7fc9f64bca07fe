/-
# A finding points at what it is about

Whoever reads a part of a line and fails complains of that part, and says where it lies.  The part
went through several cuts by then: the comment was taken off, then the label, the predicate and the
mnemonic, the operands were cut at commas, and each was trimmed.  Still the place that a finding
names is the place of something in the line, and a reader of instructions complains of nothing else
than the instruction.

* `Concern`: what a problem is about, a label, the size of the program or an instruction;
* `Finding.Blames`: a finding that is about one of these and points into a fragment;
* `blames_of_readInstruction`, `blames_of_defineLabel`: what is found wrong with an instruction or a
  label;
* `Statement.ofLine?_pieces`: and both of them are pieces of their line.
-/
import PredicatedCpu.Assembly.Assemble
import PredicatedCpu.Proofs.Text.Pieces

namespace PredicatedCpu

/-! ## 1. Concerns -/

/-- What a problem is about. -/
inductive Concern where
  /-- A label that cannot be defined. -/
  | label
  /-- More instructions than memory holds. -/
  | size
  /-- An instruction that cannot be read. -/
  | instruction
  deriving DecidableEq, Repr

/-- Every concern, in the order in which those of one line are reported. -/
def Concern.all : List Concern := [label, size, instruction]

/-- What a problem is about. -/
def Problem.concern : Problem → Concern
  | labelPastEnd .. | malformedLabel .. | reservedLabel .. | duplicateLabel .. => .label
  | programTooLarge .. => .size
  | _ => .instruction

/-- Only one category is about the size of the program. -/
theorem Problem.concern_eq_size_iff {p : Problem} :
    p.concern = .size ↔ p.category = .programTooLarge := by
  cases p <;> simp [concern, category]

/-- Whether a finding **blames** a fragment: it is about `concern` and points into the fragment. -/
structure Finding.Blames (finding : Finding) (concern : Concern) (f : Fragment) : Prop where
  concern : finding.problem.concern = concern
  place : finding.span.Marks f

/-- What blames a piece blames the whole. -/
theorem Finding.Blames.mono {finding : Finding} {concern : Concern} {f g : Fragment}
    (h : finding.Blames concern f) (hf : f.PieceOf g) : finding.Blames concern g :=
  ⟨h.concern, h.place.mono hf⟩

/-- A finding about a fragment blames it. -/
theorem Fragment.blames_finding (f : Fragment) (problem : Problem) :
    (f.finding problem).Blames problem.concern f :=
  ⟨rfl, .of_pieceOf (.refl f)⟩

/-- A sequence of readers fails where the first of them does, or else the second. -/
theorem error_of_bind_eq_error {ε α β : Type} {x : Except ε α} {f : α → Except ε β} {e : ε}
    (h : (x >>= f) = .error e) : x = .error e ∨ ∃ a, x = .ok a ∧ f a = .error e := by
  cases x with
  | error e' =>
    cases h
    exact .inl rfl
  | ok a => exact .inr ⟨a, rfl, h⟩

/-- The last reader of a sequence, whose result is only wrapped. -/
theorem error_of_map_eq_error {ε α β : Type} {x : Except ε α} {f : α → β} {e : ε}
    (h : (x >>= fun a => .ok (f a)) = .error e) : x = .error e := by
  rcases error_of_bind_eq_error h with h | ⟨a, -, h⟩
  · exact h
  · cases h

/-! ## 2. Operands -/

theorem blames_of_readRegister {f : Fragment} {finding : Finding}
    (h : readRegister f = .error finding) : finding.Blames .instruction f := by
  unfold readRegister at h
  split at h
  · cases h
  · cases h
    exact f.blames_finding _

theorem blames_of_readOperand {f : Fragment} {finding : Finding}
    (h : readOperand f = .error finding) : finding.Blames .instruction f := by
  unfold readOperand at h
  split at h
  · unfold readImmediate at h
    split at h
    · cases h
      exact f.blames_finding _
    · split at h
      · cases h
        exact f.blames_finding _
      · cases h
  · split at h
    · cases h
    · cases h
      exact f.blames_finding _

theorem blames_of_readAddress {symbols : SymbolTable} {f : Fragment} {finding : Finding}
    (h : readAddress symbols f = .error finding) : finding.Blames .instruction f := by
  rcases error_of_bind_eq_error h with h | ⟨value, -, h⟩
  · unfold addressValue at h
    split at h
    · split at h
      · cases h
      · cases h
        exact f.blames_finding _
    · split at h
      · split at h
        · cases h
        · cases h
          exact f.blames_finding _
      · cases h
        exact f.blames_finding _
  · split at h
    · cases h
    · cases h
      exact f.blames_finding _

theorem blames_of_readCondition {f : Fragment} {finding : Finding}
    (h : readCondition f = .error finding) : finding.Blames .instruction f := by
  unfold readCondition at h
  split at h
  · cases h
  · cases h
    exact f.blames_finding _

theorem blames_of_readDestination {f : Fragment} {finding : Finding}
    (h : readDestination f = .error finding) : finding.Blames .instruction f := by
  unfold readDestination at h
  split at h
  · cases h
    exact f.blames_finding _
  · split at h
    · cases h
      exact f.blames_finding _
    · cases h

/-! ## 3. Instructions -/

/-- An operation that cannot be read is blamed on one of its operands, unless their number is
wrong. -/
theorem blames_of_readOperation {symbols : SymbolTable} {miscounted finding : Finding}
    {opcode : Opcode} {fragments : List Fragment}
    (h : readOperation symbols miscounted opcode fragments = .error finding) :
    finding = miscounted ∨ ∃ f ∈ fragments, finding.Blames .instruction f := by
  unfold readOperation at h
  split at h
  case h_1 | h_2 | h_3 =>
    -- a load, a store or a branch has one address
    exact .inr ⟨_, List.mem_cons_self, blames_of_readAddress (error_of_map_eq_error h)⟩
  case h_4 dest source operand =>
    rcases error_of_bind_eq_error h with h | ⟨_, -, h⟩
    · exact .inr ⟨dest, by simp, blames_of_readRegister h⟩
    · rcases error_of_bind_eq_error h with h | ⟨_, -, h⟩
      · exact .inr ⟨source, by simp, blames_of_readRegister h⟩
      · exact .inr ⟨operand, by simp, blames_of_readOperand (error_of_map_eq_error h)⟩
  case h_5 source operand =>
    rcases error_of_bind_eq_error h with h | ⟨_, -, h⟩
    · exact .inr ⟨source, by simp, blames_of_readRegister h⟩
    · exact .inr ⟨operand, by simp, blames_of_readOperand (error_of_map_eq_error h)⟩
  case h_6 condition dest =>
    rcases error_of_bind_eq_error h with h | ⟨_, -, h⟩
    · exact .inr ⟨condition, by simp, blames_of_readCondition h⟩
    · exact .inr ⟨dest, by simp, blames_of_readDestination (error_of_map_eq_error h)⟩
  case h_7 => cases h
  case h_8 =>
    cases h
    exact .inl rfl

theorem pieceOf_splitOperands {f g : Fragment} (h : g ∈ splitOperands f) : g.PieceOf f := by
  unfold splitOperands at h
  split at h
  · cases h
  · obtain ⟨piece, hpiece, rfl⟩ := List.mem_map.mp h
    exact piece.pieceOf_trim.trans (Fragment.pieceOf_splitOn hpiece)

theorem blames_of_readOperationOf {symbols : SymbolTable} {mnemonic operands : Fragment}
    {finding : Finding} (h : readOperationOf symbols mnemonic operands = .error finding) :
    finding.Blames .instruction mnemonic ∨ finding.Blames .instruction operands := by
  unfold readOperationOf at h
  split at h
  · cases h
    exact .inl (mnemonic.blames_finding _)
  · rcases blames_of_readOperation h with rfl | ⟨f, hf, hfinding⟩
    · split
      · exact .inl (mnemonic.blames_finding _)
      · exact .inr (operands.blames_finding _)
    · exact .inr (hfinding.mono (pieceOf_splitOperands hf))

theorem pieceOf_splitMnemonic (f : Fragment) :
    (splitMnemonic f).1.PieceOf f ∧ (splitMnemonic f).2.PieceOf f := by
  unfold splitMnemonic
  split
  · rename_i mnemonic operands hsplit
    obtain ⟨hmnemonic, hoperands⟩ := Fragment.pieceOf_splitFirst? hsplit
    exact ⟨hmnemonic, operands.pieceOf_trim.trans hoperands⟩
  · exact ⟨.refl f, f.pieceOf_stop⟩

theorem blames_of_readPredicate {body : Fragment} {finding : Finding}
    (h : readPredicate body = .error finding) : finding.Blames .instruction body := by
  unfold readPredicate at h
  split at h
  · split at h
    · cases h
      exact body.blames_finding _
    · rename_i opened rest hsplit
      simp only at h
      split at h
      · cases h
      · cases h
        -- What is marked goes from the opening parenthesis to the closing one.
        obtain ⟨hstart, c, hchars, hrest⟩ := Fragment.splitFirst?_eq_some hsplit
        have hpiece : (⟨body.start, opened.chars ++ [c]⟩ : Fragment).PieceOf body :=
          ⟨[], rest.chars, by simp [hchars], rfl⟩
        have hwidth : rest.start - body.start = Text.byteWidth (opened.chars ++ [c]) := by
          rw [hrest, Fragment.stop, hstart, Text.byteWidth_append, Nat.add_assoc,
            Nat.add_sub_cancel_left]
          rfl
        exact ⟨rfl, _, hpiece, congrArg (Span.mk body.start) hwidth⟩
  · cases h

theorem pieceOf_readPredicate {body rest : Fragment} {predicate : Predicate}
    (h : readPredicate body = .ok (predicate, rest)) : rest.PieceOf body := by
  unfold readPredicate at h
  split at h
  · split at h
    · cases h
    · rename_i opened after hsplit
      simp only at h
      split at h
      · cases h
        exact after.pieceOf_trimStart.trans (Fragment.pieceOf_splitFirst? hsplit).2
      · cases h
  · cases h
    exact .refl body

/-- **An instruction that cannot be read** is blamed on a part of it. -/
theorem blames_of_readInstruction {symbols : SymbolTable} {body : Fragment} {finding : Finding}
    (h : readInstruction symbols body = .error finding) : finding.Blames .instruction body := by
  rcases error_of_bind_eq_error h with h | ⟨⟨predicate, rest⟩, hpredicate, h⟩
  · exact blames_of_readPredicate h
  · have hrest : rest.PieceOf body := pieceOf_readPredicate hpredicate
    obtain ⟨hmnemonic, hoperands⟩ := pieceOf_splitMnemonic rest
    rcases hparts : splitMnemonic rest with ⟨mnemonic, operands⟩
    rw [hparts] at hmnemonic hoperands
    simp only [hparts] at h
    split at h
    · cases h
      exact body.blames_finding _
    · rcases blames_of_readOperationOf (error_of_map_eq_error h) with h | h
      · exact h.mono (hmnemonic.trans hrest)
      · exact h.mono (hoperands.trans hrest)

/-! ## 4. Labels and lines -/

/-- **A label that cannot be defined** is blamed itself. -/
theorem blames_of_defineLabel {table : SymbolTable} {name : Fragment} {address : Nat}
    {finding : Finding} (h : defineLabel table name address = .error finding) :
    finding.Blames .label name := by
  unfold defineLabel at h
  split at h
  · cases h
    exact name.blames_finding _
  · split at h
    · cases h
      exact name.blames_finding _
    · split at h
      · cases h
        exact name.blames_finding _
      · split at h
        · cases h
        · cases h
          exact name.blames_finding _

/-- **Label and instruction** of a statement are pieces of its line. -/
theorem Statement.ofLine?_pieces {line : List Char} {s : Statement}
    (h : Statement.ofLine? line = some s) :
    (∀ name ∈ s.label?, name.PieceOf ⟨0, line⟩) ∧ s.body.PieceOf ⟨0, line⟩ := by
  have hcode : (((Fragment.mk 0 line).takeWhile (· != ';')).trim).PieceOf ⟨0, line⟩ :=
    (Fragment.pieceOf_trim _).trans (Fragment.pieceOf_takeWhile _ _)
  unfold Statement.ofLine? at h
  simp only at h
  split at h
  · cases h
  · split at h
    · rename_i name rest hsplit
      obtain ⟨hname, hrest⟩ := Fragment.pieceOf_splitFirst? hsplit
      cases h
      refine ⟨?_, rest.pieceOf_trim.trans (hrest.trans hcode)⟩
      rintro _ ⟨⟩
      exact name.pieceOf_trim.trans (hname.trans hcode)
    · cases h
      refine ⟨?_, hcode⟩
      rintro _ ⟨⟩

end PredicatedCpu

/-
# Only instructions that fit are read

A reader of operands refuses a value that its field has no room for.  So an instruction that was
read from a source line fits in a word, whatever the line and the symbol table: encoding it
loses nothing.
-/
import PredicatedCpu.Assembly.Reading
import PredicatedCpu.Proofs.Instruction.Fits

namespace PredicatedCpu

/-- A sequence of readers succeeds only if the first of them does. -/
theorem exists_of_bind_eq_ok {ε α β : Type} {x : Except ε α} {f : α → Except ε β} {b : β}
    (h : (x >>= f) = .ok b) : ∃ a, x = .ok a ∧ f a = .ok b := by
  cases x with
  | error e => cases h
  | ok a => exact ⟨a, rfl, h⟩

/-! ## 1. Operands -/

theorem fits_of_readAddress {symbols : SymbolTable} {f : Fragment} {address : Word}
    (h : readAddress symbols f = .ok address) : address.toNat < memorySize := by
  obtain ⟨value, -, h⟩ := exists_of_bind_eq_ok h
  split at h
  · rename_i hlt
    have hsmall : value < 512 := hlt
    cases h
    rwa [Word.toNat_ofNat_of_lt (by omega)]
  · cases h

theorem fits_of_readImmediate {f : Fragment} {digits : List Char} {operand : Operand}
    (h : readImmediate f digits = .ok operand) : operand.Fits := by
  unfold readImmediate at h
  split at h
  · cases h
  · split at h
    · cases h
    · rename_i value hle
      cases h
      rw [Operand.Fits, Word.toNat_ofNat_of_lt (by omega)]
      omega

theorem fits_of_readOperand {f : Fragment} {operand : Operand}
    (h : readOperand f = .ok operand) : operand.Fits := by
  unfold readOperand at h
  split at h
  · exact fits_of_readImmediate h
  · split at h
    · cases h
      trivial
    · cases h

theorem ne_zero_of_readDestination {f : Fragment} {dest : PredicateRegister}
    (h : readDestination f = .ok dest) : dest ≠ 0 := by
  unfold readDestination at h
  split at h
  · cases h
  · split at h
    · cases h
    · rename_i hne
      cases h
      exact hne

/-! ## 2. Instructions -/

theorem fits_of_readOperation {symbols : SymbolTable} {miscounted : Finding} {opcode : Opcode}
    {fragments : List Fragment} {op : Operation}
    (h : readOperation symbols miscounted opcode fragments = .ok op) : op.Fits := by
  unfold readOperation at h
  split at h
  case h_1 | h_2 | h_3 =>
    -- a load, a store or a branch has one address
    obtain ⟨address, haddress, h⟩ := exists_of_bind_eq_ok h
    cases h
    exact fits_of_readAddress haddress
  case h_4 =>
    obtain ⟨dest, -, h⟩ := exists_of_bind_eq_ok h
    obtain ⟨source, -, h⟩ := exists_of_bind_eq_ok h
    obtain ⟨operand, hoperand, h⟩ := exists_of_bind_eq_ok h
    cases h
    exact fits_of_readOperand hoperand
  case h_5 =>
    obtain ⟨source, -, h⟩ := exists_of_bind_eq_ok h
    obtain ⟨operand, hoperand, h⟩ := exists_of_bind_eq_ok h
    cases h
    exact fits_of_readOperand hoperand
  case h_6 =>
    obtain ⟨condition, -, h⟩ := exists_of_bind_eq_ok h
    obtain ⟨dest, hdest, h⟩ := exists_of_bind_eq_ok h
    cases h
    exact ne_zero_of_readDestination hdest
  case h_7 =>
    cases h
    trivial
  case h_8 => cases h

/-- **What is read fits in a word.** -/
theorem fits_of_readInstruction {symbols : SymbolTable} {body : Fragment} {i : Instruction}
    (h : readInstruction symbols body = .ok i) : i.Fits := by
  obtain ⟨⟨predicate, rest⟩, -, h⟩ := exists_of_bind_eq_ok h
  rcases hparts : splitMnemonic rest with ⟨mnemonic, operands⟩
  simp only [hparts] at h
  split at h
  · cases h
  · obtain ⟨op, hop, h⟩ := exists_of_bind_eq_ok h
    cases h
    unfold readOperationOf at hop
    split at hop
    · cases hop
    · exact fits_of_readOperation hop

end PredicatedCpu

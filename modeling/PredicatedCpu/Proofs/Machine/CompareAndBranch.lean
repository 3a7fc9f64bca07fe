/-
# Compare and branch

There is no conditional jump.  A program compares, keeps the answer to a condition in a one-bit
register and jumps under the predicate that tests it:

    CMP  source, operand
    SETP condition, dest
    (dest) B target

Three steps through these instructions end at the target if the two words are in the relation
that the condition stands for, and behind the jump if they are not.
-/
import PredicatedCpu.Proofs.Machine.Comparison
import PredicatedCpu.Proofs.Machine.Stepping

namespace PredicatedCpu

/-! ## 1. The predicate that tests a register -/

/-- The predicate that holds when a one-bit register is set. -/
def PredicateRegister.test : PredicateRegister → Predicate
  | 0 => .p0
  | 1 => .p1
  | 2 => .p2
  | 3 => .p3

theorem PredicateRegister.holds_test (p : PredicateRegister) (bits : Vector Bool 4) :
    p.test.holds bits = bits.get p := by
  revert p
  decide +revert

/-- A register that was just written is tested for what was written. -/
theorem PredicateRegister.holds_test_setPredicate (p : PredicateRegister) (m : Machine)
    (value : Bool) : p.test.holds (m.setPredicate p value).predicates = value := by
  rw [holds_test]
  exact Vector.getElem_set_self p.isLt

/-! ## 2. The three steps -/

theorem Address.add_one_add_one (a : Address) : a + 1 + 1 = a + 2 :=
  Fin.ext (by simp only [Fin.val_add, Fin.val_one, Fin.val_two]; omega)

theorem Address.add_two_add_one (a : Address) : a + 2 + 1 = a + 3 :=
  Fin.ext (by simp only [Fin.val_add]; omega)

namespace Machine

variable {m : Machine}

/-- The first step sets the flags. -/
theorem step_compare {source : Register} {operand : Operand}
    (h : m.Fetches m.pc ⟨.always, .compare source operand⟩) :
    m.step.2 = { m.advance with flags := .ofSub (m.register source) (operand.value m) } := by
  have hvalue : operand.value m.advance = operand.value m := by cases operand <;> rfl
  rw [step_of_fetches h]
  simp [Instruction.execute, Predicate.holds, Operation.perform, hvalue]

/-- The second step answers the condition. -/
theorem step_setPredicate {condition : Condition} {dest : PredicateRegister}
    (h : m.Fetches m.pc ⟨.always, .setPredicate condition dest⟩) :
    m.step.2 = m.advance.setPredicate dest (condition.holds m.flags) := by
  rw [step_of_fetches h]
  rfl

/-- The third step jumps, or goes on. -/
theorem pc_step_branch {predicate : Predicate} {target : Address}
    (h : m.Fetches m.pc ⟨predicate, .branch (Word.ofNat target.val)⟩) :
    m.step.2.pc = if predicate.holds m.predicates then target else m.pc + 1 := by
  have haddress : Address.ofWord (Word.ofNat target.val) = target := by
    apply Fin.ext
    rw [Address.ofWord, Fin.val_ofNat, Word.toNat_ofNat_of_lt (by omega),
      Nat.mod_eq_of_lt target.isLt]
  rw [step_of_fetches h]
  simp only [Instruction.execute, Operation.perform, haddress, predicates_advance]
  split <;> rfl

/-- Where the three steps end. -/
theorem pc_compareAndBranch {source : Register} {operand : Operand} {condition : Condition}
    {dest : PredicateRegister} {target : Address}
    (hcompare : m.Fetches m.pc ⟨.always, .compare source operand⟩)
    (hset : m.Fetches (m.pc + 1) ⟨.always, .setPredicate condition dest⟩)
    (hbranch : m.Fetches (m.pc + 2) ⟨dest.test, .branch (Word.ofNat target.val)⟩) :
    m.step.2.step.2.step.2.pc =
      if condition.holds (.ofSub (m.register source) (operand.value m)) then target
      else m.pc + 3 := by
  rw [← Address.add_one_add_one] at hbranch
  rw [← Address.add_two_add_one, ← Address.add_one_add_one]
  have h1 := step_compare hcompare
  -- neither of the first two steps touches the memory, so the next instruction is still there
  have hset' : m.step.2.Fetches m.step.2.pc ⟨.always, .setPredicate condition dest⟩ := by
    rw [h1]
    exact hset
  have h2 := step_setPredicate hset'
  have hbranch' : m.step.2.step.2.Fetches m.step.2.step.2.pc
      ⟨dest.test, .branch (Word.ofNat target.val)⟩ := by
    rw [h2, h1]
    exact hbranch
  rw [pc_step_branch hbranch', h2, h1]
  rw [PredicateRegister.holds_test_setPredicate]
  rfl

end Machine

/-! ## 3. The law -/

/-- **Compare and branch.**  The flags answer every condition as the words are related.  So three
instructions that are fetched from one address after the other jump exactly when the register is
in the condition's relation to the operand; where the target is the address behind the jump,
both ends are the same.  Instructions that fit are fetched from where they stand, and `HS` and
`LO` name the unsigned comparisons too. -/
theorem compareAndBranch_relates :
    (∀ (a b : Word) (condition : Condition),
      condition.holds (Flags.ofSub a b) = true ↔ condition.Relates a b) ∧
    Condition.ofName? "HS" = some .cs ∧ Condition.ofName? "LO" = some .cc ∧
    (∀ (m : Machine) (a : Address) (i : Instruction), i.Fits → m.Stores a i → m.Fetches a i) ∧
    ∀ (m : Machine) (source : Register) (operand : Operand) (condition : Condition)
      (dest : PredicateRegister) (target : Address),
      m.Fetches m.pc ⟨.always, .compare source operand⟩ →
      m.Fetches (m.pc + 1) ⟨.always, .setPredicate condition dest⟩ →
      m.Fetches (m.pc + 2) ⟨dest.test, .branch (Word.ofNat target.val)⟩ →
      (condition.Relates (m.register source) (operand.value m) →
        m.step.2.step.2.step.2.pc = target) ∧
      (¬ condition.Relates (m.register source) (operand.value m) →
        m.step.2.step.2.step.2.pc = m.pc + 3) ∧
      (target ≠ m.pc + 3 → (m.step.2.step.2.step.2.pc = target ↔
        condition.Relates (m.register source) (operand.value m))) := by
  refine ⟨fun a b condition => condition.holds_ofSub_iff a b, by decide, by decide,
    fun m a i hfits hstores => hstores.fetches hfits, ?_⟩
  intro m source operand condition dest target hcompare hset hbranch
  have hpc := Machine.pc_compareAndBranch hcompare hset hbranch
  have hholds := condition.holds_ofSub_iff (m.register source) (operand.value m)
  have hjump : condition.Relates (m.register source) (operand.value m) →
      m.step.2.step.2.step.2.pc = target := fun h => by rw [hpc, if_pos (hholds.mpr h)]
  have hpass : ¬ condition.Relates (m.register source) (operand.value m) →
      m.step.2.step.2.step.2.pc = m.pc + 3 :=
    fun h => by rw [hpc, if_neg (fun hyes => h (hholds.mp hyes))]
  refine ⟨hjump, hpass, fun hne => ⟨fun hend => ?_, hjump⟩⟩
  exact Classical.byContradiction fun h => hne (hend.symm.trans (hpass h))

/-- A machine that is about to compare -32768 with 1, with the jump on the other side of the end
of memory. -/
def Machine.comparing : Machine :=
  let compare : Instruction := ⟨.always, .compare 5 (.immediate 1)⟩
  let set : Instruction := ⟨.always, .setPredicate .lt 3⟩
  let branch : Instruction := ⟨.p3, .branch 0x40⟩
  { Machine.blank with
    pc := 510
    registers := Machine.blank.registers.set 5 0x8000
    memory := ((Machine.blank.memory.set 510 compare.word).set 511 set.word).set 0 branch.word
    tags := ((Machine.blank.tags.set 510 compare.tag).set 511 set.tag).set 0 branch.tag }

/-- As a signed number it is less, though the difference comes out positive. -/
theorem compareAndBranch_relates_comparing :
    Machine.comparing.Fetches 510 ⟨.always, .compare 5 (.immediate 1)⟩ ∧
      Machine.comparing.Fetches 511 ⟨.always, .setPredicate .lt 3⟩ ∧
      Machine.comparing.Fetches 0 ⟨.p3, .branch 0x40⟩ ∧
      Condition.Relates (Machine.comparing.register 5) 1 .lt ∧
      Machine.comparing.step.2.step.2.step.2.pc = 0x40 := by
  obtain ⟨-, -, -, hfetches, hlaw⟩ := compareAndBranch_relates
  have hcompare : Machine.comparing.Fetches 510 ⟨.always, .compare 5 (.immediate 1)⟩ :=
    hfetches _ _ _ (by decide) (by decide +kernel)
  have hset : Machine.comparing.Fetches 511 ⟨.always, .setPredicate .lt 3⟩ :=
    hfetches _ _ _ (by decide) (by decide +kernel)
  have hbranch : Machine.comparing.Fetches 0 ⟨.p3, .branch 0x40⟩ :=
    hfetches _ _ _ (by decide) (by decide +kernel)
  have hless : Condition.Relates (Machine.comparing.register 5) 1 .lt := by decide +kernel
  obtain ⟨hjump, -⟩ := hlaw Machine.comparing 5 (.immediate 1) .lt 3 0x40 hcompare hset hbranch
  exact ⟨hcompare, hset, hbranch, hless, hjump hless⟩

end PredicatedCpu

/-
# What one step does to a machine

A step fetches, moves the program counter on and executes, or it halts the machine over a word
that is no instruction.  What is known of a step is stated here once, so that nothing else has
to look into the execution of an instruction:

* `step_eq_ok_iff`, `step_eq_error_iff`: the two ways a step can go, with all that it does;
* `Machine.Fetches`: an instruction that is fetched from an address, and `step_of_fetches`, which
  executes it;
* `step_tags`, `step_word`: no step changes a format tag, and a word of memory is changed only
  by a store that was executed and that names its address;
* `halted_of_step`, `pending_of_step`: what a step does to the halt and to the pending input is
  told by its effect, and no effect tells of both;
* `suspended_of_step`: a step that asks for input does nothing else;
* `step_of_holds`, `step_of_not_holds`: a step carries its operation out, or it only moves on;
* `pc_step`: only a word with the tag of a branch can send the program counter anywhere else.
-/
import PredicatedCpu.Machine.Execute
import PredicatedCpu.Proofs.Instruction.RoundTrip

namespace PredicatedCpu

/-! ## 1. Addresses, and the parts of a machine -/

/-- Below the window an address is its own number. -/
theorem Address.ofWord_eq_iff {address : Word} (h : address.isWindow = false) {a : Address} :
    Address.ofWord address = a ↔ address.toNat = a.val := by
  have hlt : address.toNat < 512 := by
    have hbelow : ¬ windowBase ≤ address.toNat := of_decide_eq_false h
    unfold windowBase at hbelow
    omega
  rw [Fin.ext_iff, Address.ofWord, Fin.val_ofNat, Nat.mod_eq_of_lt hlt]

theorem Word.isWindow_eq_false_iff {w : Word} : w.isWindow = false ↔ w.toNat < windowBase := by
  rw [Word.isWindow, decide_eq_false_iff_not, Nat.not_le]

namespace Machine

@[simp] theorem register_advance (m : Machine) (r : Register) :
    m.advance.register r = m.register r := rfl

@[simp] theorem predicates_advance (m : Machine) : m.advance.predicates = m.predicates := rfl

theorem word_setWord_self (m : Machine) (a : Address) (value : Word) :
    (m.setWord a value).word a = value := by
  exact Vector.getElem_set_self a.isLt

theorem register_setRegister_self (m : Machine) (r : Register) (value : Word) :
    (m.setRegister r value).register r = value := by
  exact Vector.getElem_set_self r.isLt

theorem word_setWord_of_ne {m : Machine} {a b : Address} (h : b ≠ a) (value : Word) :
    (m.setWord b value).word a = m.word a := by
  have hne : b.val ≠ a.val := fun e => h (Fin.ext e)
  exact Vector.getElem_set_ne b.isLt a.isLt hne

/-! ## 2. The two ways a step can go -/

/-- **A step that executes.**  The word at the program counter is an instruction, and it is
carried out on the machine whose program counter has moved on. -/
theorem step_eq_ok_iff {m m' : Machine} {effect : Effect} :
    m.step = (.ok effect, m') ↔
      decode (m.word m.pc) (m.tag m.pc) = .ok effect.instruction ∧
        effect.instruction.execute m.advance = (effect.outcome, m') := by
  unfold step execute
  cases hdecode : decode (m.word m.pc) (m.tag m.pc) with
  | error cause => simp
  | ok instruction =>
    constructor
    · intro h
      cases h
      exact ⟨rfl, rfl⟩
    · rintro ⟨h, hexecute⟩
      cases h
      simp only [hexecute]

/-- **A step that faults.**  There is no instruction at the program counter, and the machine is
halted behind it. -/
theorem step_eq_error_iff {m m' : Machine} {fault : Fault} :
    m.step = (.error fault, m') ↔
      decode (m.word m.pc) (m.tag m.pc) = .error fault.cause ∧
        fault.origin = m.pc.val ∧ fault.word = m.word m.pc ∧ fault.tag = m.tag m.pc ∧
          m' = m.advance.halt := by
  unfold step execute
  cases hdecode : decode (m.word m.pc) (m.tag m.pc) with
  | error cause =>
    constructor
    · intro h
      cases h
      exact ⟨rfl, rfl, rfl, rfl, rfl⟩
    · rintro ⟨h, horigin, hword, htag, rfl⟩
      cases fault
      simp_all
  | ok instruction => simp

/-! ## 3. Instructions in memory -/

/-- An instruction that stands at an address, in its own word and with its own tag. -/
def Stores (m : Machine) (a : Address) (i : Instruction) : Prop :=
  m.word a = i.word ∧ m.tag a = i.tag

instance (m : Machine) (a : Address) (i : Instruction) : Decidable (m.Stores a i) :=
  inferInstanceAs (Decidable (_ ∧ _))

/-- An instruction that is fetched from an address.  Bits of its word that are not read may have
any value. -/
def Fetches (m : Machine) (a : Address) (i : Instruction) : Prop :=
  decode (m.word a) (m.tag a) = .ok i

/-- What fits is fetched from where it stands. -/
theorem Stores.fetches {m : Machine} {a : Address} {i : Instruction} (h : m.Stores a i)
    (hfits : i.Fits) : m.Fetches a i := by
  rw [Fetches, h.1, h.2]
  exact decode_word_of_fits hfits

/-- The instruction at the program counter is the one that is executed. -/
theorem step_of_fetches {m : Machine} {i : Instruction} (h : m.Fetches m.pc i) :
    m.step = (.ok ⟨i, (i.execute m.advance).1⟩, (i.execute m.advance).2) :=
  step_eq_ok_iff.mpr ⟨h, rfl⟩

end Machine

/-! ## 4. Tags and memory -/

theorem Operation.perform_tags (op : Operation) (m : Machine) : (op.perform m).2.tags = m.tags := by
  cases op with
  | load address =>
    simp only [Operation.perform, Operation.performLoad]
    split
    · split <;> rfl
    · rfl
  | store address =>
    simp only [Operation.perform, Operation.performStore]
    split <;> rfl
  | _ => rfl

/-- Only a store outside the window changes a word of memory, and only the one it names. -/
theorem Operation.perform_word {op : Operation} {m : Machine} {a : Address}
    (h : ∀ address, op = .store address → address.isWindow = true ∨ Address.ofWord address ≠ a) :
    (op.perform m).2.word a = m.word a := by
  cases op with
  | load address =>
    simp only [Operation.perform, Operation.performLoad]
    split
    · split <;> rfl
    · rfl
  | store address =>
    simp only [Operation.perform, Operation.performStore]
    split
    · rfl
    · rename_i hwindow
      rcases h address rfl with hinside | hne
      · exact absurd hinside hwindow
      · exact Machine.word_setWord_of_ne hne _
  | _ => rfl

theorem Instruction.execute_tags (i : Instruction) (m : Machine) :
    (i.execute m).2.tags = m.tags := by
  unfold Instruction.execute
  split
  · exact i.operation.perform_tags m
  · rfl

theorem Instruction.execute_word {i : Instruction} {m : Machine} {a : Address}
    (h : ∀ address, i.operation = .store address →
      address.isWindow = true ∨ Address.ofWord address ≠ a) :
    (i.execute m).2.word a = m.word a := by
  unfold Instruction.execute
  split
  · exact Operation.perform_word h
  · rfl

namespace Machine

/-- A format tag is for ever. -/
theorem step_tags (m : Machine) : m.step.2.tags = m.tags := by
  rcases hstep : m.step with ⟨fault | effect, m'⟩
  · obtain ⟨-, -, -, -, rfl⟩ := step_eq_error_iff.mp hstep
    rfl
  · obtain ⟨-, hexecute⟩ := step_eq_ok_iff.mp hstep
    have htags := effect.instruction.execute_tags m.advance
    rwa [hexecute] at htags

/-- A word of memory stays, unless the instruction at the program counter stores to it. -/
theorem step_word {m : Machine} {a : Address}
    (h : ∀ (i : Instruction) (address : Word), decode (m.word m.pc) (m.tag m.pc) = .ok i →
      i.operation = .store address → address.isWindow = true ∨ Address.ofWord address ≠ a) :
    m.step.2.word a = m.word a := by
  rcases hstep : m.step with ⟨fault | effect, m'⟩
  · obtain ⟨-, -, -, -, rfl⟩ := step_eq_error_iff.mp hstep
    rfl
  · obtain ⟨hdecode, hexecute⟩ := step_eq_ok_iff.mp hstep
    have hword := Instruction.execute_word (m := m.advance) (h effect.instruction · hdecode)
    rwa [hexecute] at hword

end Machine

/-! ## 5. Halting and waiting -/

/-- The input that an outcome leaves pending. -/
def Outcome.pending? : Outcome → Option PendingInput
  | suspended address => some ⟨address, .transfer⟩
  | _ => none

/-- An effect that asks for input leaves it pending. -/
theorem Effect.suspended_eq (effect : Effect) :
    effect.suspended = effect.outcome.pending?.isSome := by
  obtain ⟨instruction, outcome⟩ := effect
  cases outcome <;> rfl

/-- **Halting shows.**  An operation halts the machine exactly if its outcome says so. -/
theorem Operation.perform_halted (op : Operation) (m : Machine) :
    (op.perform m).2.halted = true ↔ m.halted = true ∨ (op.perform m).1 = .halted := by
  cases op with
  | load address =>
    simp only [Operation.perform, Operation.performLoad]
    split
    · split <;> exact (or_iff_left (by nofun)).symm
    · exact (or_iff_left (by nofun)).symm
  | store address =>
    simp only [Operation.perform, Operation.performStore]
    split <;> exact (or_iff_left (by nofun)).symm
  | halt => exact iff_of_true rfl (.inr rfl)
  | branch _ | alu _ _ _ _ | compare _ _ | setPredicate _ _ => exact (or_iff_left (by nofun)).symm

/-- **Waiting shows.**  An operation leaves a pending input exactly if its outcome says so. -/
theorem Operation.perform_pending (op : Operation) (m : Machine) :
    (op.perform m).2.pending = (op.perform m).1.pending?.or m.pending := by
  cases op with
  | load address =>
    simp only [Operation.perform, Operation.performLoad]
    split
    · split <;> rfl
    · rfl
  | store address =>
    simp only [Operation.perform, Operation.performStore]
    split <;> rfl
  | _ => rfl

theorem Instruction.execute_halted (i : Instruction) (m : Machine) :
    (i.execute m).2.halted = true ↔ m.halted = true ∨ (i.execute m).1 = .halted := by
  unfold Instruction.execute
  split
  · exact i.operation.perform_halted m
  · exact (or_iff_left (by nofun)).symm

theorem Instruction.execute_pending (i : Instruction) (m : Machine) :
    (i.execute m).2.pending = (i.execute m).1.pending?.or m.pending := by
  unfold Instruction.execute
  split
  · exact i.operation.perform_pending m
  · rfl

/-- **Only a load from the input address asks for input**, and the request is all that it leaves. -/
theorem Operation.perform_of_suspended {op : Operation} {m : Machine} {address : Word}
    (h : (op.perform m).1 = .suspended address) :
    op = .load address ∧ address.toNat = inputAddress ∧
      (op.perform m).2 = { m with pending := some ⟨address, .transfer⟩ } := by
  cases op with
  | load a =>
    simp only [Operation.perform, Operation.performLoad] at h ⊢
    split at h
    · rename_i hwindow
      split at h
      · rename_i hinput
        obtain rfl : a = address := Outcome.suspended.inj h
        exact ⟨rfl, hinput, by rw [if_pos hwindow, if_pos hinput]⟩
      · cases h
    · cases h
  | store a =>
    simp only [Operation.perform, Operation.performStore] at h
    split at h <;> cases h
  | branch _ | alu _ _ _ _ | compare _ _ | setPredicate _ _ | halt => cases h

theorem Instruction.execute_of_suspended {i : Instruction} {m : Machine} {address : Word}
    (h : (i.execute m).1 = .suspended address) :
    i.operation = .load address ∧ i.predicate.holds m.predicates = true ∧
      address.toNat = inputAddress ∧
        (i.execute m).2 = { m with pending := some ⟨address, .transfer⟩ } := by
  unfold Instruction.execute at h ⊢
  split at h
  · rename_i hholds
    obtain ⟨hop, haddress, hmachine⟩ := Operation.perform_of_suspended h
    exact ⟨hop, hholds, haddress, by rw [if_pos hholds, hmachine]⟩
  · cases h

namespace Machine

/-- A step that executes halts the machine exactly if its effect says so. -/
theorem halted_of_step {m m' : Machine} {effect : Effect} (h : m.step = (.ok effect, m')) :
    m'.halted = true ↔ m.halted = true ∨ effect.outcome = .halted := by
  obtain ⟨-, hexecute⟩ := step_eq_ok_iff.mp h
  have hhalted := effect.instruction.execute_halted m.advance
  rwa [hexecute] at hhalted

/-- A step that executes leaves a pending input exactly if its effect says so. -/
theorem pending_of_step {m m' : Machine} {effect : Effect} (h : m.step = (.ok effect, m')) :
    m'.pending = effect.outcome.pending?.or m.pending := by
  obtain ⟨-, hexecute⟩ := step_eq_ok_iff.mp h
  have hpending := effect.instruction.execute_pending m.advance
  rwa [hexecute] at hpending

/-- **What a step that asks for input does**: it moves on and leaves the request, which is always
the same one. -/
theorem suspended_of_step {m m' : Machine} {effect : Effect} (h : m.step = (.ok effect, m'))
    (hsuspended : effect.suspended = true) :
    effect.instruction.operation = .load 0x01F0 ∧
      effect.instruction.predicate.holds m.predicates = true ∧
        m' = { m.advance with pending := some ⟨0x01F0, .transfer⟩ } := by
  obtain ⟨-, hexecute⟩ := step_eq_ok_iff.mp h
  obtain ⟨address, houtcome⟩ : ∃ address, effect.outcome = .suspended address := by
    unfold Effect.suspended at hsuspended
    split at hsuspended
    · rename_i address houtcome
      exact ⟨address, houtcome⟩
    · cases hsuspended
  have hasks : (effect.instruction.execute m.advance).1 = .suspended address := by
    rw [hexecute, houtcome]
  obtain ⟨hop, hholds, haddress, hmachine⟩ := Instruction.execute_of_suspended hasks
  obtain rfl : address = 0x01F0 := BitVec.eq_of_toNat_eq haddress
  rw [hexecute] at hmachine
  exact ⟨hop, hholds, hmachine⟩

/-- The machine waits after a step exactly if the step asked for input. -/
theorem waiting_of_step {m m' : Machine} {effect : Effect} (h : m.step = (.ok effect, m'))
    (hwaiting : m.waiting = false) : m'.waiting = effect.suspended := by
  have hnone : m.pending = none := by simpa [waiting] using hwaiting
  rw [waiting, pending_of_step h, hnone, Option.or_none, Effect.suspended_eq]

/-- **No step both halts and waits**: a machine that does neither does not do both after it. -/
theorem not_halted_and_waiting_step {m : Machine} (hhalted : m.halted = false)
    (hwaiting : m.waiting = false) : ¬ (m.step.2.halted = true ∧ m.step.2.waiting = true) := by
  have hnone : m.pending = none := by simpa [waiting] using hwaiting
  rintro ⟨hhalted', hwaiting'⟩
  rcases hstep : m.step with ⟨fault | effect, m'⟩
  · obtain ⟨-, -, -, -, rfl⟩ := step_eq_error_iff.mp hstep
    rw [hstep, waiting, halt, advance, hnone] at hwaiting'
    cases hwaiting'
  · rw [hstep] at hhalted' hwaiting'
    have houtcome : effect.outcome = .halted :=
      ((halted_of_step hstep).mp hhalted').resolve_left (by rw [hhalted]; decide)
    rw [waiting, pending_of_step hstep, houtcome, hnone] at hwaiting'
    cases hwaiting'

end Machine

/-! ## 6. Executing a word -/

theorem execute_of_undecodable {w : Word} {tag : Tag} {m : Machine} {cause : DecodeError}
    (hdecode : decode w tag = .error cause) (origin : Nat) :
    execute origin w tag m = (.error ⟨origin, w, tag, cause⟩, m.halt) := by
  rw [execute, hdecode]

/-- An instruction whose predicate holds is its operation. -/
theorem Instruction.execute_of_holds {i : Instruction} {m : Machine}
    (h : i.predicate.holds m.predicates = true) : i.execute m = i.operation.perform m := by
  rw [Instruction.execute, if_pos h]

/-- An instruction whose predicate does not hold does nothing. -/
theorem Instruction.execute_of_not_holds {i : Instruction} {m : Machine}
    (h : i.predicate.holds m.predicates = false) : i.execute m = (.skipped, m) := by
  rw [Instruction.execute, h]
  rfl

/-- **A predicate that does not hold** leaves the machine as the fetch left it. -/
theorem execute_of_not_holds {w : Word} {tag : Tag} {i : Instruction} {m : Machine}
    (hdecode : decode w tag = .ok i) (hholds : i.predicate.holds m.predicates = false)
    (origin : Nat) : execute origin w tag m = (.ok ⟨i, .skipped⟩, m) := by
  have hskipped : i.execute m = (.skipped, m) := Instruction.execute_of_not_holds hholds
  rw [execute, hdecode]
  simp only [hskipped]

namespace Machine

variable {m m' : Machine} {effect : Effect}

/-- **A step whose predicate holds** carries out its operation. -/
theorem step_of_holds (h : m.step = (.ok effect, m'))
    (hholds : effect.instruction.predicate.holds m.predicates = true) :
    effect.instruction.operation.perform m.advance = (effect.outcome, m') := by
  rw [← Instruction.execute_of_holds (m := m.advance) hholds]
  exact (step_eq_ok_iff.mp h).2

/-- **A step whose predicate does not hold** only moves on. -/
theorem step_of_not_holds (h : m.step = (.ok effect, m'))
    (hholds : effect.instruction.predicate.holds m.predicates = false) :
    effect.outcome = .skipped ∧ m' = m.advance := by
  have hexecute := (step_eq_ok_iff.mp h).2
  rw [Instruction.execute_of_not_holds (m := m.advance) hholds] at hexecute
  exact ⟨(congrArg Prod.fst hexecute).symm, (congrArg Prod.snd hexecute).symm⟩

end Machine

/-! ## 7. The program counter -/

/-- Only a branch sends the program counter anywhere. -/
theorem Operation.perform_pc {op : Operation} (h : op.tag ≠ .branch) (m : Machine) :
    (op.perform m).2.pc = m.pc := by
  cases op with
  | load address =>
    simp only [Operation.perform, Operation.performLoad]
    split
    · split <;> rfl
    · rfl
  | store address =>
    simp only [Operation.perform, Operation.performStore]
    split <;> rfl
  | branch target => exact absurd rfl h
  | alu _ _ _ _ | compare _ _ | setPredicate _ _ | halt => rfl

theorem Instruction.execute_pc {i : Instruction} (h : i.tag ≠ .branch) (m : Machine) :
    (i.execute m).2.pc = m.pc := by
  unfold Instruction.execute
  split
  · exact i.operation.perform_pc h m
  · rfl

/-- **A step goes to the next address** unless the word it fetches has the tag of a branch,
whatever the bits of the word are. -/
theorem Machine.pc_step {m : Machine} (h : m.tag m.pc ≠ .branch) : m.step.2.pc = m.pc + 1 := by
  rcases hstep : m.step with ⟨fault | effect, m'⟩
  · obtain ⟨-, -, -, -, rfl⟩ := step_eq_error_iff.mp hstep
    rfl
  · obtain ⟨hdecode, hexecute⟩ := step_eq_ok_iff.mp hstep
    rw [← tag_of_decode hdecode] at h
    have hpc := Instruction.execute_pc h m.advance
    rwa [hexecute] at hpc

end PredicatedCpu

/-
# Memory over a whole run

A program may overwrite itself, skip what it would have stored, wait in the middle, and read through
the window what it can also execute as code.  All the same its memory is one: what a load finds is
what was stored last, or else what was loaded.  The window is no part of this memory, though there
are words behind it; and the tags are no part of it either, since nothing can store one.

* `Simulator.performed?`: the operation that was performed on a request;
* `storesTo`: what was stored to an address, over a list of requests;
* `Move.performed`: nothing else reaches memory;
* `Move.word`: what one request does to a word;
* `word_afterAll`: so a word is what was stored last, by induction on the requests;
* `memory_since_load`: all of this, since a program was loaded.
-/
import PredicatedCpu.Proofs.Simulator.Lifetime
import PredicatedCpu.Proofs.Simulator.LoadedProgram

namespace PredicatedCpu

/-! ## 1. What was performed -/

/-- The operation that was **performed**, if an answer tells of an instruction whose predicate held
of the one-bit registers. -/
def Response.performed? (bits : Vector Bool 4) : Response → Option Operation
  | .executed effect =>
    if effect.instruction.predicate.holds bits then some effect.instruction.operation else none
  | _ => none

/-- What an operation sends to an address: the word in the register that stores send. -/
def Operation.storeTo? (a : Address) (m : Machine) : Operation → Option Word
  | .store address => if address.toNat = a.val then some (m.register .transfer) else none
  | _ => none

namespace Simulator

/-- The operation that is performed on a request. -/
def performed? (s : Simulator) (request : Request) : Option Operation :=
  (s.respond request).1.performed? s.machine.predicates

/-- What is stored to an address on a request, if something is. -/
def storeTo? (a : Address) (s : Simulator) (request : Request) : Option Word :=
  (s.performed? request).bind (Operation.storeTo? a s.machine)

/-- **What was stored to an address**, in the order in which it was stored. -/
def storesTo (a : Address) : Simulator → List Request → List Word
  | _, [] => []
  | s, request :: rest => (s.storeTo? a request).toList ++ (s.respond request).2.storesTo a rest

end Simulator

theorem Response.performed?_of_unexecuted {response : Response}
    (h : ∀ effect, response ≠ .executed effect) (bits : Vector Bool 4) :
    response.performed? bits = none := by
  cases response with
  | executed effect => exact absurd rfl (h effect)
  | _ => rfl

/-- What was performed was executed, and its predicate held. -/
theorem Response.performed?_eq_some_iff {bits : Vector Bool 4} {response : Response}
    {op : Operation} :
    response.performed? bits = some op ↔
      ∃ effect, response = .executed effect ∧ effect.instruction.predicate.holds bits = true ∧
        effect.instruction.operation = op := by
  constructor
  · intro h
    cases response with
    | executed effect =>
      rw [performed?, Option.ite_none_right_eq_some] at h
      exact ⟨effect, rfl, h.1, Option.some.inj h.2⟩
    | _ => cases h
  · rintro ⟨effect, rfl, hholds, rfl⟩
    exact if_pos hholds

/-! ## 2. One step -/

/-- **What an operation leaves in a word** below the window: what it stores there, or what was
there. -/
theorem Operation.perform_word_eq (op : Operation) (m : Machine) {a : Address}
    (ha : a.val < windowBase) :
    (op.perform m).2.word a = (op.storeTo? a m).getD (m.word a) := by
  cases op with
  | store address =>
    rw [storeTo?]
    split
    · rename_i hsame
      have hbelow : address.isWindow = false := Word.isWindow_eq_false_iff.mpr (by omega)
      obtain rfl : Address.ofWord address = a := (Address.ofWord_eq_iff hbelow).mpr hsame
      simp only [perform, performStore, hbelow]
      exact m.word_setWord_self _ _
    · rename_i hother
      refine perform_word ?_
      rintro _ ⟨⟩
      cases hwindow : address.isWindow with
      | true => exact .inl rfl
      | false => exact .inr (mt (Address.ofWord_eq_iff hwindow).mp hother)
  | load _ | branch _ | alu _ _ _ _ | compare _ _ | setPredicate _ _ | halt =>
    refine perform_word ?_
    rintro _ ⟨⟩

/-- **A load from below the window** finds the word there. -/
theorem Operation.perform_load {address : Word} (h : address.toNat < windowBase) (m : Machine) :
    ((Operation.load address).perform m).2.register .transfer = m.word (.ofWord address) := by
  simp only [perform, performLoad, Word.isWindow_eq_false_iff.mpr h]
  exact m.register_setRegister_self _ _

namespace Simulator

/-! ## 3. One request -/

section

variable {s : Simulator} {response : Response} {m : Machine} {a : Address}

/-- **Only what is performed reaches memory.**  An instruction that is skipped, a fault and an input
leave all of it alone. -/
theorem Move.performed (h : s.Move response m) :
    (∃ op, response.performed? s.machine.predicates = some op ∧
      m = (op.perform s.machine.advance).2) ∨
    (response.performed? s.machine.predicates = none ∧ m.memory = s.machine.memory) := by
  cases h with
  | still unexecuted _ => exact .inr ⟨Response.performed?_of_unexecuted unexecuted _, rfl⟩
  | @executed effect m _ step =>
    cases hholds : effect.instruction.predicate.holds s.machine.predicates with
    | true =>
      refine .inl ⟨effect.instruction.operation, if_pos hholds, ?_⟩
      rw [Machine.step_of_holds step hholds]
    | false =>
      obtain ⟨-, rfl⟩ := Machine.step_of_not_holds step hholds
      refine .inr ⟨if_neg ?_, rfl⟩
      rw [hholds]
      exact Bool.false_ne_true
  | faulted _ step =>
    obtain ⟨-, -, -, -, rfl⟩ := Machine.step_eq_error_iff.mp step
    exact .inr ⟨rfl, rfl⟩
  | resumed => exact .inr ⟨rfl, rfl⟩

theorem Move.word (h : s.Move response m) (ha : a.val < windowBase) :
    m.word a =
      ((response.performed? s.machine.predicates).bind (Operation.storeTo? a s.machine)).getD
        (s.machine.word a) := by
  rcases h.performed with ⟨op, hop, rfl⟩ | ⟨hnone, hmemory⟩
  · rw [hop]
    exact op.perform_word_eq s.machine.advance ha
  · rw [hnone, Machine.word, hmemory]
    rfl

end

/-- What a load finds that is performed on a request. -/
theorem register_of_load {s : Simulator} {request : Request} {address : Word}
    (h : s.performed? request = some (.load address)) (hbelow : address.toNat < windowBase) :
    (s.respond request).2.machine.register .transfer = s.machine.word (.ofWord address) := by
  obtain ⟨effect, hexecuted, hholds, hop⟩ := Response.performed?_eq_some_iff.mp h
  have hperform := Machine.step_of_holds (step_of_executed hexecuted) hholds
  have hload := Operation.perform_load hbelow s.machine.advance
  rw [hop] at hperform
  rw [hperform] at hload
  exact hload

/-- A word that changes was stored. -/
theorem storeTo?_of_changed {s : Simulator} {request : Request} {a : Address}
    (hstays : request.replaces (s.respond request).1 = false)
    (hchanged : (s.respond request).2.machine.word a ≠ s.machine.word a) :
    a.val < windowBase ∧
      s.storeTo? a request = some ((s.respond request).2.machine.word a) := by
  have hmove := move_of_staying hstays
  have ha : a.val < windowBase :=
    Nat.lt_of_not_le fun hwindow => hchanged (hmove.look_of_isFixed (Part.isFixed_word hwindow))
  refine ⟨ha, ?_⟩
  have hword : (s.respond request).2.machine.word a =
      (s.storeTo? a request).getD (s.machine.word a) := hmove.word ha
  cases hstore : s.storeTo? a request with
  | none =>
    rw [hstore] at hword
    exact absurd hword hchanged
  | some value =>
    rw [hstore] at hword
    exact congrArg some hword.symm

/-- What is stored to an address comes from a store that names it, and from `R0`. -/
theorem storeTo?_eq_some_iff {s : Simulator} {request : Request} {a : Address} {value : Word} :
    s.storeTo? a request = some value ↔
      ∃ address, s.performed? request = some (.store address) ∧ address.toNat = a.val ∧
        s.machine.register .transfer = value := by
  rw [storeTo?, Option.bind_eq_some_iff]
  constructor
  · rintro ⟨op, hop, hstore⟩
    cases op with
    | store address =>
      rw [Operation.storeTo?, Option.ite_none_right_eq_some] at hstore
      exact ⟨address, hop, hstore.1, Option.some.inj hstore.2⟩
    | load _ | branch _ | alu _ _ _ _ | compare _ _ | setPredicate _ _ | halt => cases hstore
  · rintro ⟨address, hop, hsame, rfl⟩
    exact ⟨_, hop, if_pos hsame⟩

/-! ## 4. Many requests -/

section

variable {s : Simulator} {requests : List Request} {a : Address}

/-- **A word is what was stored last**, or what it was before anything was stored.  The induction is
on the requests, the first one first: what is stored later counts for more. -/
theorem word_afterAll (hstays : s.Stays requests) (ha : a.val < windowBase) :
    (s.afterAll requests).machine.word a =
      (s.storesTo a requests).getLast?.getD (s.machine.word a) := by
  induction requests generalizing s with
  | nil => rfl
  | cons request rest ih =>
    obtain ⟨hfirst, hrest⟩ := stays_cons.mp hstays
    have hword : (s.respond request).2.machine.word a =
        (s.storeTo? a request).getD (s.machine.word a) := (move_of_staying hfirst).word ha
    rw [afterAll_cons, ih hrest, hword, storesTo, List.getLast?_append, Option.getD_or]
    cases s.storeTo? a request <;> rfl

end

end Simulator

/-! ## 5. Since a program was loaded -/

/-- A program is in memory word for word, and nothing is behind it. -/
theorem Machine.word_ofProgram_eq (p : Program) (a : Address) :
    (ofProgram p).word a = p.words[a.val]?.getD 0 := by
  rw [word_ofProgram, wordOf, Program.words, List.getElem?_map, List.getElem?_toArray]
  cases p.slots[a.val]? <;> rfl

theorem Machine.tag_ofProgram_eq (p : Program) (a : Address) :
    (ofProgram p).tag a = p.tags[a.val]?.getD .error := by
  rw [tag_ofProgram, tagOf, Program.tags, List.getElem?_map, List.getElem?_toArray]
  cases p.slots[a.val]? <;> rfl

namespace Simulator

/-- **Memory is a memory.**  From the load of a program on, and as long as its machine stays,
whatever is asked: a load that is performed below the window finds what was stored last to its
address, or else the word of the program there, or zero behind the program.  A word changes only by
a store that is performed, names the word and is below the window.  The words behind the window stay
those of the program, and so do all tags, whatever becomes of the words beside them. -/
theorem memory_since_load (p : Program) (s : Simulator) {requests : List Request}
    (hstays : (s.load p).Stays requests) :
    let t := (s.load p).afterAll requests
    (∀ request address, t.performed? request = some (.load address) →
      address.toNat < windowBase →
        (t.respond request).2.machine.register .transfer =
          ((s.load p).storesTo (.ofWord address) requests).getLast?.getD
            (p.words[address.toNat]?.getD 0)) ∧
    (∀ request a, request.replaces (t.respond request).1 = false →
      (t.respond request).2.machine.word a ≠ t.machine.word a →
        a.val < windowBase ∧ (∃ address, t.performed? request = some (.store address) ∧
          address.toNat = a.val) ∧
        (t.respond request).2.machine.word a = t.machine.register .transfer) ∧
    (∀ a, windowBase ≤ a.val → t.machine.word a = p.words[a.val]?.getD 0) ∧
    ∀ a, t.machine.tag a = p.tags[a.val]?.getD .error := by
  intro t
  refine ⟨?_, ?_, ?_, ?_⟩
  · intro request address hload hbelow
    have hsame : (Address.ofWord address).val = address.toNat :=
      ((Address.ofWord_eq_iff (Word.isWindow_eq_false_iff.mpr hbelow)).mp rfl).symm
    have hword : t.machine.word (.ofWord address) = _ :=
      word_afterAll hstays (hsame.symm ▸ hbelow)
    have hloaded : (s.load p).machine.word (.ofWord address) = p.words[address.toNat]?.getD 0 := by
      rw [← hsame]
      exact Machine.word_ofProgram_eq p _
    rw [register_of_load hload hbelow, hword, hloaded]
  · intro request a hrequest hchanged
    obtain ⟨ha, hstore⟩ := storeTo?_of_changed hrequest hchanged
    obtain ⟨address, hperformed, hsame, hvalue⟩ := storeTo?_eq_some_iff.mp hstore
    exact ⟨ha, ⟨address, hperformed, hsame⟩, hvalue.symm⟩
  · intro a ha
    have hword : t.machine.word a = (s.load p).machine.word a :=
      look_afterAll_of_isFixed hstays (Part.isFixed_word ha)
    exact hword.trans (Machine.word_ofProgram_eq p a)
  · intro a
    have htag : t.machine.tag a = (s.load p).machine.tag a :=
      look_afterAll_of_isFixed hstays (Part.isFixed_tag a)
    exact htag.trans (Machine.tag_ofProgram_eq p a)

/-- A program that stores one over its own fifth instruction, skips a second store to it, executes
what it stored, which is a load, and loads what it stored. -/
def overwriting : Program :=
  ⟨[⟨0x2001, .immediateAlu⟩, ⟨0x1004, .memory⟩, ⟨0x2001, .immediateAlu⟩, ⟨0x1204, .memory⟩,
    ⟨0xC000, .memory⟩, ⟨0x0004, .memory⟩, ⟨0xF000, .halt⟩], .empty⟩

/-- A simulator that has stepped it so many times. -/
def overwritten (steps : Nat) : Simulator :=
  (initial.load overwriting).afterAll (List.replicate steps .step)

/-- The word changes by the first store alone; the first load finds a word of the program, and the
second one what was stored. -/
theorem memory_since_load_overwriting :
    (initial.load overwriting).Stays (List.replicate 5 .step) ∧
      (((overwritten 1).respond .step).2.machine.word 4 ≠ (overwritten 1).machine.word 4 ∧
        ((overwritten 1).respond .step).2.machine.word 4 =
          (overwritten 1).machine.register .transfer) ∧
      ((overwritten 4).performed? .step = some (.load 1) ∧
        ((overwritten 4).respond .step).2.machine.register .transfer = 0x1004) ∧
      ((overwritten 5).performed? .step = some (.load 4) ∧
        ((overwritten 5).respond .step).2.machine.register .transfer = 1) ∧
      (overwritten 5).machine.tag 4 = .memory := by
  have hstays : ∀ steps ≤ 5, (initial.load overwriting).Stays (List.replicate steps .step) := by
    decide +kernel
  have hchanged :
      ((overwritten 1).respond .step).2.machine.word 4 ≠ (overwritten 1).machine.word 4 := by
    decide +kernel
  have hfirst : (overwritten 4).performed? .step = some (.load 1) := by decide +kernel
  have hsecond : (overwritten 5).performed? .step = some (.load 4) := by decide +kernel
  have hnothing : (initial.load overwriting).storesTo 1 (List.replicate 4 .step) = [] := by
    decide +kernel
  have hstored : (initial.load overwriting).storesTo 4 (List.replicate 5 .step) = [1] := by
    decide +kernel
  have hloaded : overwriting.words[(1 : Word).toNat]?.getD 0 = 0x1004 := by decide
  obtain ⟨-, hchanges, -⟩ := memory_since_load overwriting initial (hstays 1 (by decide))
  obtain ⟨hloads, -⟩ := memory_since_load overwriting initial (hstays 4 (by decide))
  obtain ⟨hloads', -, -, htags⟩ := memory_since_load overwriting initial (hstays 5 (by decide))
  have hsteps (steps : Nat) :
      (initial.load overwriting).afterAll (List.replicate steps .step) = overwritten steps := rfl
  rw [hsteps] at hchanges hloads hloads' htags
  obtain ⟨-, -, hvalue⟩ := hchanges .step 4 rfl hchanged
  have hword := hloads .step 1 hfirst (by decide)
  have hword' := hloads' .step 4 hsecond (by decide)
  rw [show Address.ofWord 1 = 1 by decide, hnothing, hloaded] at hword
  rw [show Address.ofWord 4 = 4 by decide, hstored] at hword'
  exact ⟨hstays 5 (by decide), ⟨hchanged, hvalue⟩, ⟨hfirst, hword⟩, ⟨hsecond, hword'⟩, htags 4⟩

end Simulator
end PredicatedCpu

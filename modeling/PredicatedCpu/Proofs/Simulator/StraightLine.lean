/-
# Programs without branches end

A program may write a branch over one of its own words, but not the tag that would make it one.  So
a program that was loaded without branches has none for the whole of its run: the program counter
goes from one address to the next, and behind the last slot there is no instruction.  How often it
is asked to go on, and how, makes no difference.

The bound needs an address behind the program.  A program that fills the memory has none: it goes on
with its first slot.

* `Program.Straight`: a program without branches;
* `Advancing`: the program counter counts what is executed, as long as the machine is not halted;
* `Advancing.driven`: every request keeps it so, and behind the program it halts the machine;
* `straight_halts_within`: so one instruction more than there are slots is the most there can be.
-/
import PredicatedCpu.Proofs.Simulator.Memory

namespace PredicatedCpu

/-! ## 1. Programs without branches -/

/-- Whether a program is **straight**: no slot has the tag of a branch. -/
def Program.Straight (p : Program) : Prop := ∀ slot ∈ p.slots, slot.tag ≠ .branch

instance (p : Program) : Decidable p.Straight :=
  inferInstanceAs (Decidable (∀ slot ∈ p.slots, slot.tag ≠ .branch))

namespace Machine

/-- No address holds a branch, in the program or behind it. -/
theorem tag_ne_branch {p : Program} (h : p.Straight) (a : Address) :
    (ofProgram p).tag a ≠ .branch := by
  rw [tag_ofProgram, tagOf, List.getElem?_toArray]
  cases hslot : p.slots[a.val]? with
  | some slot => exact h slot (List.mem_of_getElem? hslot)
  | none =>
    intro hbranch
    cases hbranch

/-- Behind a program there is nothing. -/
theorem tag_behind {p : Program} {a : Address} (h : p.size ≤ a.val) :
    (ofProgram p).tag a = .error := by
  rw [tag_ofProgram, tagOf, List.getElem?_toArray, List.getElem?_eq_none h]

/-- **A step over nothing** halts the machine. -/
theorem halted_step_of_error {m : Machine} (h : m.tag m.pc = .error) :
    m.step.2.halted = true := by
  rcases hstep : m.step with ⟨fault | effect, m'⟩
  · obtain ⟨-, -, -, -, rfl⟩ := step_eq_error_iff.mp hstep
    rfl
  · have hdecode := (step_eq_ok_iff.mp hstep).1
    rw [h] at hdecode
    cases hdecode

end Machine

namespace Simulator

/-! ## 2. Going straight on -/

/-- Whether a simulator is **going straight** through a program. -/
structure Advancing (p : Program) (s : Simulator) : Prop where
  /-- What is an instruction and what is none was settled with the load. -/
  tags : s.machine.tags = (Machine.ofProgram p).tags
  /-- As many instructions were executed as there are slots behind the program counter. -/
  ahead : s.machine.halted = false → s.machine.pc.val = s.steps ∧ s.steps ≤ p.size
  /-- One more than there are slots, and the machine is halted. -/
  bound : s.steps ≤ p.size + 1

namespace Advancing

variable {p : Program} {s t : Simulator}

theorem load (p : Program) (s : Simulator) : (s.load p).Advancing p :=
  ⟨rfl, fun _ => ⟨rfl, Nat.zero_le _⟩, Nat.zero_le _⟩

theorem tag_eq (h : s.Advancing p) (a : Address) :
    s.machine.tag a = (Machine.ofProgram p).tag a := by
  rw [Machine.tag, h.tags]
  rfl

/-- **A step goes straight on**, to the next slot or over the end. -/
theorem step (h : s.Advancing p) (hstraight : p.Straight) (hsize : p.size < memorySize)
    (hgoes : s.machine.halted = false) (hmachine : t.machine = s.machine.step.2)
    (hsteps : t.steps = s.steps + 1) : t.Advancing p := by
  obtain ⟨hpc, hle⟩ := h.ahead hgoes
  have htag : s.machine.tag s.machine.pc ≠ .branch := by
    rw [h.tag_eq]
    exact Machine.tag_ne_branch hstraight _
  refine ⟨?_, fun hgoes' => ?_, ?_⟩
  · rw [hmachine, Machine.step_tags, h.tags]
  · have hlt : s.steps < p.size := by
      refine Nat.lt_of_le_of_ne hle fun hend => ?_
      have herror : s.machine.tag s.machine.pc = .error := by
        rw [h.tag_eq]
        exact Machine.tag_behind (by omega)
      rw [hmachine, Machine.halted_step_of_error herror] at hgoes'
      cases hgoes'
    have hroom : s.machine.pc.val + 1 < 512 := by
      have hmemory : p.size < 512 := hsize
      omega
    have hnext : (s.machine.pc + 1).val = s.machine.pc.val + 1 := by
      rw [Fin.val_add]
      exact Nat.mod_eq_of_lt hroom
    rw [hmachine, Machine.pc_step htag, hsteps, hnext, hpc]
    exact ⟨rfl, hlt⟩
  · rw [hsteps]
    exact Nat.succ_le_succ hle

/-- **Every request goes straight on**, or does not go at all. -/
theorem driven {occurrence? : Option Occurrence} (h : s.Advancing p) (hstraight : p.Straight)
    (hsize : p.size < memorySize) (hdriven : s.Driven occurrence? t) : t.Advancing p := by
  cases hdriven with
  | still machine _ steps =>
    refine ⟨?_, ?_, ?_⟩
    · rw [machine, h.tags]
    · rw [machine, steps]
      exact h.ahead
    · rw [steps]
      exact h.bound
  | executed ready machine _ steps =>
    exact h.step hstraight hsize (stepRefusal?_eq_none_iff.mp ready).2.1 machine steps
  | accepted _ machine _ steps =>
    refine ⟨?_, ?_, ?_⟩
    · rw [machine]
      exact h.tags
    · rw [machine, steps]
      exact h.ahead
    · rw [steps]
      exact h.bound

end Advancing

/-- **A program without branches ends.**  Let there be an address behind it.  From its load on, and
as long as its machine stays, whatever it stores and whatever is asked: at most one instruction more
is executed than there are slots, and if it is as many, then the machine is halted.  As long as it
is not, the program counter says how many were executed. -/
theorem straight_halts_within {p : Program} (hstraight : p.Straight)
    (hsize : p.size < memorySize) (s : Simulator) {requests : List Request}
    (hstays : (s.load p).Stays requests) :
    let t := (s.load p).afterAll requests
    (s.load p).executions requests ≤ p.size + 1 ∧
    ((s.load p).executions requests = p.size + 1 → t.machine.halted = true) ∧
    (t.machine.halted = false → t.machine.pc.val = (s.load p).executions requests) := by
  intro t
  have hloaded : (s.load p).Coherent := .load p s
  have hadvancing : t.Advancing p :=
    hloaded.staying_induction (motive := Advancing p) (.load p s)
      (fun s request hs hrequest h => h.driven hstraight hsize (hs.driven_of_staying hrequest))
      hstays
  have hsteps : t.steps = 0 + (s.load p).executions requests := hloaded.steps_of_stays hstays
  rw [Nat.zero_add] at hsteps
  rw [← hsteps]
  refine ⟨hadvancing.bound, fun hend => ?_, fun hgoes => (hadvancing.ahead hgoes).1⟩
  rw [← Bool.not_eq_false]
  intro hgoes
  have hle := (hadvancing.ahead hgoes).2
  omega

/-- A program that asks for a word and stores it over its own first instruction. -/
def storingInput : Program :=
  ⟨[⟨0x01F0, .memory⟩, ⟨0x1000, .memory⟩, ⟨0x2001, .immediateAlu⟩], .empty⟩

/-- Its run, half of it by a schedule.  What it is given is the word of a branch. -/
def givingBranch : List Request :=
  [.run 1 0, .tick 0, .provideInput "0xC000", .run 1 5, .tick 5, .tick 900, .step, .step]

/-- The fourth instruction is one that is not there. -/
theorem straight_halts_within_givingBranch :
    (storingInput.Straight ∧ storingInput.size < memorySize ∧
      (initial.load storingInput).Stays givingBranch) ∧
      ((initial.load storingInput).afterAll givingBranch).machine.word 0 = 0xC000 ∧
      (initial.load storingInput).executions givingBranch = 4 ∧
      ((initial.load storingInput).afterAll givingBranch).machine.halted = true := by
  have hstraight : storingInput.Straight := by decide
  have hsize : storingInput.size < memorySize := by decide
  have hstays : (initial.load storingInput).Stays givingBranch := by decide +kernel
  have hstored : ((initial.load storingInput).afterAll givingBranch).machine.word 0 = 0xC000 := by
    decide +kernel
  have hcount : (initial.load storingInput).executions givingBranch = 4 := by decide +kernel
  obtain ⟨-, hend, -⟩ := straight_halts_within hstraight hsize initial hstays
  exact ⟨⟨hstraight, hsize, hstays⟩, hstored, hcount, hend hcount⟩

end Simulator
end PredicatedCpu

/-
# What is executed is what was read

A program may overwrite itself, and then anything can happen.  A program whose stores all go
past its end or into the window cannot: as long as the machine is only driven, the words of the
program stay in memory, and the tags beside them stay in any case.  So every instruction that is
executed is the one that was read from its line, and nothing can go wrong before the end of the
program.

* `Program.StoresOutside`: no store of a program reaches the program;
* `Machine.Holds`: the program is in memory as it was loaded, which every move keeps;
* `Holds.decode_eq`: what is fetched is a slot of the program, or nothing past its end;
* `executed_as_read`: so what is executed is what was read.
-/
import PredicatedCpu.Proofs.Assembly.Acceptance
import PredicatedCpu.Proofs.Machine.Stepping
import PredicatedCpu.Proofs.Simulator.Transition

namespace PredicatedCpu

/-! ## 1. Programs that leave themselves alone -/

/-- The address to which the instruction in a slot stores, if it is a store. -/
def Slot.storeAddress? (slot : Slot) : Option Word :=
  match slot.decode with
  | .ok ⟨_, .store address⟩ => some address
  | _ => none

theorem Slot.storeAddress?_of_decode {slot : Slot} {i : Instruction} {address : Word}
    (hdecode : slot.decode = .ok i) (hop : i.operation = .store address) :
    slot.storeAddress? = some address := by
  obtain ⟨predicate, op⟩ := i
  obtain rfl : op = .store address := hop
  rw [storeAddress?, hdecode]

/-- Whether the instruction in a slot stores nothing below `size`.  A store to the window stores
nothing in memory. -/
def Slot.StoresPast (size : Nat) (slot : Slot) : Prop :=
  ∀ address ∈ slot.storeAddress?, size ≤ address.toNat ∨ address.isWindow = true

instance (size : Nat) : DecidablePred (Slot.StoresPast size) :=
  fun slot => Option.decidableForallMem slot.storeAddress?

/-- Whether every store of a program goes past its end or into the window. -/
def Program.StoresOutside (p : Program) : Prop := ∀ slot ∈ p.slots, slot.StoresPast p.size

instance (p : Program) : Decidable p.StoresOutside :=
  inferInstanceAs (Decidable (∀ slot ∈ p.slots, slot.StoresPast p.size))

/-! ## 2. Programs in memory -/

namespace Machine

/-- Whether a machine **holds** a program: its words are in memory, and every tag is the one that
was loaded. -/
structure Holds (m : Machine) (p : Program) : Prop where
  word : ∀ a : Address, a.val < p.size → m.word a = (ofProgram p).word a
  tags : m.tags = (ofProgram p).tags

theorem holds_ofProgram (p : Program) : (ofProgram p).Holds p := ⟨fun _ _ => rfl, rfl⟩

theorem word_ofProgram (p : Program) (a : Address) :
    (ofProgram p).word a = wordOf p.slots.toArray a.val := by
  exact Vector.getElem_ofFn a.isLt

theorem tag_ofProgram (p : Program) (a : Address) :
    (ofProgram p).tag a = tagOf p.slots.toArray a.val := by
  exact Vector.getElem_ofFn a.isLt

/-- **What is fetched** from a machine that holds a program: a slot of the program, or no
instruction past its end. -/
theorem Holds.decode_eq {m : Machine} {p : Program} (h : m.Holds p) (a : Address) :
    decode (m.word a) (m.tag a) =
      match p.slots[a.val]? with
      | some slot => slot.decode
      | none => .error .noInstruction := by
  have htag : m.tag a = tagOf p.slots.toArray a.val := by
    rw [← tag_ofProgram, tag, h.tags]
    rfl
  cases hslot : p.slots[a.val]? with
  | some slot =>
    have hlt : a.val < p.size := (List.getElem?_eq_some_iff.mp hslot).1
    rw [htag, h.word a hlt, word_ofProgram, wordOf, tagOf, List.getElem?_toArray, hslot]
    rfl
  | none =>
    rw [htag, tagOf, List.getElem?_toArray, hslot]
    rfl

/-- **No step overwrites the program** if its stores go elsewhere. -/
theorem Holds.step {m : Machine} {p : Program} (h : m.Holds p) (hstores : p.StoresOutside) :
    m.step.2.Holds p := by
  refine ⟨fun a ha => ?_, by rw [step_tags, h.tags]⟩
  rw [← h.word a ha]
  refine step_word fun i address hdecode hop => ?_
  have hfits : address.toNat < memorySize := by
    have := fits_of_decode hdecode
    rwa [Instruction.Fits, hop] at this
  rw [h.decode_eq] at hdecode
  split at hdecode
  · rename_i slot hslot
    have hmem : slot ∈ p.slots := List.mem_of_getElem? hslot
    rcases hstores slot hmem address (Slot.storeAddress?_of_decode hdecode hop) with hpast | hwindow
    · right
      rintro rfl
      have hval : (Address.ofWord address).val = address.toNat := Nat.mod_eq_of_lt hfits
      omega
    · exact .inl hwindow
  · cases hdecode

end Machine

namespace Simulator

theorem Move.holds {s : Simulator} {p : Program} {response : Response} {m : Machine}
    (h : s.Move response m) (hholds : s.machine.Holds p) (hstores : p.StoresOutside) :
    m.Holds p := by
  have hstep := hholds.step hstores
  cases h with
  | still => exact hholds
  | executed _ step => rwa [step] at hstep
  | faulted _ step => rwa [step] at hstep
  | resumed value waits => exact ⟨fun a ha => hholds.word a ha, hholds.tags⟩

/-- **The program stays** in the machine as long as that is only driven. -/
theorem holds_afterAll_load {p : Program} (hstores : p.StoresOutside) (s : Simulator)
    {requests : List Request} (hdriving : ∀ request ∈ requests, request.isDriving = true) :
    ((s.load p).afterAll requests).machine.Holds p :=
  afterAll_driving_induction (motive := fun m => m.Holds p) (Machine.holds_ofProgram p)
    (fun _ _ _ hmove hholds => hmove.holds hholds hstores) hdriving

end Simulator

/-! ## 3. Programs that were assembled -/

/-- What is fetched from a machine that holds an assembled program: what was read from the
statement with that address, or no instruction past the end of the program. -/
theorem Machine.Holds.decode_cases {m : Machine} {source : String} {p : Program}
    (hholds : m.Holds p) (h : assemble source = .ok p) (a : Address) :
    (∃ (e : Entry) (i : Instruction), a.val < p.size ∧
      (instructionEntries source)[a.val]? = some e ∧ e.instruction p.symbols = .ok i ∧
        m.Fetches a i) ∨
    (p.size ≤ a.val ∧ decode (m.word a) (m.tag a) = .error .noInstruction) := by
  simp only [Machine.Fetches, hholds.decode_eq]
  cases hslot : p.slots[a.val]? with
  | some slot =>
    obtain ⟨e, i, he, hread, hdecode⟩ := exists_entry_of_slot h hslot
    exact .inl ⟨e, i, (List.getElem?_eq_some_iff.mp hslot).1, he, hread, hdecode⟩
  | none => exact .inr ⟨List.getElem?_eq_none_iff.mp hslot, rfl⟩

/-- **What is executed is what was read.**  Let a program come from a source and not store to
itself.  After it was loaded, and as long as the machine is only driven, every instruction that
is executed stands in the program and is the one that was read from the statement with its
address; and the only fault there can be is that an address past the end of the program holds no
instruction. -/
theorem executed_as_read {source : String} {p : Program} (h : assemble source = .ok p)
    (hstores : p.StoresOutside) (s : Simulator) (before : List Request)
    (hbefore : ∀ request ∈ before, request.isDriving = true) {t : Simulator}
    (ht : t = (s.load p).afterAll before) (request : Request)
    (hrequest : request.isDriving = true) :
    (∀ effect, (t.respond request).1 = .executed effect →
      t.machine.pc.val < p.size ∧ t.machine.Fetches t.machine.pc effect.instruction ∧
        ∃ e, (instructionEntries source)[t.machine.pc.val]? = some e ∧
          e.instruction p.symbols = .ok effect.instruction) ∧
    (∀ fault, (t.respond request).1 = .faulted fault →
      fault.origin = t.machine.pc.val ∧ p.size ≤ fault.origin ∧ fault.cause = .noInstruction) := by
  have hholds : t.machine.Holds p := ht ▸ Simulator.holds_afterAll_load hstores s hbefore
  have hfetch := hholds.decode_cases h t.machine.pc
  have hmove := t.move_respond hrequest
  constructor
  · intro effect hresponse
    rw [hresponse] at hmove
    obtain ⟨hdecode, -⟩ := Machine.step_eq_ok_iff.mp hmove.step_of_executed
    rcases hfetch with ⟨e, i, hlt, he, hread, hi⟩ | ⟨-, hnone⟩
    · obtain rfl : effect.instruction = i := Except.ok.inj (hdecode.symm.trans hi)
      exact ⟨hlt, hdecode, e, he, hread⟩
    · cases hdecode.symm.trans hnone
  · intro fault hresponse
    rw [hresponse] at hmove
    obtain ⟨hdecode, horigin, -⟩ := Machine.step_eq_error_iff.mp hmove.step_of_faulted
    rcases hfetch with ⟨e, i, -, -, -, hi⟩ | ⟨hle, hnone⟩
    · cases hdecode.symm.trans hi
    · rw [horigin]
      exact ⟨rfl, hle, Except.error.inj (hdecode.symm.trans hnone)⟩

/-- A source that adds one to `R0` and stores behind itself. -/
def countingSource : String := "add r0, r0, #1\nstr 2"

/-- The program of `countingSource`. -/
def countingProgram : Program := ⟨[⟨0x2001, .immediateAlu⟩, ⟨0x1002, .memory⟩], .empty⟩

/-- A simulator after requests, from the loading of `countingProgram` on. -/
def countingAfter (requests : List Request) : Simulator :=
  (Simulator.initial.load countingProgram).afterAll requests

/-- A run executes the first instruction, and the third step faults. -/
theorem executed_as_read_counting :
    (assemble countingSource = .ok countingProgram ∧ countingProgram.StoresOutside) ∧
      (((countingAfter [.run 1 0]).respond (.tick 0)).1 =
          .executed ⟨⟨.always, .alu .add 0 0 (.immediate 1)⟩, .computed 0 1⟩ ∧
        ∃ e, (instructionEntries countingSource)[(countingAfter [.run 1 0]).machine.pc.val]? =
            some e ∧
          e.instruction countingProgram.symbols =
            .ok ⟨.always, .alu .add 0 0 (.immediate 1)⟩) ∧
      ((countingAfter [.step, .step]).respond .step).1 = .faulted ⟨2, 1, .error, .noInstruction⟩ ∧
        countingProgram.size ≤ 2 := by
  have hassemble : assemble countingSource = .ok countingProgram := rfl
  have hstores : countingProgram.StoresOutside := by decide +kernel
  have hadded : ((countingAfter [.run 1 0]).respond (.tick 0)).1 =
      .executed ⟨⟨.always, .alu .add 0 0 (.immediate 1)⟩, .computed 0 1⟩ := by decide +kernel
  have hfaulted : ((countingAfter [.step, .step]).respond .step).1 =
      .faulted ⟨2, 1, .error, .noInstruction⟩ := by decide +kernel
  obtain ⟨hread, -⟩ := executed_as_read hassemble hstores .initial [.run 1 0] (by decide)
    (t := countingAfter [.run 1 0]) rfl (.tick 0) rfl
  obtain ⟨-, hpast⟩ := executed_as_read hassemble hstores .initial [.step, .step] (by decide)
    (t := countingAfter [.step, .step]) rfl .step rfl
  obtain ⟨-, -, hentry⟩ := hread _ hadded
  obtain ⟨-, hle, -⟩ := hpast _ hfaulted
  exact ⟨⟨hassemble, hstores⟩, ⟨hadded, hentry⟩, hfaulted, hle⟩

end PredicatedCpu

/-
# An instruction writes one thing

Computing leaves the flags alone, comparing leaves the registers alone, a store to the window leaves
the memory alone, and so on: a machine has many parts, and each of the instructions could spoil any
of them.  None does.  To see it once, the parts are listed, and a machine is looked at part by part:
then what an instruction does is an update of one part, whichever instruction it is.

* `Part`, `Machine.look`: the parts of a machine and what is in them, and by `Machine.ext_look`
  there is nothing else in a machine;
* `Operation.write`: the part that an operation names and what belongs there, in terms of the
  machine before, with the arithmetic in whole numbers;
* `Operation.look_perform`: that part is updated, and no other;
* `execute_writes`: so an executed word writes what it names, or nothing;
* `Part.IsFixed`, `look_step_of_isFixed`: there are parts that no word can name, and so no step
  writes.
-/
import Mathlib.Logic.Function.Basic
import PredicatedCpu.Proofs.Machine.Stepping

namespace PredicatedCpu

/-! ## 1. Parts -/

/-- A **part** of a machine: the least that an instruction can write. -/
inductive Part where
  | pc
  | register (r : Register)
  | flags
  | predicate (p : PredicateRegister)
  | word (a : Address)
  | tag (a : Address)
  | halted
  | pending
  | output
  deriving DecidableEq, Repr

/-- What can be in a part. -/
abbrev Part.Value : Part → Type
  | pc => Address
  | register _ => Word
  | flags => Flags
  | predicate _ => Bool
  | word _ => Word
  | tag _ => Tag
  | halted => Bool
  | pending => Option PendingInput
  | output => List OutputRecord

namespace Machine

/-- What is in a part of a machine. -/
def look (m : Machine) : (part : Part) → part.Value
  | .pc => m.pc
  | .register r => m.register r
  | .flags => m.flags
  | .predicate p => m.predicates.get p
  | .word a => m.word a
  | .tag a => m.tag a
  | .halted => m.halted
  | .pending => m.pending
  | .output => m.output.toList

/-- **Nothing else is in a machine**: machines that look the same are the same. -/
theorem ext_look {m m' : Machine} (h : m.look = m'.look) : m = m' := by
  have hparts : ∀ part, m.look part = m'.look part := fun part => congrFun h part
  have hregisters : m.registers = m'.registers :=
    Vector.ext fun i hi => hparts (.register ⟨i, hi⟩)
  have hpredicates : m.predicates = m'.predicates :=
    Vector.ext fun i hi => hparts (.predicate ⟨i, hi⟩)
  have hmemory : m.memory = m'.memory := Vector.ext fun i hi => hparts (.word ⟨i, hi⟩)
  have htags : m.tags = m'.tags := Vector.ext fun i hi => hparts (.tag ⟨i, hi⟩)
  have hpc : m.pc = m'.pc := hparts .pc
  have hflags : m.flags = m'.flags := hparts .flags
  have hhalted : m.halted = m'.halted := hparts .halted
  have hpending : m.pending = m'.pending := hparts .pending
  have houtput : m.output = m'.output := Array.toList_inj.mp (hparts .output)
  cases m
  cases m'
  simp_all

/-! Each change of a machine is an update of one part. -/

theorem look_setPc (m : Machine) (a : Address) :
    { m with pc := a }.look = Function.update m.look .pc a := by
  funext part
  cases part <;> rfl

theorem look_setRegister (m : Machine) (r : Register) (value : Word) :
    (m.setRegister r value).look = Function.update m.look (.register r) value := by
  funext part
  cases part with
  | register r' =>
    by_cases h : r' = r
    · subst h
      rw [Function.update_self]
      exact m.register_setRegister_self r' value
    · rw [Function.update_of_ne (by simpa using h)]
      exact Vector.getElem_set_ne r.isLt r'.isLt fun e => h (Fin.ext e.symm)
  | _ => rfl

theorem look_setFlags (m : Machine) (flags : Flags) :
    { m with flags }.look = Function.update m.look .flags flags := by
  funext part
  cases part <;> rfl

theorem look_setPredicate (m : Machine) (p : PredicateRegister) (value : Bool) :
    (m.setPredicate p value).look = Function.update m.look (.predicate p) value := by
  funext part
  cases part with
  | predicate p' =>
    by_cases h : p' = p
    · subst h
      rw [Function.update_self]
      exact Vector.getElem_set_self p'.isLt
    · rw [Function.update_of_ne (by simpa using h)]
      exact Vector.getElem_set_ne p.isLt p'.isLt fun e => h (Fin.ext e.symm)
  | _ => rfl

theorem look_setWord (m : Machine) (a : Address) (value : Word) :
    (m.setWord a value).look = Function.update m.look (.word a) value := by
  funext part
  cases part with
  | word a' =>
    by_cases h : a' = a
    · subst h
      rw [Function.update_self]
      exact m.word_setWord_self a' value
    · rw [Function.update_of_ne (by simpa using h)]
      exact word_setWord_of_ne (Ne.symm h) value
  | _ => rfl

theorem look_halt (m : Machine) : m.halt.look = Function.update m.look .halted true := by
  funext part
  cases part <;> rfl

theorem look_setPending (m : Machine) (pending : Option PendingInput) :
    { m with pending }.look = Function.update m.look .pending pending := by
  funext part
  cases part <;> rfl

theorem look_send (m : Machine) (record : OutputRecord) :
    (m.send record).look = Function.update m.look .output (m.output.toList ++ [record]) := by
  funext part
  cases part with
  | output => exact Array.toList_push
  | _ => rfl

end Machine

/-! ## 2. What belongs where -/

/-- The result of a computing operation in whole numbers, before it is taken modulo `2 ^ 16`. -/
def AluOp.result (a b : Nat) : AluOp → Int
  | add => (a : Int) + b
  | sub => (a : Int) - b
  | and => (a &&& b : Nat)
  | orr => (a ||| b : Nat)
  | xor => (a ^^^ b : Nat)
  | mov => b
  | lshl => (a * 2 ^ (b % 8) : Nat)
  | lshr => (a / 2 ^ (b % 8) : Nat)

/-- **A computing operation** yields its result modulo `2 ^ 16`. -/
theorem AluOp.apply_eq_ofInt (op : AluOp) (a b : Word) :
    op.apply a b = BitVec.ofInt 16 (op.result a.toNat b.toNat) := by
  apply BitVec.eq_of_toNat_eq
  cases op with
  | add =>
    simp only [apply, result, BitVec.toNat_add, BitVec.toNat_ofInt]
    omega
  | sub =>
    simp only [apply, result, BitVec.toNat_sub, BitVec.toNat_ofInt]
    omega
  | and | orr | xor | mov => simp [apply, result]
  | lshl =>
    simp only [apply, result, BitVec.toNat_shiftLeft, Nat.shiftLeft_eq, BitVec.ofInt_natCast,
      BitVec.toNat_ofNat]
  | lshr =>
    have hle : a.toNat / 2 ^ (b.toNat % 8) ≤ a.toNat := Nat.div_le_self _ _
    have hlt : a.toNat / 2 ^ (b.toNat % 8) < 65536 := Nat.lt_of_le_of_lt hle a.isLt
    simp only [apply, result, BitVec.toNat_ushiftRight, Nat.shiftRight_eq_div_pow,
      BitVec.ofInt_natCast, BitVec.toNat_ofNat]
    exact (Nat.mod_eq_of_lt hlt).symm

/-- A part of a machine and what is written there. -/
structure Write where
  part : Part
  value : part.Value

/-- Below the window an address is itself. -/
theorem Address.ofWord_of_lt {address : Word} (h : address.toNat < windowBase) :
    Address.ofWord address = ⟨address.toNat, Nat.lt_trans h (by decide)⟩ :=
  (Address.ofWord_eq_iff (Word.isWindow_eq_false_iff.mpr h)).mpr rfl

/-- What a load writes: the word at its address, but zero where nothing can be read, and at the
input address nothing yet. -/
def Operation.writeLoad (address : Word) (m : Machine) : Write :=
  if h : address.toNat < windowBase then
    ⟨.register .transfer, m.word ⟨address.toNat, Nat.lt_trans h (by decide)⟩⟩
  else if address.toNat = inputAddress then ⟨.pending, some ⟨address, .transfer⟩⟩
  else ⟨.register .transfer, (0 : Word)⟩

/-- What a store writes: one more record in the output if its address is in the window. -/
def Operation.writeStore (address : Word) (m : Machine) : Write :=
  if h : address.toNat < windowBase then
    ⟨.word ⟨address.toNat, Nat.lt_trans h (by decide)⟩, m.register .transfer⟩
  else ⟨.output, m.output.toList ++ [⟨address, m.register .transfer⟩]⟩

/-- **What an operation writes**: one part of the machine, and all that it writes there is taken
from the machine before. -/
def Operation.write (m : Machine) : Operation → Write
  | .load address => writeLoad address m
  | .store address => writeStore address m
  | .branch target => ⟨.pc, .ofWord target⟩
  | .alu op dest source operand =>
    ⟨.register dest, BitVec.ofInt 16 (op.result (m.register source).toNat (operand.value m).toNat)⟩
  | .compare source operand => ⟨.flags, .ofSub (m.register source) (operand.value m)⟩
  | .setPredicate condition dest => ⟨.predicate dest, condition.holds m.flags⟩
  | .halt => ⟨.halted, true⟩

/-- The parts of a machine after a write. -/
def Write.over (write : Write) (m : Machine) : (part : Part) → part.Value :=
  Function.update m.look write.part write.value

/-- The address in the window that an operation reads though nothing can be read there. -/
def Operation.missingDevice? : Operation → Option Word
  | .load address => if windowBase < address.toNat then some address else none
  | _ => none

/-! ## 3. One instruction -/

namespace Operation

theorem look_performLoad (address : Word) (m : Machine) :
    (performLoad address m).2.look = (writeLoad address m).over m := by
  unfold performLoad writeLoad
  cases hwindow : address.isWindow with
  | true =>
    have hge : ¬ address.toNat < windowBase := Nat.not_lt.mpr (of_decide_eq_true hwindow)
    rw [dif_neg hge, if_pos rfl]
    split
    · exact m.look_setPending _
    · exact m.look_setRegister _ _
  | false =>
    have hlt := Word.isWindow_eq_false_iff.mp hwindow
    rw [dif_pos hlt, ← Address.ofWord_of_lt hlt]
    exact m.look_setRegister _ _

theorem look_performStore (address : Word) (m : Machine) :
    (performStore address m).2.look = (writeStore address m).over m := by
  unfold performStore writeStore
  cases hwindow : address.isWindow with
  | true =>
    have hge : ¬ address.toNat < windowBase := Nat.not_lt.mpr (of_decide_eq_true hwindow)
    rw [dif_neg hge]
    exact m.look_send _
  | false =>
    have hlt := Word.isWindow_eq_false_iff.mp hwindow
    rw [dif_pos hlt, ← Address.ofWord_of_lt hlt]
    exact m.look_setWord _ _

/-- **An operation writes what it names**, and nothing besides. -/
theorem look_perform (op : Operation) (m : Machine) :
    (op.perform m).2.look = (op.write m).over m := by
  cases op with
  | load address => exact look_performLoad address m
  | store address => exact look_performStore address m
  | branch target => exact m.look_setPc _
  | alu op dest source operand =>
    rw [perform, AluOp.apply_eq_ofInt]
    exact m.look_setRegister _ _
  | compare source operand => exact m.look_setFlags _
  | setPredicate condition dest => exact m.look_setPredicate _ _
  | halt => exact m.look_halt

/-- **A warning** is given exactly where a load finds nothing to read. -/
theorem warning?_perform (i : Instruction) (op : Operation) (m : Machine) :
    (Effect.mk i (op.perform m).1).warning? = op.missingDevice?.map missingDeviceText := by
  cases op with
  | load address =>
    rw [missingDevice?, perform, performLoad]
    cases hwindow : address.isWindow with
    | true =>
      have hge : windowBase ≤ address.toNat := of_decide_eq_true hwindow
      by_cases hinput : address.toNat = inputAddress
      · have hnot : ¬ windowBase < address.toNat := by rw [hinput]; decide
        simp only [if_pos hinput, if_neg hnot]
        rfl
      · have hlt : windowBase < address.toNat := by
          unfold inputAddress at hinput
          unfold windowBase at hge ⊢
          omega
        simp only [if_neg hinput, if_pos hlt]
        rfl
    | false =>
      have hnot := Nat.lt_asymm (Word.isWindow_eq_false_iff.mp hwindow)
      rw [if_neg hnot]
      rfl
  | store address =>
    rw [perform, performStore]
    split <;> rfl
  | _ => rfl

end Operation

/-- **An executed word writes what it names.**  A word that is no instruction halts the machine and
does nothing else, and an instruction whose predicate does not hold does nothing at all.  Otherwise
one part is updated, the one that the operation names.  Every field of what is decoded is in range,
so a branch goes to its target, and `P0` is never named. -/
theorem execute_writes (origin : Nat) (w : Word) (tag : Tag) (m : Machine) :
    (∀ cause, decode w tag = .error cause →
      (execute origin w tag m).1 = .error ⟨origin, w, tag, cause⟩ ∧
        (execute origin w tag m).2.look = (Write.mk .halted true).over m) ∧
    (∀ i, decode w tag = .ok i →
      i.Fits ∧
        (i.predicate.holds m.predicates = false →
          execute origin w tag m = (.ok ⟨i, .skipped⟩, m)) ∧
        (i.predicate.holds m.predicates = true →
          (∃ effect, (execute origin w tag m).1 = .ok effect ∧ effect.instruction = i ∧
            effect.warning? = i.operation.missingDevice?.map missingDeviceText) ∧
          (execute origin w tag m).2.look = (i.operation.write m).over m)) ∧
    (execute origin w tag m).2.pc.val < memorySize := by
  refine ⟨?_, ?_, (execute origin w tag m).2.pc.isLt⟩
  · intro cause hdecode
    rw [execute_of_undecodable hdecode]
    exact ⟨rfl, m.look_halt⟩
  · intro i hdecode
    refine ⟨fits_of_decode hdecode, fun hholds => execute_of_not_holds hdecode hholds origin, ?_⟩
    intro hholds
    have hexecute : execute origin w tag m =
        (.ok ⟨i, (i.operation.perform m).1⟩, (i.operation.perform m).2) := by
      rw [execute, hdecode, ← Instruction.execute_of_holds hholds]
    rw [hexecute]
    exact ⟨⟨_, rfl, rfl, i.operation.warning?_perform i m⟩, i.operation.look_perform m⟩

/-- `ADD R1, R1, R1` under a predicate. -/
def doubling : Instruction := ⟨.p1, .alu .add 1 1 (.register 1)⟩

/-- A machine whose registers are full, and that has sent something. -/
def brimful : Machine :=
  { Machine.blank with
    registers := #v[0x0041, 0xFFFF, 0xFFFF, 0, 0, 0, 0, 0]
    predicates := #v[false, true, false, false]
    output := #[⟨0x01F2, 7⟩] }

/-- A register is doubled in place and wraps round, a store to the window goes behind what was sent
before, and a word that is no instruction halts. -/
theorem execute_writes_brimful :
    (execute 0 doubling.word .registerAlu brimful).2.look =
        (Write.mk (.register 1) (0xFFFE : Word)).over brimful ∧
      (execute 0 (Instruction.word ⟨.always, .store 0x01F3⟩) .memory brimful).2.look =
        (Write.mk .output [⟨0x01F2, 7⟩, ⟨0x01F3, 0x0041⟩]).over brimful ∧
      (execute 0 0xD000 .registerAlu brimful).2.look = (Write.mk .halted true).over brimful := by
  have hdoubling : decode doubling.word .registerAlu = .ok doubling :=
    decode_word_of_fits (i := doubling) (by decide)
  have hstore : decode (Instruction.word ⟨.always, .store 0x01F3⟩) .memory =
      .ok ⟨.always, .store 0x01F3⟩ := decode_word_of_fits (i := ⟨.always, .store 0x01F3⟩) (by decide)
  have hnothing : ∃ cause, decode 0xD000 .registerAlu = .error cause := ⟨_, rfl⟩
  obtain ⟨cause, hcause⟩ := hnothing
  exact ⟨(((execute_writes 0 _ _ brimful).2.1 _ hdoubling).2.2 (by decide)).2,
    (((execute_writes 0 _ _ brimful).2.1 _ hstore).2.2 (by decide)).2,
    ((execute_writes 0 _ _ brimful).1 _ hcause).2⟩

/-! ## 4. What no step writes -/

/-- A part that was not written. -/
theorem Write.over_of_ne {write : Write} {part : Part} (h : part ≠ write.part) (m : Machine) :
    write.over m part = m.look part :=
  Function.update_of_ne h _ _

/-- The parts that are **fixed**: every tag, the one-bit register `P0`, and the words behind the
window. -/
def Part.IsFixed : Part → Prop
  | .tag _ => True
  | .predicate p => p = 0
  | .word a => windowBase ≤ a.val
  | _ => False

theorem Part.isFixed_tag (a : Address) : (tag a).IsFixed := trivial

theorem Part.isFixed_p0 : (predicate 0).IsFixed := rfl

theorem Part.isFixed_word {a : Address} (h : windowBase ≤ a.val) : (word a).IsFixed := h

/-- Whatever fits in a word does not name a fixed part. -/
theorem Operation.not_isFixed_write {op : Operation} (h : op.Fits) (m : Machine) :
    ¬ (op.write m).part.IsFixed := by
  cases op with
  | load address =>
    simp only [write, writeLoad]
    split
    · exact id
    · split <;> exact id
  | store address =>
    simp only [write, writeStore]
    split
    · rename_i hlt
      exact Nat.not_le.mpr hlt
    · exact id
  | setPredicate condition dest => exact h
  | branch _ | alu _ _ _ _ | compare _ _ | halt => exact id

namespace Machine

/-- **What a step writes** beside the program counter: nothing, or the halt, or what an operation
names. -/
theorem look_step (m : Machine) :
    m.step.2.look = m.advance.look ∨ m.step.2.look = (Write.mk .halted true).over m.advance ∨
      ∃ op : Operation, op.Fits ∧ m.step.2.look = (op.write m.advance).over m.advance := by
  rcases hstep : m.step with ⟨fault | effect, m'⟩
  · obtain ⟨-, -, -, -, rfl⟩ := step_eq_error_iff.mp hstep
    exact .inr (.inl m.advance.look_halt)
  · cases hholds : effect.instruction.predicate.holds m.predicates with
    | false =>
      obtain ⟨-, rfl⟩ := step_of_not_holds hstep hholds
      exact .inl rfl
    | true =>
      have hperform := step_of_holds hstep hholds
      have hlook := effect.instruction.operation.look_perform m.advance
      rw [hperform] at hlook
      exact .inr (.inr ⟨_, fits_of_decode (step_eq_ok_iff.mp hstep).1, hlook⟩)

/-- **No step writes a fixed part**: the program counter is not fixed, nor is the halt. -/
theorem look_step_of_isFixed {part : Part} (h : part.IsFixed) (m : Machine) :
    m.step.2.look part = m.look part := by
  have hadvance : m.advance.look part = m.look part := by
    cases part <;> first | rfl | cases h
  rcases m.look_step with hlook | hlook | ⟨op, hfits, hlook⟩
  · rw [hlook, hadvance]
  · have hne : part ≠ .halted := by
      rintro rfl
      exact h
    rw [hlook, Write.over_of_ne hne, hadvance]
  -- What is decoded fits, and what fits does not name a fixed part.
  · have hne : part ≠ (op.write m.advance).part := by
      rintro rfl
      exact op.not_isFixed_write hfits _ h
    rw [hlook, Write.over_of_ne hne, hadvance]

/-- Nor does the end of a load that waited for input. -/
theorem look_resume_of_isFixed {part : Part} (h : part.IsFixed) (m : Machine)
    (pending : PendingInput) (value : Word) : (m.resume pending value).look part = m.look part := by
  cases part with
  | tag _ | predicate _ | word _ => rfl
  | pc | register _ | flags | halted | pending | output => cases h

end Machine
end PredicatedCpu

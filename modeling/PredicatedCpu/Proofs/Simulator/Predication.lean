/-
# Predicates are wrapped around

Whatever an instruction does, its predicate only decides whether it does it.  Three bits of the word
say which predicate that is, and nothing else hangs on them: not whether the word is an instruction,
nor which operation it is, nor what comes of that once it is carried out.

One of the predicates asks for a bit that is never set.  No instruction can set `P0`, and a program
that writes such an instruction for itself only faults; so what stands under `P0` is never carried
out, and what stands under `!P0` always is.

* `Word.unguarded`: a word without the three bits;
* `decode_congr`: words that differ in them alone are the same operation, or none for the same
  cause;
* `execute_of_holds`: an instruction whose predicate holds does what it does without one;
* `Reachable.p0`: no request sets `P0`, which no step can write, and every load clears it;
* `predication_uniform`: all of this together.
-/
import PredicatedCpu.Proofs.Simulator.Lifetime

namespace PredicatedCpu

/-! ## 1. The three bits -/

/-- A word with the bits of its predicate cleared. -/
def Word.unguarded (w : Word) : Word := w &&& ~~~0x0E00

theorem Word.toNat_unguarded (w : Word) :
    w.unguarded.toNat = w.toNat / 4096 * 4096 + w.toNat % 512 :=
  w.toNat_clear 0x0E00 9 12 (by decide) (by decide)

/-- **Decoding goes around the predicate**: of the other bits it makes the same. -/
theorem decode_congr (w w' : Word) (hopcode : w.toNat / 4096 = w'.toNat / 4096)
    (hfield : w.toNat % 512 = w'.toNat % 512) (tag : Tag) :
    decode w tag =
      (decode w' tag).map fun i => ⟨Predicate.ofCode (w.toNat / 512), i.operation⟩ := by
  unfold decode
  rw [hopcode, hfield]
  split
  · rfl
  · split
    · rfl
    · split
      · cases Operation.ofField tag (w'.toNat % 512) _ <;> rfl
      · rfl

/-- Words that differ in the three bits alone are the same operation, or none for the same cause. -/
theorem operation_decode_congr {w w' : Word} (h : w.unguarded = w'.unguarded) (tag : Tag) :
    (decode w tag).map Instruction.operation = (decode w' tag).map Instruction.operation := by
  have hnat := congrArg BitVec.toNat h
  rw [Word.toNat_unguarded, Word.toNat_unguarded] at hnat
  rw [decode_congr w w' (by omega) (by omega)]
  cases decode w' tag <;> rfl

/-- Without the three bits an instruction is the same operation under no predicate. -/
theorem decode_unguarded {w : Word} {tag : Tag} {i : Instruction} (h : decode w tag = .ok i) :
    decode w.unguarded tag = .ok ⟨.always, i.operation⟩ := by
  have hnat := w.toNat_unguarded
  have hcode : w.unguarded.toNat / 512 % 8 = 0 := by omega
  have halways : Predicate.ofCode (w.unguarded.toNat / 512) = .always := by
    simp only [Predicate.ofCode, hcode]
  rw [decode_congr w.unguarded w (by omega) (by omega), h, halways]
  rfl

/-! ## 2. The two ways of an instruction -/

/-- What an effect **signals** besides its trace: that the machine is halted, that it waits, and
what is worth a warning. -/
def Effect.signals (e : Effect) : Bool × Bool × Option String := (e.halted, e.suspended, e.warning?)

/-- What an effect signals is in its outcome. -/
theorem Effect.signals_congr {e e' : Effect} (h : e.outcome = e'.outcome) :
    e.signals = e'.signals := by
  unfold signals halted suspended warning? missingDevice?
  rw [h]

section

variable {w : Word} {tag : Tag} {i : Instruction} {m : Machine}

/-- **A predicate that holds** is as good as none. -/
theorem execute_of_holds (hdecode : decode w tag = .ok i)
    (hholds : i.predicate.holds m.predicates = true) (origin : Nat) :
    ∃ effect effect' m', execute origin w tag m = (.ok effect, m') ∧
      execute origin w.unguarded tag m = (.ok effect', m') ∧
        effect.instruction = i ∧ effect'.instruction = ⟨.always, i.operation⟩ ∧
          effect.outcome = effect'.outcome := by
  have hguarded : i.execute m = i.operation.perform m := Instruction.execute_of_holds hholds
  have hunguarded : (Instruction.mk .always i.operation).execute m = i.operation.perform m :=
    Instruction.execute_of_holds rfl
  refine ⟨⟨i, (i.operation.perform m).1⟩, ⟨⟨.always, i.operation⟩, (i.operation.perform m).1⟩,
    (i.operation.perform m).2, ?_, ?_, rfl, rfl, rfl⟩
  · rw [execute, hdecode, ← hguarded]
  · rw [execute, decode_unguarded hdecode, ← hunguarded]

end

/-! ## 3. The bit that is never set -/

namespace Simulator

/-- **`P0` is never set**, whatever was asked: every load clears it, and it is fixed from then on. -/
theorem Reachable.p0 {s : Simulator} (h : s.Reachable) :
    Predicate.p0.holds s.machine.predicates = false := by
  obtain ⟨requests, rfl⟩ := h
  refine afterAll_induction (motive := fun s => Predicate.p0.holds s.machine.predicates = false)
    rfl ?_ requests
  intro s request hp0
  cases hreplaces : request.replaces (s.respond request).1 with
  | true =>
    rcases machine_of_replaced hreplaces with hblank | ⟨p, hloaded⟩
    · rw [hblank]
      rfl
    · rw [hloaded]
      rfl
  | false =>
    have hkept : (s.respond request).2.machine.look (.predicate 0) = _ :=
      (move_of_staying hreplaces).look_of_isFixed Part.isFixed_p0
    exact hkept.trans hp0

section

variable {s : Simulator} {request : Request} {effect : Effect}

/-- What stands under `P0` only moves on. -/
theorem Reachable.executed_p0 (h : s.Reachable)
    (hexecuted : (s.respond request).1 = .executed effect)
    (hpredicate : effect.instruction.predicate = .p0) :
    (s.respond request).2.machine = s.machine.advance ∧ effect.signals = (false, false, none) := by
  have hholds : effect.instruction.predicate.holds s.machine.predicates = false := by
    rw [hpredicate]
    exact h.p0
  obtain ⟨houtcome, hmachine⟩ := Machine.step_of_not_holds (step_of_executed hexecuted) hholds
  have hsignals : effect.signals = Effect.signals ⟨effect.instruction, .skipped⟩ :=
    Effect.signals_congr houtcome
  exact ⟨hmachine, hsignals⟩

/-- What stands under `!P0` does what it would do under no predicate. -/
theorem Reachable.executed_notP0 (h : s.Reachable)
    (hexecuted : (s.respond request).1 = .executed effect)
    (hpredicate : effect.instruction.predicate = .notP0) :
    ∃ effect', effect.signals = effect'.signals ∧
      execute s.machine.pc.val (s.machine.word s.machine.pc).unguarded
        (s.machine.tag s.machine.pc) s.machine.advance =
          (.ok effect', (s.respond request).2.machine) := by
  have hstep := step_of_executed hexecuted
  have hholds : effect.instruction.predicate.holds s.machine.advance.predicates = true := by
    rw [hpredicate]
    exact congrArg not h.p0
  obtain ⟨effect₁, effect₂, m', hguarded, hunguarded, -, -, houtcome⟩ :=
    execute_of_holds (Machine.step_eq_ok_iff.mp hstep).1 hholds s.machine.pc.val
  rw [Machine.step, hguarded] at hstep
  obtain ⟨rfl, rfl⟩ : effect₁ = effect ∧ m' = _ :=
    ⟨Except.ok.inj (congrArg Prod.fst hstep), congrArg Prod.snd hstep⟩
  exact ⟨effect₂, Effect.signals_congr houtcome, hunguarded⟩

end

/-! ## 4. All together -/

/-- **A predicate is wrapped around an instruction**, and around every one in the same way.  Words
that differ in the three bits of the predicate are the same operation, or are none for the same
cause; a word that is none faults and halts the machine under every predicate.  If the predicate
holds, the machine is left as the word without the three bits would leave it, and the same is
signalled; if it does not hold, the machine is left as the fetch left it, and nothing is signalled.
And `P0` holds in no simulator that requests lead to: there, what stands under `P0` only moves on,
and what stands under `!P0` does what it would do under no predicate. -/
theorem predication_uniform :
    (∀ (w w' : Word) (tag : Tag), w.unguarded = w'.unguarded →
      (decode w tag).map Instruction.operation = (decode w' tag).map Instruction.operation) ∧
    (∀ (w : Word) (tag : Tag) (m : Machine) (origin : Nat),
      (∀ cause, decode w tag = .error cause →
        execute origin w tag m = (.error ⟨origin, w, tag, cause⟩, m.halt)) ∧
      ∀ i, decode w tag = .ok i →
        i.predicate = .ofCode (w.toNat / 512) ∧
        (i.predicate.holds m.predicates = true →
          ∃ effect effect' m', execute origin w tag m = (.ok effect, m') ∧
            execute origin w.unguarded tag m = (.ok effect', m') ∧
              effect.signals = effect'.signals) ∧
        (i.predicate.holds m.predicates = false →
          ∃ effect, execute origin w tag m = (.ok effect, m) ∧
            effect.signals = (false, false, none))) ∧
    ∀ s : Simulator, s.Reachable → Predicate.p0.holds s.machine.predicates = false ∧
      ∀ request effect, (s.respond request).1 = .executed effect →
        (effect.instruction.predicate = .p0 →
          (s.respond request).2.machine = s.machine.advance ∧
            effect.signals = (false, false, none)) ∧
        (effect.instruction.predicate = .notP0 →
          ∃ effect', effect.signals = effect'.signals ∧
            execute s.machine.pc.val (s.machine.word s.machine.pc).unguarded
              (s.machine.tag s.machine.pc) s.machine.advance =
                (.ok effect', (s.respond request).2.machine)) := by
  refine ⟨fun w w' tag h => operation_decode_congr h tag, fun w tag m origin => ⟨?_, ?_⟩, ?_⟩
  · exact fun cause hdecode => execute_of_undecodable hdecode origin
  · intro i hdecode
    refine ⟨(decode_eq_ok_iff.mp hdecode).2.2.1.symm, fun hholds => ?_, fun hholds => ?_⟩
    · obtain ⟨effect, effect', m', hguarded, hunguarded, -, -, houtcome⟩ :=
        execute_of_holds hdecode hholds origin
      exact ⟨effect, effect', m', hguarded, hunguarded, Effect.signals_congr houtcome⟩
    · exact ⟨⟨i, .skipped⟩, execute_of_not_holds hdecode hholds origin, rfl⟩
  · intro s hreachable
    refine ⟨hreachable.p0, fun request effect hexecuted => ⟨?_, ?_⟩⟩
    · exact hreachable.executed_p0 hexecuted
    · exact hreachable.executed_notP0 hexecuted

/-- A simulator that adds one to `R0` under `P0` and then under `!P0`, after so many steps. -/
def guarding (steps : Nat) : Simulator :=
  initial.afterAll
    (.loadParts [0x2201, 0x2401] [.immediateAlu, .immediateAlu] :: List.replicate steps .step)

/-- The first instruction does nothing and the second one adds, though their words differ in the
three bits alone.  A word that would set `P0` halts the machine even under `P0`. -/
theorem predication_uniform_guarding :
    (Word.unguarded 0x2201 = Word.unguarded 0x2401 ∧
      (decode 0x2201 .immediateAlu).map Instruction.operation =
        (decode 0x2401 .immediateAlu).map Instruction.operation) ∧
      (Predicate.holds Machine.blank.predicates .p0 = false ∧
        execute 1 0xB200 .setPredicate .blank =
          (.error ⟨1, 0xB200, .setPredicate, .readOnlyPredicate⟩, Machine.blank.halt)) ∧
      (∃ effect effect' m', execute 1 0x2401 .immediateAlu .blank = (.ok effect, m') ∧
        execute 1 (Word.unguarded 0x2401) .immediateAlu .blank = (.ok effect', m') ∧
          effect.signals = effect'.signals) ∧
      ((guarding 0).Reachable ∧
        ((guarding 0).respond .step).2.machine = (guarding 0).machine.advance) ∧
      ((guarding 1).Reachable ∧ ∃ effect',
        execute 1 (Word.unguarded 0x2401) .immediateAlu (guarding 1).machine.advance =
          (.ok effect', ((guarding 1).respond .step).2.machine)) := by
  obtain ⟨hcongr, hexecute, hreachable⟩ := predication_uniform
  have hsame : Word.unguarded 0x2201 = Word.unguarded 0x2401 := by decide
  have hadd : decode 0x2401 .immediateAlu = .ok ⟨.notP0, .alu .add 0 0 (.immediate 1)⟩ := rfl
  obtain ⟨hfault, -⟩ := hexecute 0xB200 .setPredicate .blank 1
  obtain ⟨-, hruns⟩ := hexecute 0x2401 .immediateAlu .blank 1
  obtain ⟨-, hruns, -⟩ := hruns _ hadd
  have hfirst : ((guarding 0).respond .step).1 =
      .executed ⟨⟨.p0, .alu .add 0 0 (.immediate 1)⟩, .skipped⟩ := by decide +kernel
  have hsecond : ((guarding 1).respond .step).1 =
      .executed ⟨⟨.notP0, .alu .add 0 0 (.immediate 1)⟩, .computed 0 1⟩ := by decide +kernel
  obtain ⟨-, hguarded⟩ := hreachable (guarding 0) ⟨_, rfl⟩
  obtain ⟨-, hguarded'⟩ := hreachable (guarding 1) ⟨_, rfl⟩
  obtain ⟨hmachine, -⟩ := (hguarded .step _ hfirst).1 rfl
  obtain ⟨effect', -, hunguarded⟩ := (hguarded' .step _ hsecond).2 rfl
  have hfetched : (guarding 1).machine.pc.val = 1 ∧
      (guarding 1).machine.word (guarding 1).machine.pc = 0x2401 ∧
        (guarding 1).machine.tag (guarding 1).machine.pc = .immediateAlu := by decide +kernel
  rw [hfetched.1, hfetched.2.1, hfetched.2.2] at hunguarded
  exact ⟨⟨hsame, hcongr _ _ _ hsame⟩, ⟨rfl, hfault _ rfl⟩, hruns rfl, ⟨⟨_, rfl⟩, hmachine⟩,
    ⟨_, rfl⟩, effect', hunguarded⟩

end Simulator
end PredicatedCpu

/-
# Refusals and faults

A request that cannot be met is refused as a whole.  Some requests begin before they know how
they end: changing the interval gives the schedule up first, a tick moves the next step on before
it executes this one, a step fetches before it decodes.  None of this is ever seen, because the
parts of a simulator fit together: what was given up can be taken up again, and what was moved on
is executed.

A fault is no refusal.  It leaves a trace, and the trace is always the same: the machine has moved
on by one address and is halted.

* `Response.isRefusal`: the answers that refuse;
* `Coherent.respond_of_refusal`: after a refusal the simulator is what it was;
* `Coherent.tick_answers`: a tick does not refuse;
* `Coherent.respond_of_faulted`: what a fault leaves;
* `refusals_and_faults_frame`: all of this, for every simulator that requests lead to.
-/
import PredicatedCpu.Proofs.Simulator.Status

namespace PredicatedCpu

/-- Whether an answer **refuses** the request: it cannot be met in this status, or what was to be
loaded makes no program. -/
def Response.isRefusal : Response → Bool
  | .refused _ | .notLoadable _ | .notAssembled _ => true
  | .done | .executed _ | .notDue | .drained _ | .faulted _ => false

theorem Response.not_isRefusal_of_isExecution {response : Response}
    (h : response.isExecution = true) : ¬ response.isRefusal = true := by
  cases response with
  | executed effect => nofun
  | faulted fault => nofun
  | _ => cases h

namespace Simulator

/-! ## 1. Faults -/

/-- **What a fault leaves**: a machine that has moved on by one address and is halted, and no
schedule. -/
theorem advance_of_faulted {s : Simulator} {fault : Fault} (h : s.advance.1 = .faulted fault) :
    s.advance.2.machine = s.machine.advance.halt ∧ s.advance.2.schedule? = none := by
  refine ⟨?_, schedule?_of_faulted_advance h⟩
  rw [machine_advance]
  unfold advance at h
  rcases hstep : s.machine.step with ⟨fault' | effect, m⟩
  · exact (Machine.step_eq_error_iff.mp hstep).2.2.2.2
  · rw [hstep] at h
    cases h

theorem step_of_faulted {s : Simulator} {fault : Fault} (h : s.step.1 = .faulted fault) :
    s.step.2.machine = s.machine.advance.halt ∧ s.step.2.schedule? = none := by
  have hready : s.stepRefusal? = none := by
    rw [← isExecution_step_iff, h]
    rfl
  rw [step_of_ready hready] at h ⊢
  exact advance_of_faulted h

namespace Coherent

/-! ## 2. Ticks -/

/-- A tick **does not refuse**: nothing is due, or the step that is due is executed, or it
faults. -/
theorem tick_answers {s : Simulator} (h : s.Coherent) (now : Time) :
    (s.tick now).1 = .notDue ∨ (s.tick now).1.isExecution = true := by
  rcases h.tick_cases now with hstill | ⟨schedule, -, htick⟩
  · rw [hstill]
    exact .inl rfl
  · rw [htick]
    exact .inr (isExecution_advance _)

theorem tick_of_faulted {s : Simulator} (h : s.Coherent) {now : Time} {fault : Fault}
    (hfaulted : (s.tick now).1 = .faulted fault) :
    (s.tick now).2.machine = s.machine.advance.halt ∧ (s.tick now).2.schedule? = none := by
  rcases h.tick_cases now with hstill | ⟨schedule, -, htick⟩
  · rw [hstill] at hfaulted
    cases hfaulted
  · rw [htick] at hfaulted ⊢
    exact advance_of_faulted hfaulted

/-! ## 3. Requests -/

/-- **A refused request changes nothing.**  Only a step, a tick and the change of an interval
begin before they know whether they are refused, and coherence is what keeps them from it. -/
theorem respond_of_refusal {s : Simulator} (h : s.Coherent) {request : Request}
    (hrefusal : (s.respond request).1.isRefusal = true) : (s.respond request).2 = s := by
  cases request with
  | loadSource source =>
    simp only [Simulator.respond, loadSource] at hrefusal ⊢
    split at hrefusal
    · cases hrefusal
    · rfl
  | loadParts words tags =>
    simp only [Simulator.respond, loadParts] at hrefusal ⊢
    split at hrefusal
    · cases hrefusal
    · rfl
  | step =>
    cases hready : s.stepRefusal? with
    | some refusal => rw [Simulator.respond, step_of_refusal hready]
    | none =>
      have hexecution : s.step.1.isExecution = true := s.isExecution_step_iff.mpr hready
      exact absurd hrefusal (Response.not_isRefusal_of_isExecution hexecution)
  | run milliseconds now =>
    simp only [Simulator.respond, Simulator.run] at hrefusal ⊢
    split at hrefusal
    · rfl
    · cases hrefusal
  | setInterval milliseconds now =>
    rw [Simulator.respond, h.setInterval_eq_done] at hrefusal
    cases hrefusal
  | tick now =>
    rcases h.tick_answers now with hnotDue | hexecution
    · rw [Simulator.respond, hnotDue] at hrefusal
      cases hrefusal
    · exact absurd hrefusal (Response.not_isRefusal_of_isExecution hexecution)
  | restart =>
    simp only [Simulator.respond, restart] at hrefusal ⊢
    split at hrefusal
    · rfl
    · cases hrefusal
  | provideInput text =>
    simp only [Simulator.respond, Simulator.provideInput] at hrefusal ⊢
    split at hrefusal
    · rfl
    · cases hrefusal
  | stop | reset | drain => cases hrefusal

/-- Only a step or a tick faults, and both leave the same. -/
theorem respond_of_faulted {s : Simulator} (h : s.Coherent) {request : Request} {fault : Fault}
    (hfaulted : (s.respond request).1 = .faulted fault) :
    (s.respond request).2.machine = s.machine.advance.halt ∧
      (s.respond request).2.schedule? = none := by
  have hexecution : (s.respond request).1.isExecution = true := by
    rw [hfaulted]
    rfl
  rcases request_of_isExecution hexecution with rfl | ⟨now, rfl⟩
  · exact step_of_faulted hfaulted
  · exact h.tick_of_faulted hfaulted

end Coherent

/-- **Refusals change nothing, and faults next to nothing.**  Whatever was asked of a simulator
before: a request that is refused leaves all of it as it was; a tick is never refused, so that
what it fails with is a fault; and a fault moves the program counter on and halts the machine,
leaves everything else in the machine alone, and ends the run. -/
theorem refusals_and_faults_frame {s : Simulator} (h : s.Reachable) :
    (∀ request, (s.respond request).1.isRefusal = true → (s.respond request).2 = s) ∧
    (∀ now, (s.tick now).1 = .notDue ∨ (∃ effect, (s.tick now).1 = .executed effect) ∨
      ∃ fault, (s.tick now).1 = .faulted fault) ∧
    ∀ request fault, (s.respond request).1 = .faulted fault →
      (s.respond request).2.machine = { s.machine with pc := s.machine.pc + 1, halted := true } ∧
        (s.respond request).2.schedule? = none := by
  refine ⟨fun request => h.coherent.respond_of_refusal, fun now => ?_,
    fun request fault => h.coherent.respond_of_faulted⟩
  refine (h.coherent.tick_answers now).imp_right fun hexecution => ?_
  cases hanswer : (s.tick now).1 with
  | executed effect => exact .inl ⟨effect, rfl⟩
  | faulted fault => exact .inr ⟨fault, rfl⟩
  | _ =>
    rw [hanswer] at hexecution
    cases hexecution

/-- A simulator that runs a program without any instruction. -/
def running : Simulator :=
  initial.afterAll [.loadParts [0xF000] [.memory], .run 2 40]

/-- A second run is refused; the first tick faults at once. -/
theorem refusals_and_faults_frame_running :
    running.Reachable ∧
      ((running.respond (.run 5 60)).1 = .refused .alreadyRunning ∧
        (running.respond (.run 5 60)).2 = running) ∧
      (running.respond (.tick 41)).1 =
          .faulted ⟨0, 0xF000, .memory, .mismatch .hlt .memory⟩ ∧
        (running.respond (.tick 41)).2.machine =
            { running.machine with pc := running.machine.pc + 1, halted := true } ∧
          (running.respond (.tick 41)).2.schedule? = none := by
  have hreachable : running.Reachable := ⟨_, rfl⟩
  have hrefused : (running.respond (.run 5 60)).1 = .refused .alreadyRunning := by decide +kernel
  have hfaulted : (running.respond (.tick 41)).1 =
      .faulted ⟨0, 0xF000, .memory, .mismatch .hlt .memory⟩ := by decide +kernel
  obtain ⟨hrefusal, -, hfault⟩ := refusals_and_faults_frame hreachable
  exact ⟨hreachable, ⟨hrefused, hrefusal _ (by rw [hrefused]; rfl)⟩, hfaulted,
    hfault _ _ hfaulted⟩

end Simulator
end PredicatedCpu

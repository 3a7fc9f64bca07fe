/-
# The life of a machine

A machine comes with a load and goes with the next one, or with a reset.  In between anything may
be asked of its simulator, a load that fails included: what matters is not whether a request asks
for another machine but whether it is answered with one.

* `Request.replaces`: an exchange in which the machine is replaced;
* `Simulator.Stays`: the machine stays the same one throughout a list of requests;
* `machine_of_replaced`: a machine that takes the place of another is a fresh one;
* `move_of_staying`, `driven_of_staying`: on such a list a request does no more than one that
  drives;
* `Coherent.staying_induction`, `machine_staying_induction`: what each of them keeps is kept by all
  of them;
* `look_afterAll_of_isFixed`: a part that no instruction can name stays for life;
* `executions`: how many instructions are executed, which the simulator counts as well.
-/
import PredicatedCpu.Proofs.Machine.Frame
import PredicatedCpu.Proofs.Simulator.Replay

namespace PredicatedCpu

/-- Whether a request that was answered like this **replaced** the machine, by a loaded one or by an
empty one. -/
def Request.replaces : Request → Response → Bool
  | .loadSource _, .done | .loadParts _ _, .done | .restart, .done | .reset, _ => true
  | _, _ => false

/-- What drives the machine does not replace it. -/
theorem Request.replaces_of_isDriving {request : Request} (h : request.isDriving = true)
    (response : Response) : request.replaces response = false := by
  cases request with
  | step | run _ _ | setInterval _ _ | tick _ | stop | provideInput _ | drain => rfl
  | loadSource _ | loadParts _ _ | reset | restart => cases h

namespace Simulator

/-! ## 1. Exchanges -/

/-- The requests, each with its answer. -/
def exchanges (s : Simulator) (requests : List Request) : List (Request × Response) :=
  requests.zip (s.responses requests)

@[simp] theorem exchanges_nil (s : Simulator) : s.exchanges [] = [] := rfl

@[simp] theorem exchanges_cons (s : Simulator) (request : Request) (rest : List Request) :
    s.exchanges (request :: rest) =
      (request, (s.respond request).1) :: (s.respond request).2.exchanges rest := rfl

/-- Exchanges are counted one request after the other. -/
theorem countP_exchanges_cons (counts : Request × Response → Bool) (s : Simulator)
    (request : Request) (rest : List Request) :
    (s.exchanges (request :: rest)).countP counts =
      (counts (request, (s.respond request).1)).toNat +
        ((s.respond request).2.exchanges rest).countP counts := by
  rw [exchanges_cons, List.countP_cons, Nat.add_comm]
  cases counts (request, (s.respond request).1) <;> rfl

/-- Whether **the machine stays**: none of the requests replaces it. -/
def Stays (s : Simulator) (requests : List Request) : Prop :=
  ∀ exchange ∈ s.exchanges requests, exchange.1.replaces exchange.2 = false

instance (s : Simulator) (requests : List Request) : Decidable (s.Stays requests) :=
  inferInstanceAs (Decidable (∀ exchange ∈ s.exchanges requests, _))

theorem stays_cons {s : Simulator} {request : Request} {rest : List Request} :
    s.Stays (request :: rest) ↔
      request.replaces (s.respond request).1 = false ∧ (s.respond request).2.Stays rest := by
  simp only [Stays, exchanges_cons, List.forall_mem_cons]

/-! ## 2. One request -/

/-- A request that replaces nothing drives the machine, or it fails and changes nothing. -/
theorem driving_or_failed {s : Simulator} {request : Request}
    (h : request.replaces (s.respond request).1 = false) :
    request.isDriving = true ∨
      (s.respond request).1.isExecution = false ∧
        request.occurrence? (s.respond request).1 = none ∧ (s.respond request).2 = s := by
  cases request with
  | loadSource source =>
    right
    simp only [respond, loadSource] at h ⊢
    split at h
    · cases h
    · exact ⟨rfl, rfl, rfl⟩
  | loadParts words tags =>
    right
    simp only [respond, loadParts] at h ⊢
    split at h
    · cases h
    · exact ⟨rfl, rfl, rfl⟩
  | restart =>
    right
    simp only [respond, restart] at h ⊢
    split at h
    · exact ⟨rfl, rfl, rfl⟩
    · cases h
  | reset => cases h
  | step | run _ _ | setInterval _ _ | tick _ | stop | provideInput _ | drain => exact .inl rfl

theorem move_of_staying {s : Simulator} {request : Request}
    (h : request.replaces (s.respond request).1 = false) :
    s.Move (s.respond request).1 (s.respond request).2.machine := by
  rcases driving_or_failed h with hdriving | ⟨hexecution, -, hsame⟩
  · exact s.move_respond hdriving
  · rw [hsame]
    obtain ⟨unexecuted, faultless⟩ := Response.isExecution_eq_false_iff.mp hexecution
    exact .still unexecuted faultless

/-- **No request writes a fixed part** of a machine that stays. -/
theorem Move.look_of_isFixed {s : Simulator} {response : Response} {m : Machine}
    (h : s.Move response m) {part : Part} (hfixed : part.IsFixed) :
    m.look part = s.machine.look part := by
  have hstep := Machine.look_step_of_isFixed hfixed s.machine
  cases h with
  | still => rfl
  | executed _ step | faulted _ step => rwa [step] at hstep
  | resumed value _ => exact Machine.look_resume_of_isFixed hfixed _ _ _

/-- **A machine that is replaced** leaves nothing behind: the new one is empty, or holds a program
and is fresh. -/
theorem machine_of_replaced {s : Simulator} {request : Request}
    (h : request.replaces (s.respond request).1 = true) :
    (s.respond request).2.machine = .blank ∨
      ∃ p, (s.respond request).2.machine = .ofProgram p := by
  cases request with
  | loadSource source =>
    simp only [respond, loadSource] at h ⊢
    split at h
    · exact .inr ⟨_, rfl⟩
    · cases h
  | loadParts words tags =>
    simp only [respond, loadParts] at h ⊢
    split at h
    · exact .inr ⟨_, rfl⟩
    · cases h
  | restart =>
    simp only [respond, restart] at h ⊢
    split at h
    · cases h
    · exact .inr ⟨_, rfl⟩
  | reset => exact .inl rfl
  | step | run _ _ | setInterval _ _ | tick _ | stop | provideInput _ | drain => cases h

theorem Coherent.driven_of_staying {s : Simulator} (h : s.Coherent) {request : Request}
    (hstays : request.replaces (s.respond request).1 = false) :
    Driven s (request.occurrence? (s.respond request).1) (s.respond request).2 := by
  rcases driving_or_failed hstays with hdriving | ⟨-, hnothing, hsame⟩
  · exact driven_respond h hdriving
  · rw [hnothing, hsame]
    exact .still rfl rfl rfl

/-- An instruction that was executed is a step of the machine. -/
theorem step_of_executed {s : Simulator} {request : Request} {effect : Effect}
    (h : (s.respond request).1 = .executed effect) :
    s.machine.step = (.ok effect, (s.respond request).2.machine) := by
  have hdriving : request.isDriving = true := by
    rcases request_of_isExecution (by rw [h]; rfl) with rfl | ⟨now, rfl⟩ <;> rfl
  have hmove := s.move_respond hdriving
  rw [h] at hmove
  exact hmove.step_of_executed

/-! ## 3. Many requests -/

theorem Coherent.afterAll {s : Simulator} (h : s.Coherent) (requests : List Request) :
    (s.afterAll requests).Coherent :=
  afterAll_induction h (fun _ request hs => hs.respond request) requests

/-- **What every request keeps that does not replace the machine** is kept as long as it stays. -/
theorem Coherent.staying_induction {motive : Simulator → Prop} {s : Simulator} (h : s.Coherent)
    (start : motive s)
    (keeps : ∀ (s : Simulator) (request : Request), s.Coherent →
      request.replaces (s.respond request).1 = false → motive s → motive (s.respond request).2)
    {requests : List Request} (hstays : s.Stays requests) : motive (s.afterAll requests) := by
  induction requests generalizing s with
  | nil => exact start
  | cons request rest ih =>
    obtain ⟨hfirst, hrest⟩ := stays_cons.mp hstays
    exact ih (h.respond request) (keeps s request h hfirst start) hrest

/-- **What every move keeps** is kept as long as the machine stays. -/
theorem machine_staying_induction {motive : Machine → Prop} {s : Simulator}
    (start : motive s.machine)
    (keeps : ∀ (s : Simulator) (response : Response) (m : Machine), s.Move response m →
      motive s.machine → motive m)
    {requests : List Request} (hstays : s.Stays requests) :
    motive (s.afterAll requests).machine := by
  induction requests generalizing s with
  | nil => exact start
  | cons request rest ih =>
    obtain ⟨hfirst, hrest⟩ := stays_cons.mp hstays
    exact ih (keeps s _ _ (move_of_staying hfirst) start) hrest

/-- **A fixed part stays** for the life of a machine. -/
theorem look_afterAll_of_isFixed {s : Simulator} {requests : List Request}
    (hstays : s.Stays requests) {part : Part} (hfixed : part.IsFixed) :
    (s.afterAll requests).machine.look part = s.machine.look part :=
  machine_staying_induction (motive := fun m => m.look part = s.machine.look part) rfl
    (fun _ _ _ hmove hsame => (hmove.look_of_isFixed hfixed).trans hsame) hstays

/-! ## 4. Counting -/

/-- How many instructions are **executed** on requests.  A word that is none counts as well: the
machine has been stepped over it. -/
def executions (s : Simulator) (requests : List Request) : Nat :=
  (s.exchanges requests).countP fun exchange => exchange.2.isExecution

theorem executions_cons (s : Simulator) (request : Request) (rest : List Request) :
    s.executions (request :: rest) =
      (s.respond request).1.isExecution.toNat + (s.respond request).2.executions rest :=
  countP_exchanges_cons _ s request rest

/-- A simulator counts what it executes. -/
theorem Coherent.steps_respond {s : Simulator} (h : s.Coherent) {request : Request}
    (hstays : request.replaces (s.respond request).1 = false) :
    (s.respond request).2.steps = s.steps + (s.respond request).1.isExecution.toNat := by
  have hdriven := h.driven_of_staying hstays
  cases hexecution : (s.respond request).1.isExecution with
  | true =>
    rw [Request.occurrence?_of_isExecution hexecution] at hdriven
    cases hdriven with
    | executed _ _ _ steps => exact steps
  | false =>
    cases hoccurrence : request.occurrence? (s.respond request).1 with
    | none =>
      rw [hoccurrence] at hdriven
      cases hdriven with
      | still _ _ steps => exact steps
    | some occurrence =>
      rw [hoccurrence] at hdriven
      cases hdriven with
      | executed =>
        rw [Request.occurrence?_eq_executed_iff.mp hoccurrence] at hexecution
        cases hexecution
      | accepted _ _ _ steps => exact steps

/-- The instructions that a simulator has counted are those that were executed. -/
theorem Coherent.steps_of_stays {s : Simulator} (h : s.Coherent) {requests : List Request}
    (hstays : s.Stays requests) :
    (s.afterAll requests).steps = s.steps + s.executions requests := by
  induction requests generalizing s with
  | nil => rfl
  | cons request rest ih =>
    obtain ⟨hfirst, hrest⟩ := stays_cons.mp hstays
    rw [afterAll_cons, ih (h.respond request) hrest, h.steps_respond hfirst, executions_cons,
      Nat.add_assoc]

end Simulator
end PredicatedCpu

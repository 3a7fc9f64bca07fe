/-
# The status decides

What a simulator accepts hangs on four things that requests change separately: whether a program
is loaded, whether the machine is halted, whether it waits for input, and whether steps are
scheduled.  The status is read off all four of them, in one order; a request looks at some of
them, in an order of its own.  That the two never disagree is no matter of course: it holds
because no request leaves the four at odds with each other.

* `Reachable`: the simulators that requests lead to;
* `Coherent`: the four things fit together, which every request keeps;
* `Coherent.tick_eq_advance`: so a step that is due is executed, whatever else is going on;
* `status_governs`: the status alone decides what is accepted, and names the refusal.
-/
import PredicatedCpu.Proofs.Machine.Stepping
import PredicatedCpu.Proofs.Simulator.Transition

namespace PredicatedCpu

/-! ## 1. What a status accepts -/

namespace Status

/-- Why nothing can be executed in a status, if there is a reason. -/
def stepRefusal? : Status → Option Refusal
  | idle => some .notLoaded
  | halted => some .halted
  | waitingForInput => some .waitingForInput
  | ready | running | paused => none

/-- Why no run can begin in a status, if there is a reason. -/
def runRefusal? : Status → Option Refusal
  | running => some .alreadyRunning
  | status => status.stepRefusal?

theorem stepRefusal?_eq_none_iff {status : Status} :
    status.stepRefusal? = none ↔ status = .ready ∨ status = .running ∨ status = .paused := by
  cases status <;> simp [stepRefusal?]

theorem runRefusal?_eq_none_iff {status : Status} :
    status.runRefusal? = none ↔ status = .ready ∨ status = .paused := by
  cases status <;> simp [runRefusal?, stepRefusal?]

end Status

/-- Whether an answer tells that the machine was **stepped**.  A step that faults is one as well:
the machine has moved, and the simulator has counted it. -/
def Response.isExecution : Response → Bool
  | .executed _ | .faulted _ => true
  | _ => false

theorem Response.isExecution_eq_false_iff {response : Response} :
    response.isExecution = false ↔
      (∀ effect, response ≠ .executed effect) ∧ ∀ fault, response ≠ .faulted fault := by
  cases response <;> simp [isExecution]

/-- Whether an answer **brings news**: of an instruction, of a fault, or what the journal says. -/
def Response.bringsNews : Response → Bool
  | .executed _ | .faulted _ | .drained _ => true
  | .done | .notDue | .refused _ | .notLoadable _ | .notAssembled _ => false

theorem Response.bringsNews_of_isExecution {response : Response}
    (h : response.isExecution = true) : response.bringsNews = true := by
  cases response with
  | executed effect => rfl
  | faulted fault => rfl
  | _ => cases h

namespace Simulator

/-! ## 2. Coherence -/

/-- A simulator that requests lead to. -/
def Reachable (s : Simulator) : Prop := ∃ requests, initial.afterAll requests = s

/-- Whether what is known of a simulator's program, machine and schedule fits together. -/
structure Coherent (s : Simulator) : Prop where
  /-- Steps are only scheduled for a machine that can execute them. -/
  scheduled : ∀ schedule ∈ s.schedule?,
    s.loaded = true ∧ s.machine.halted = false ∧ s.machine.waiting = false
  /-- Between two steps there is at least a millisecond. -/
  interval : ∀ schedule ∈ s.schedule?, 1000000 ≤ schedule.interval
  /-- A halted machine waits for nothing. -/
  exclusive : ¬ (s.machine.halted = true ∧ s.machine.waiting = true)
  /-- Only a loaded program can halt the machine or wait for input. -/
  loaded : s.machine.halted = true ∨ s.machine.waiting = true → s.loaded = true

theorem stepRefusal?_eq_none_iff {s : Simulator} :
    s.stepRefusal? = none ↔
      s.loaded = true ∧ s.machine.halted = false ∧ s.machine.waiting = false := by
  unfold stepRefusal?
  cases s.loaded <;> cases s.machine.halted <;> cases s.machine.waiting <;> simp

/-- A run can begin where a step can be executed and none is scheduled. -/
theorem runRefusal?_eq_none_iff {s : Simulator} :
    s.runRefusal? = none ↔ s.schedule? = none ∧ s.stepRefusal? = none := by
  unfold runRefusal? stepRefusal?
  cases s.loaded <;> cases s.schedule? <;> simp

theorem step_of_ready {s : Simulator} (h : s.stepRefusal? = none) : s.step = s.advance := by
  rw [step, h]

theorem step_of_refusal {s : Simulator} {refusal : Refusal} (h : s.stepRefusal? = some refusal) :
    s.step = (.refused refusal, s) := by
  rw [step, h]

/-- What goes by a schedule finds nothing to do without one. -/
theorem tick_of_unscheduled {s : Simulator} (h : s.schedule? = none) (now : Time) :
    s.tick now = (.notDue, s) := by
  rw [tick, h]

theorem tick_of_early {s : Simulator} {schedule : Schedule} (h : s.schedule? = some schedule)
    {now : Time} (hearly : now < schedule.due) : s.tick now = (.notDue, s) := by
  rw [tick, h]
  exact if_pos hearly

theorem stop_of_unscheduled {s : Simulator} (h : s.schedule? = none) : s.stop = s := by
  rw [stop, h]

theorem setInterval_of_unscheduled {s : Simulator} (h : s.schedule? = none) (milliseconds : Nat)
    (now : Time) : s.setInterval milliseconds now = (.done, s) := by
  rw [setInterval, h]

theorem isExecution_advance (s : Simulator) : s.advance.1.isExecution = true := by
  unfold advance
  rcases s.machine.step with ⟨fault | effect, m⟩ <;> rfl

theorem step_ne_drained (s : Simulator) (events : List Event) : s.step.1 ≠ .drained events := by
  intro h
  cases hready : s.stepRefusal? with
  | some refusal =>
    rw [step_of_refusal hready] at h
    cases h
  | none =>
    have hexecution := s.isExecution_advance
    rw [← step_of_ready hready, h] at hexecution
    cases hexecution

/-- **Only a step, a tick and a draining bring news.**  All other requests are met, or refused,
without the machine, and leave the entries where they are. -/
theorem request_of_bringsNews {s : Simulator} {request : Request}
    (h : (s.respond request).1.bringsNews = true) :
    request = .step ∨ (∃ now, request = .tick now) ∨ request = .drain := by
  cases request with
  | step => exact .inl rfl
  | tick now => exact .inr (.inl ⟨now, rfl⟩)
  | drain => exact .inr (.inr rfl)
  | loadSource source =>
    simp only [respond, loadSource] at h
    split at h <;> cases h
  | loadParts words tags =>
    simp only [respond, loadParts] at h
    split at h <;> cases h
  | run milliseconds now =>
    simp only [respond, run] at h
    split at h <;> cases h
  | setInterval milliseconds now =>
    simp only [respond, setInterval, run] at h
    split at h
    · cases h
    · split at h <;> cases h
  | restart =>
    simp only [respond, restart] at h
    split at h <;> cases h
  | provideInput text =>
    simp only [respond, provideInput] at h
    split at h <;> cases h
  | stop | reset => cases h

/-- **Only a step or a tick executes.** -/
theorem request_of_isExecution {s : Simulator} {request : Request}
    (h : (s.respond request).1.isExecution = true) :
    request = .step ∨ ∃ now, request = .tick now := by
  rcases request_of_bringsNews (Response.bringsNews_of_isExecution h) with hstep | htick | rfl
  · exact .inl hstep
  · exact .inr htick
  · cases h

/-- **Only draining** is answered with entries: a step that is no execution is refused, and a tick
is no more than a step. -/
theorem request_of_drained {s : Simulator} {request : Request} {events : List Event}
    (h : (s.respond request).1 = .drained events) : request = .drain := by
  have hnews : (s.respond request).1.bringsNews = true := by
    rw [h]
    rfl
  rcases request_of_bringsNews hnews with rfl | ⟨now, rfl⟩ | hdrain
  · exact absurd h (s.step_ne_drained events)
  · simp only [respond, tick] at h
    split at h
    · cases h
    · rename_i schedule _
      split at h
      · cases h
      · have hstep := step_ne_drained
          { s with schedule? := some ⟨schedule.interval, now + schedule.interval⟩ } events
        split at h
        · cases h
        · rename_i response t _ hresponse
          rw [hresponse] at hstep
          exact absurd h hstep
  · exact hdrain

/-- A machine that was stepped has no schedule if it cannot go on. -/
theorem schedule?_of_faulted_advance {s : Simulator} {fault : Fault}
    (h : s.advance.1 = .faulted fault) : s.advance.2.schedule? = none := by
  rw [schedule?_advance]
  unfold advance at h
  rcases hstep : s.machine.step with ⟨fault' | effect, m⟩
  · obtain ⟨-, -, -, -, rfl⟩ := Machine.step_eq_error_iff.mp hstep
    rfl
  · rw [hstep] at h
    cases h

/-- **A step that is due is executed**, if one can be executed at all, and the next one is due one
interval later. -/
theorem tick_of_ready {s : Simulator} (hready : s.stepRefusal? = none) {schedule : Schedule}
    (hschedule : s.schedule? = some schedule) {now : Time} (hdue : schedule.due ≤ now) :
    s.tick now =
      { s with schedule? := some ⟨schedule.interval, now + schedule.interval⟩ }.advance := by
  rw [tick, hschedule]
  simp only [if_neg (Int.not_lt.mpr hdue)]
  generalize ht : { s with schedule? := some ⟨schedule.interval, now + schedule.interval⟩ } = t
  have hstep : t.step = t.advance := by
    rw [← ht]
    exact step_of_ready hready
  rw [hstep]
  rcases hadvance : t.advance with ⟨response, s'⟩
  have hexecution : response.isExecution = true := by
    have := t.isExecution_advance
    rwa [hadvance] at this
  cases response with
  | executed effect => rfl
  | faulted fault =>
    have hnone := schedule?_of_faulted_advance (s := t) (by rw [hadvance])
    rw [hadvance] at hnone
    rw [← hnone]
  | _ => cases hexecution

namespace Coherent

/-- Coherence is about the machine, what is loaded and the schedule, and nothing else. -/
theorem congr {s t : Simulator} (h : s.Coherent) (hmachine : t.machine = s.machine)
    (hloaded : t.loaded = s.loaded) (hschedule : t.schedule? = s.schedule?) : t.Coherent := by
  constructor
  · rw [hmachine, hloaded, hschedule]
    exact h.scheduled
  · rw [hschedule]
    exact h.interval
  · rw [hmachine]
    exact h.exclusive
  · rw [hmachine, hloaded]
    exact h.loaded

/-- A schedule can always be given up. -/
theorem unscheduled {s : Simulator} (h : s.Coherent) : { s with schedule? := none }.Coherent :=
  ⟨nofun, nofun, h.exclusive, h.loaded⟩

/-- A machine that can be stepped can be scheduled. -/
theorem rescheduled {s : Simulator} (h : s.Coherent) (hready : s.stepRefusal? = none)
    (schedule : Schedule) (hinterval : 1000000 ≤ schedule.interval) :
    { s with schedule? := some schedule }.Coherent := by
  refine ⟨?_, ?_, h.exclusive, h.loaded⟩
  · intro _ _
    exact stepRefusal?_eq_none_iff.mp hready
  · intro schedule' hmem
    obtain rfl : schedule = schedule' := Option.some.inj hmem
    exact hinterval

/-- Steps are only scheduled where one can be executed. -/
theorem ready_of_schedule {s : Simulator} (h : s.Coherent) {schedule : Schedule}
    (hschedule : s.schedule? = some schedule) : s.stepRefusal? = none :=
  stepRefusal?_eq_none_iff.mpr (h.scheduled schedule hschedule)

/-- A simulator whose machine waits has no schedule. -/
theorem schedule?_of_waiting {s : Simulator} (h : s.Coherent)
    (hwaiting : s.machine.waiting = true) : s.schedule? = none := by
  cases hschedule : s.schedule? with
  | none => rfl
  | some schedule =>
    have hnot := (h.scheduled schedule hschedule).2.2
    rw [hwaiting] at hnot
    cases hnot

/-- So a schedule is always kept: no request leaves one behind that could not be. -/
theorem tick_eq_advance {s : Simulator} (h : s.Coherent) {schedule : Schedule}
    (hschedule : s.schedule? = some schedule) {now : Time} (hdue : schedule.due ≤ now) :
    s.tick now =
      { s with schedule? := some ⟨schedule.interval, now + schedule.interval⟩ }.advance :=
  tick_of_ready (h.ready_of_schedule hschedule) hschedule hdue

/-- A tick does nothing, or it executes the step that is due. -/
theorem tick_cases {s : Simulator} (h : s.Coherent) (now : Time) :
    s.tick now = (.notDue, s) ∨ ∃ schedule, s.schedule? = some schedule ∧
      s.tick now =
        { s with schedule? := some ⟨schedule.interval, now + schedule.interval⟩ }.advance := by
  cases hschedule : s.schedule? with
  | none =>
    rw [tick, hschedule]
    exact .inl rfl
  | some schedule =>
    by_cases hdue : schedule.due ≤ now
    · exact .inr ⟨schedule, rfl, h.tick_eq_advance hschedule hdue⟩
    · rw [tick, hschedule]
      exact .inl (if_pos (Int.not_le.mp hdue))

/-- **There is one way to execute.**  If anything is executed on a request, the machine was able to
go on, and it is advanced, under one schedule or another. -/
theorem respond_of_isExecution {s : Simulator} (h : s.Coherent) {request : Request}
    (hexecution : (s.respond request).1.isExecution = true) :
    s.stepRefusal? = none ∧
      ∃ schedule?, s.respond request = { s with schedule? := schedule? }.advance := by
  rcases request_of_isExecution hexecution with rfl | ⟨now, rfl⟩
  · cases hready : s.stepRefusal? with
    | some refusal =>
      rw [respond, step_of_refusal hready] at hexecution
      cases hexecution
    | none => exact ⟨rfl, s.schedule?, step_of_ready hready⟩
  · rcases h.tick_cases now with hstill | ⟨schedule, hschedule, htick⟩
    · rw [respond, hstill] at hexecution
      cases hexecution
    · exact ⟨h.ready_of_schedule hschedule, _, htick⟩

/-! ### Every request keeps it -/

theorem initial : Simulator.initial.Coherent :=
  ⟨nofun, nofun, by decide, by decide⟩

theorem load (p : Program) (s : Simulator) : (s.load p).Coherent :=
  ⟨nofun, nofun, nofun, fun _ => rfl⟩

theorem reset (s : Simulator) : s.reset.Coherent :=
  ⟨nofun, nofun, by simp [Simulator.reset, record, Machine.blank], by
    simp [Simulator.reset, record, Machine.blank, Machine.waiting]⟩

theorem advance {s : Simulator} (h : s.Coherent) (hready : s.stepRefusal? = none) :
    s.advance.2.Coherent := by
  obtain ⟨hloaded, hhalted, hwaiting⟩ := stepRefusal?_eq_none_iff.mp hready
  constructor
  · intro schedule hmem
    rw [schedule?_advance] at hmem
    split at hmem
    · cases hmem
    · rename_i hgoes
      rw [Bool.not_eq_true, Bool.or_eq_false_iff] at hgoes
      rw [machine_advance, loaded_advance]
      exact ⟨hloaded, hgoes⟩
  · intro schedule hmem
    rw [schedule?_advance] at hmem
    split at hmem
    · cases hmem
    · exact h.interval schedule hmem
  · rw [machine_advance]
    exact Machine.not_halted_and_waiting_step hhalted hwaiting
  · intro _
    rw [loaded_advance, hloaded]

theorem step {s : Simulator} (h : s.Coherent) : s.step.2.Coherent := by
  cases hready : s.stepRefusal? with
  | some refusal => rwa [step_of_refusal hready]
  | none =>
    rw [step_of_ready hready]
    exact h.advance hready

theorem run {s : Simulator} (h : s.Coherent) (milliseconds : Nat) (now : Time) :
    (s.run milliseconds now).2.Coherent := by
  unfold Simulator.run
  cases hrefusal : s.runRefusal? with
  | some refusal => exact h
  | none =>
    have hready : s.stepRefusal? = none := by
      unfold runRefusal? at hrefusal
      split at hrefusal
      · cases hrefusal
      · split at hrefusal
        · cases hrefusal
        · exact hrefusal
    have hinterval : 1000000 ≤ max milliseconds 1 * 1000000 := by omega
    exact (h.rescheduled hready (.starting milliseconds now) hinterval).congr rfl rfl rfl

theorem stop {s : Simulator} (h : s.Coherent) : s.stop.Coherent := by
  unfold Simulator.stop
  split
  · exact h
  · exact h.unscheduled.congr rfl rfl rfl

theorem setInterval {s : Simulator} (h : s.Coherent) (milliseconds : Nat) (now : Time) :
    (s.setInterval milliseconds now).2.Coherent := by
  unfold Simulator.setInterval
  split
  · exact h
  · exact h.stop.run milliseconds now

theorem tick {s : Simulator} (h : s.Coherent) (now : Time) : (s.tick now).2.Coherent := by
  rcases h.tick_cases now with hstill | ⟨schedule, hschedule, htick⟩
  · rwa [hstill]
  · have hready := h.ready_of_schedule hschedule
    rw [htick]
    exact (h.rescheduled hready ⟨schedule.interval, now + schedule.interval⟩
      (h.interval schedule hschedule)).advance hready

theorem provideInput {s : Simulator} (h : s.Coherent) (text : String) :
    (s.provideInput text).2.Coherent := by
  cases hpending : s.machine.pending with
  | none =>
    rw [Simulator.provideInput, hpending]
    exact h
  | some pending =>
    have hwaiting : s.machine.waiting = true := by
      rw [Machine.waiting, hpending]
      rfl
    have hschedule := h.schedule?_of_waiting hwaiting
    rw [provideInput_of_pending hpending]
    refine ⟨?_, ?_, ?_, ?_⟩
    · intro schedule hmem
      cases hschedule.symm.trans hmem
    · intro schedule hmem
      cases hschedule.symm.trans hmem
    · rintro ⟨-, hstill⟩
      cases hstill
    · intro _
      exact h.loaded (.inr hwaiting)

/-- **Every request keeps a simulator coherent.** -/
theorem respond {s : Simulator} (h : s.Coherent) (request : Request) :
    (s.respond request).2.Coherent := by
  cases request with
  | loadSource source =>
    rw [Simulator.respond, loadSource]
    split
    · exact .load _ s
    · exact h
  | loadParts words tags =>
    rw [Simulator.respond, loadParts]
    split
    · exact .load _ s
    · exact h
  | step => exact h.step
  | run milliseconds now => exact h.run milliseconds now
  | setInterval milliseconds now => exact h.setInterval milliseconds now
  | tick now => exact h.tick now
  | stop => exact h.stop
  | reset => exact .reset s
  | restart =>
    rw [Simulator.respond, restart]
    split
    · exact h
    · exact .load _ _
  | provideInput text => exact h.provideInput text
  | drain => exact h.congr rfl rfl rfl

end Coherent

/-- **Whatever was asked of it**, a simulator is coherent. -/
theorem Reachable.coherent {s : Simulator} (h : s.Reachable) : s.Coherent := by
  obtain ⟨requests, rfl⟩ := h
  exact afterAll_induction (motive := Coherent) .initial (fun _ request hs => hs.respond request)
    requests

/-! ## 3. What the status decides -/

/-- **What the status says** of a simulator. -/
def Described (s : Simulator) : Status → Prop
  | .idle => s.loaded = false
  | .halted => s.loaded = true ∧ s.machine.halted = true
  | .waitingForInput => s.loaded = true ∧ s.machine.halted = false ∧ s.machine.waiting = true
  | .running => s.stepRefusal? = none ∧ s.schedule?.isSome = true
  | .paused => s.stepRefusal? = none ∧ s.schedule?.isSome = false ∧ 0 < s.steps
  | .ready => s.stepRefusal? = none ∧ s.schedule?.isSome = false ∧ s.steps = 0

theorem described_status (s : Simulator) : s.Described s.status := by
  rcases hloaded : s.loaded with _ | _
  · simp [status, Described, hloaded]
  rcases hhalted : s.machine.halted with _ | _
  · rcases hwaiting : s.machine.waiting with _ | _
    · have hready : s.stepRefusal? = none :=
        stepRefusal?_eq_none_iff.mpr ⟨hloaded, hhalted, hwaiting⟩
      simp only [status, hloaded, hhalted, hwaiting]
      rcases hschedule : s.schedule?.isSome with _ | _
      · by_cases hsteps : 0 < s.steps
        · simp [Described, hready, hschedule, hsteps]
        · simp [Described, hready, hschedule, hsteps]
          omega
      · simp [Described, hready, hschedule]
    · simp [status, Described, hloaded, hhalted, hwaiting]
  · simp [status, Described, hloaded, hhalted]

/-- A step is refused for what the status says: it looks at the same things in the same order. -/
theorem stepRefusal?_eq_status (s : Simulator) : s.stepRefusal? = s.status.stepRefusal? := by
  have h := s.described_status
  cases hstatus : s.status <;> rw [hstatus] at h
  case idle => simp [stepRefusal?, Status.stepRefusal?, show s.loaded = false from h]
  case halted => simp [stepRefusal?, Status.stepRefusal?, h.1, h.2]
  case waitingForInput => simp [stepRefusal?, Status.stepRefusal?, h.1, h.2.1, h.2.2]
  case ready | running | paused => exact h.1

namespace Coherent

/-- Steps are scheduled exactly while the status is "running". -/
theorem isSome_schedule?_iff {s : Simulator} (h : s.Coherent) :
    s.schedule?.isSome = true ↔ s.status = .running := by
  have hsays := s.described_status
  constructor
  · intro hsome
    obtain ⟨schedule, hschedule⟩ := Option.isSome_iff_exists.mp hsome
    have hready := h.ready_of_schedule hschedule
    rw [stepRefusal?_eq_status, Status.stepRefusal?_eq_none_iff] at hready
    rcases hready with hstatus | hstatus | hstatus <;> rw [hstatus] at hsays
    · simp [Described, hsome] at hsays
    · exact hstatus
    · simp [Described, hsome] at hsays
  · intro hstatus
    rw [hstatus] at hsays
    exact hsays.2

/-- Input is pending exactly while the status is "waiting for input". -/
theorem waiting_iff {s : Simulator} (h : s.Coherent) :
    s.machine.waiting = true ↔ s.status = .waitingForInput := by
  constructor
  · intro hwaiting
    have hloaded : s.loaded = true := h.loaded (.inr hwaiting)
    have hhalted : ¬ s.machine.halted = true := fun hhalted => h.exclusive ⟨hhalted, hwaiting⟩
    simp [status, hloaded, hhalted, hwaiting]
  · intro hstatus
    have hsays := s.described_status
    rw [hstatus] at hsays
    exact hsays.2.2

/-- **A run is refused for what the status says**, although it asks for a schedule before it asks
whether the machine can go on. -/
theorem runRefusal?_eq_status {s : Simulator} (h : s.Coherent) :
    s.runRefusal? = s.status.runRefusal? := by
  have hsays := s.described_status
  by_cases hrunning : s.status = .running
  · rw [hrunning] at hsays ⊢
    have hloaded : s.loaded = true := (stepRefusal?_eq_none_iff.mp hsays.1).1
    simp [runRefusal?, Status.runRefusal?, hloaded, hsays.2]
  · have hschedule : ¬ s.schedule?.isSome = true := mt h.isSome_schedule?_iff.mp hrunning
    have hstep : s.runRefusal? = s.stepRefusal? := by
      unfold runRefusal? stepRefusal?
      simp only [hschedule]
      cases s.loaded <;> rfl
    rw [hstep, stepRefusal?_eq_status]
    cases hstatus : s.status with
    | running => exact absurd hstatus hrunning
    | _ => rfl

end Coherent

/-- Whether **the status alone decides** what a simulator accepts, and with which words it
refuses. -/
structure Governed (s : Simulator) : Prop where
  /-- A step is executed in three statuses. -/
  step : s.step.1.isExecution = true ↔
    s.status = .ready ∨ s.status = .running ∨ s.status = .paused
  /-- It is then the machine's own step, and one more instruction is counted. -/
  executed : s.step.1.isExecution = true →
    s.step.2.machine = s.machine.step.2 ∧ s.step.2.steps = s.steps + 1
  /-- In the others the status is the reason. -/
  stepRefused : ∀ refusal,
    s.step.1 = .refused refusal ↔ s.status.stepRefusal? = some refusal
  /-- A run begins in two statuses. -/
  run : ∀ milliseconds now,
    (s.run milliseconds now).1 = .done ↔ s.status = .ready ∨ s.status = .paused
  /-- In the others the status is the reason. -/
  runRefused : ∀ milliseconds now refusal,
    (s.run milliseconds now).1 = .refused refusal ↔ s.status.runRefusal? = some refusal
  /-- Input is taken in one status. -/
  provideInput : ∀ text, (s.provideInput text).1 = .done ↔ s.status = .waitingForInput
  /-- The interval can be changed in every status. -/
  setInterval : ∀ milliseconds now, (s.setInterval milliseconds now).1 = .done
  /-- There is an interval in one status. -/
  interval : s.interval?.isSome = true ↔ s.status = .running
  /-- There is a step to come in the same one. -/
  due : s.due?.isSome = true ↔ s.status = .running

theorem isExecution_step_iff (s : Simulator) :
    s.step.1.isExecution = true ↔ s.stepRefusal? = none := by
  cases hrefusal : s.stepRefusal? with
  | some refusal => simp [step_of_refusal hrefusal, Response.isExecution]
  | none => simp [step_of_ready hrefusal, isExecution_advance]

theorem step_eq_refused_iff {s : Simulator} {refusal : Refusal} :
    s.step.1 = .refused refusal ↔ s.stepRefusal? = some refusal := by
  cases hrefusal : s.stepRefusal? with
  | some other => simp [step_of_refusal hrefusal]
  | none =>
    have hexecution := s.isExecution_advance
    rw [step_of_ready hrefusal]
    constructor
    · intro hrefused
      rw [hrefused] at hexecution
      cases hexecution
    · nofun

theorem run_eq_done_iff {s : Simulator} {milliseconds : Nat} {now : Time} :
    (s.run milliseconds now).1 = .done ↔ s.runRefusal? = none := by
  unfold run
  cases s.runRefusal? <;> simp

theorem run_eq_refused_iff {s : Simulator} {milliseconds : Nat} {now : Time} {refusal : Refusal} :
    (s.run milliseconds now).1 = .refused refusal ↔ s.runRefusal? = some refusal := by
  unfold run
  cases s.runRefusal? <;> simp

theorem provideInput_eq_done_iff {s : Simulator} {text : String} :
    (s.provideInput text).1 = .done ↔ s.machine.waiting = true := by
  unfold provideInput Machine.waiting
  cases s.machine.pending <;> simp

/-- A run that was stopped can begin again. -/
theorem Coherent.setInterval_eq_done {s : Simulator} (h : s.Coherent) (milliseconds : Nat)
    (now : Time) : (s.setInterval milliseconds now).1 = .done := by
  cases hschedule : s.schedule? with
  | none => rw [Simulator.setInterval, hschedule]
  | some schedule =>
    have hstop : s.stop = { s with schedule? := none, statusLine := .paused } := by
      rw [Simulator.stop, hschedule]
    have hready : s.stop.runRefusal? = none := by
      obtain ⟨hloaded, hhalted, hwaiting⟩ := h.scheduled schedule hschedule
      rw [hstop]
      simp [runRefusal?, stepRefusal?, hloaded, hhalted, hwaiting]
    rw [Simulator.setInterval, hschedule]
    exact run_eq_done_iff.mpr hready

theorem Coherent.governed {s : Simulator} (h : s.Coherent) : s.Governed where
  step := by
    rw [isExecution_step_iff, stepRefusal?_eq_status, Status.stepRefusal?_eq_none_iff]
  executed hexecution := by
    rw [step_of_ready (s.isExecution_step_iff.mp hexecution)]
    exact ⟨s.machine_advance, s.steps_advance⟩
  stepRefused refusal := by rw [step_eq_refused_iff, stepRefusal?_eq_status]
  run milliseconds now := by
    rw [run_eq_done_iff, h.runRefusal?_eq_status, Status.runRefusal?_eq_none_iff]
  runRefused milliseconds now refusal := by rw [run_eq_refused_iff, h.runRefusal?_eq_status]
  provideInput text := by rw [provideInput_eq_done_iff, h.waiting_iff]
  setInterval := h.setInterval_eq_done
  interval := by rw [interval?, Option.isSome_map, h.isSome_schedule?_iff]
  due := by rw [due?, Option.isSome_map, h.isSome_schedule?_iff]

/-- **The status governs.**  Whatever was asked of a simulator, its parts fit together: steps are
scheduled only for a loaded machine that neither is halted nor waits, never more often than once
a millisecond; a machine that is halted or waits is loaded, and never does both.  So the status,
which is read off these parts, decides by itself what is accepted and why the rest is refused. -/
theorem status_governs {s : Simulator} (h : s.Reachable) : s.Coherent ∧ s.Governed :=
  ⟨h.coherent, h.coherent.governed⟩

/-- A simulator that runs a program until that asks for input. -/
def asking : Simulator :=
  initial.afterAll [.loadParts [0x01F0, 0xF000] [.memory, .halt], .run 0 0, .tick 7]

/-- It takes any input and begins no run. -/
theorem status_governs_asking :
    (asking.Reachable ∧ asking.status = .waitingForInput) ∧ asking.schedule? = none ∧
      (∀ text, (asking.provideInput text).1 = .done) ∧
        ∀ milliseconds now, (asking.run milliseconds now).1 = .refused .waitingForInput := by
  have hreachable : asking.Reachable := ⟨_, rfl⟩
  have hstatus : asking.status = .waitingForInput := by decide +kernel
  obtain ⟨hcoherent, hgoverned⟩ := status_governs hreachable
  refine ⟨⟨hreachable, hstatus⟩, ?_, fun text => ?_, fun milliseconds now => ?_⟩
  · have hnone : ¬ asking.schedule?.isSome = true := by
      rw [hcoherent.isSome_schedule?_iff, hstatus]
      nofun
    simpa using hnone
  · exact (hgoverned.provideInput text).mpr hstatus
  · rw [hgoverned.runRefused, hstatus]
    rfl

end Simulator
end PredicatedCpu

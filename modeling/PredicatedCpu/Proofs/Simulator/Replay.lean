/-
# A run is a sequence of steps

Between a run and stepping by hand there is no difference that the machine could tell.  What
happens to it, as long as its program stays loaded, is a list of **occurrences**: an instruction
was executed, or a text was taken as input.  Schedules, intervals, stops, refusals and ticks that
come too early leave no occurrence, and the machine does not know of them.

* `Occurrence`, `occurrences`: what happened, read off requests and their answers;
* `Driven`: what one request does to a simulator, by its occurrence;
* `replay`: the same occurrences, each asked for by itself;
* `Coherent.replay_same`: replaying what happened leads to the same machine, by induction on the
  requests;
* `machine_of_occurrences`: so the machine hangs on what happened alone.
-/
import PredicatedCpu.Proofs.Simulator.Status

namespace PredicatedCpu

/-! ## 1. What happened -/

/-- What can happen to a machine whose program stays loaded. -/
inductive Occurrence where
  /-- An instruction was executed, or the machine found that there is none. -/
  | executed
  /-- A text was taken as input. -/
  | accepted (text : String)
  deriving DecidableEq, Repr

/-- The request that asks for just this. -/
def Occurrence.request : Occurrence → Request
  | executed => .step
  | accepted text => .provideInput text

/-- What happened on a request that was answered like this. -/
def Request.occurrence? : Request → Response → Option Occurrence
  | .provideInput text, .done => some (.accepted text)
  | _, response => if response.isExecution then some .executed else none

theorem Request.occurrence?_of_isExecution {request : Request} {response : Response}
    (h : response.isExecution = true) : request.occurrence? response = some .executed := by
  unfold occurrence?
  split
  · cases h
  · exact if_pos h

/-- An instruction was executed exactly if the answer tells of one. -/
theorem Request.occurrence?_eq_executed_iff {request : Request} {response : Response} :
    request.occurrence? response = some .executed ↔ response.isExecution = true := by
  refine ⟨fun h => ?_, occurrence?_of_isExecution⟩
  unfold occurrence? at h
  split at h
  · cases h
  · split at h
    · assumption
    · cases h

namespace Simulator

/-- **What happened** on requests, in their order. -/
def occurrences (s : Simulator) (requests : List Request) : List Occurrence :=
  (requests.zip (s.responses requests)).filterMap fun asked => asked.1.occurrence? asked.2

/-- The requests that ask for what happened, and for nothing else. -/
def replay (s : Simulator) (requests : List Request) : List Request :=
  (s.occurrences requests).map Occurrence.request

theorem occurrences_cons_of_none {s : Simulator} {request : Request} (rest : List Request)
    (h : request.occurrence? (s.respond request).1 = none) :
    s.occurrences (request :: rest) = (s.respond request).2.occurrences rest := by
  simp only [occurrences, responses, List.zip_cons_cons]
  exact List.filterMap_cons_none h

theorem occurrences_cons_of_some {s : Simulator} {request : Request} {occurrence : Occurrence}
    (rest : List Request) (h : request.occurrence? (s.respond request).1 = some occurrence) :
    s.occurrences (request :: rest) = occurrence :: (s.respond request).2.occurrences rest := by
  simp only [occurrences, responses, List.zip_cons_cons]
  exact List.filterMap_cons_some h

/-! ## 2. One request -/

/-- **What a request does** to a simulator `s` whose program stays loaded, if this is what
happened on it: the simulator becomes `t`. -/
inductive Driven (s : Simulator) : Option Occurrence → Simulator → Prop where
  /-- Nothing happens to the machine. -/
  | still {t : Simulator} (machine : t.machine = s.machine) (loaded : t.loaded = s.loaded)
      (steps : t.steps = s.steps) : Driven s none t
  /-- One instruction is executed, and it could have been executed by a step. -/
  | executed {t : Simulator} (ready : s.stepRefusal? = none)
      (machine : t.machine = s.machine.step.2) (loaded : t.loaded = s.loaded)
      (steps : t.steps = s.steps + 1) : Driven s (some .executed) t
  /-- The load that waits is given the value of the text. -/
  | accepted {t : Simulator} {text : String} {pending : PendingInput}
      (waits : s.machine.pending = some pending)
      (machine : t.machine = s.machine.resume pending ((inputValue? text).getD 0))
      (loaded : t.loaded = s.loaded) (steps : t.steps = s.steps) :
      Driven s (some (.accepted text)) t

theorem driven_advance {s t : Simulator} (hready : s.stepRefusal? = none)
    (hmachine : t.machine = s.machine) (hloaded : t.loaded = s.loaded)
    (hsteps : t.steps = s.steps) : Driven s (some .executed) t.advance.2 := by
  refine .executed hready ?_ ?_ ?_
  · rw [machine_advance, hmachine]
  · rw [loaded_advance, hloaded]
  · rw [steps_advance, hsteps]

theorem driven_stop (s : Simulator) : Driven s none s.stop := by
  unfold stop
  split <;> exact .still rfl rfl rfl

theorem driven_run (s : Simulator) (milliseconds : Nat) (now : Time) :
    Driven s none (s.run milliseconds now).2 := by
  unfold run
  split <;> exact .still rfl rfl rfl

theorem driven_setInterval (s : Simulator) (milliseconds : Nat) (now : Time) :
    Driven s none (s.setInterval milliseconds now).2 := by
  unfold setInterval
  split
  · exact .still rfl rfl rfl
  · obtain ⟨hmachine, hloaded, hsteps⟩ := s.driven_stop
    obtain ⟨hmachine', hloaded', hsteps'⟩ := s.stop.driven_run milliseconds now
    exact .still (hmachine'.trans hmachine) (hloaded'.trans hloaded) (hsteps'.trans hsteps)

theorem driven_provideInput (s : Simulator) (text : String) :
    Driven s ((Request.provideInput text).occurrence? (s.provideInput text).1)
      (s.provideInput text).2 := by
  cases hpending : s.machine.pending with
  | none =>
    rw [provideInput, hpending]
    exact .still rfl rfl rfl
  | some pending =>
    rw [provideInput_of_pending hpending]
    exact .accepted hpending rfl rfl rfl

/-- **Nothing else happens** on a request that leaves the program loaded. -/
theorem driven_respond {s : Simulator} (h : s.Coherent) {request : Request}
    (hdriving : request.isDriving = true) :
    Driven s (request.occurrence? (s.respond request).1) (s.respond request).2 := by
  cases request with
  | step =>
    rw [respond]
    cases hready : s.stepRefusal? with
    | some refusal =>
      rw [step_of_refusal hready]
      exact .still rfl rfl rfl
    | none =>
      rw [step_of_ready hready, Request.occurrence?_of_isExecution s.isExecution_advance]
      exact driven_advance hready rfl rfl rfl
  | run milliseconds now =>
    have hnone : (Request.run milliseconds now).occurrence? (s.run milliseconds now).1 = none := by
      unfold run
      split <;> rfl
    rw [respond, hnone]
    exact s.driven_run milliseconds now
  | setInterval milliseconds now =>
    rw [respond, h.setInterval_eq_done]
    exact s.driven_setInterval milliseconds now
  | tick now =>
    rw [respond]
    rcases h.tick_cases now with hstill | ⟨schedule, hschedule, htick⟩
    · rw [hstill]
      exact .still rfl rfl rfl
    · rw [htick, Request.occurrence?_of_isExecution (isExecution_advance _)]
      exact driven_advance (h.ready_of_schedule hschedule) rfl rfl rfl
  | stop => exact s.driven_stop
  | provideInput text => exact s.driven_provideInput text
  | drain => exact .still rfl rfl rfl
  | loadSource _ | loadParts _ _ | reset | restart => cases hdriving

theorem stepRefusal?_congr {s t : Simulator} (hmachine : t.machine = s.machine)
    (hloaded : t.loaded = s.loaded) : t.stepRefusal? = s.stepRefusal? := by
  rw [stepRefusal?, stepRefusal?, hmachine, hloaded]

/-- **What happened can be asked for.**  On any simulator with the same machine the request for it
is met, and does the same. -/
theorem Driven.respond_request {s t u : Simulator} {occurrence : Occurrence}
    (h : Driven s (some occurrence) t) (hmachine : u.machine = s.machine)
    (hloaded : u.loaded = s.loaded) :
    occurrence.request.occurrence? (u.respond occurrence.request).1 = some occurrence ∧
      (u.respond occurrence.request).2.machine = t.machine ∧
        (u.respond occurrence.request).2.loaded = t.loaded := by
  cases h with
  | executed ready machine loaded _ =>
    have hstep : u.respond .step = u.advance :=
      step_of_ready ((stepRefusal?_congr hmachine hloaded).trans ready)
    rw [Occurrence.request, hstep]
    refine ⟨Request.occurrence?_of_isExecution u.isExecution_advance, ?_, ?_⟩
    · rw [machine_advance, hmachine, machine]
    · rw [loaded_advance, hloaded, loaded]
  | accepted waits machine loaded _ =>
    rw [← hmachine] at waits machine
    simp only [Occurrence.request, respond, provideInput, waits, foldl_record]
    exact ⟨rfl, machine.symm, hloaded.trans loaded.symm⟩

/-! ## 3. Many requests -/

/-- **Replaying leads to the same machine**, from any simulator that begins with the same one, and
nothing else happens on the way.  The induction is on the requests, the first one first; what it
carries from the one simulator to the other is the machine and whether a program is loaded. -/
theorem Coherent.replay_same {s u : Simulator} (h : s.Coherent) (hmachine : u.machine = s.machine)
    (hloaded : u.loaded = s.loaded) {requests : List Request}
    (hdriving : ∀ request ∈ requests, request.isDriving = true) :
    (u.afterAll (s.replay requests)).machine = (s.afterAll requests).machine ∧
      u.occurrences (s.replay requests) = s.occurrences requests := by
  induction requests generalizing s u with
  | nil => exact ⟨hmachine, rfl⟩
  | cons request rest ih =>
    rw [List.forall_mem_cons] at hdriving
    have hdriven := driven_respond h hdriving.1
    have hcoherent := h.respond request
    cases hoccurrence : request.occurrence? (s.respond request).1 with
    | none =>
      rw [hoccurrence] at hdriven
      obtain ⟨hstill, hstill', -⟩ := hdriven
      rw [replay, occurrences_cons_of_none rest hoccurrence]
      exact ih hcoherent (hmachine.trans hstill.symm) (hloaded.trans hstill'.symm) hdriving.2
    | some occurrence =>
      rw [hoccurrence] at hdriven
      obtain ⟨hasked, hmachine', hloaded'⟩ := hdriven.respond_request hmachine hloaded
      obtain ⟨hrest, hrest'⟩ := ih hcoherent hmachine' hloaded' hdriving.2
      rw [replay, occurrences_cons_of_some rest hoccurrence, List.map_cons]
      exact ⟨hrest, by rw [occurrences_cons_of_some _ hasked, ← replay, hrest']⟩

/-- The instructions that are counted are those that were executed. -/
theorem Coherent.steps_afterAll {s : Simulator} (h : s.Coherent) {requests : List Request}
    (hdriving : ∀ request ∈ requests, request.isDriving = true) :
    (s.afterAll requests).steps = s.steps + (s.occurrences requests).count .executed := by
  induction requests generalizing s with
  | nil => rfl
  | cons request rest ih =>
    rw [List.forall_mem_cons] at hdriving
    have hdriven := driven_respond h hdriving.1
    rw [afterAll_cons, ih (h.respond request) hdriving.2]
    cases hoccurrence : request.occurrence? (s.respond request).1 with
    | none =>
      rw [hoccurrence] at hdriven
      obtain ⟨-, -, hsteps⟩ := hdriven
      rw [occurrences_cons_of_none rest hoccurrence, hsteps]
    | some occurrence =>
      rw [hoccurrence] at hdriven
      rw [occurrences_cons_of_some rest hoccurrence]
      cases hdriven with
      | executed _ _ _ steps =>
        rw [steps, List.count_cons_self]
        omega
      | accepted _ _ _ steps =>
        rw [steps, List.count_cons_of_ne (by nofun)]

/-- Loading makes all simulators alike, as far as the machine can tell. -/
theorem machine_load (p : Program) (s t : Simulator) : (t.load p).machine = (s.load p).machine :=
  rfl

/-- **The machine hangs on what happened alone.**  After a program was loaded, and as long as it
stays loaded, the machine is the one that comes of stepping by hand for each instruction that was
executed, and giving by hand each text that was taken as input, in their order: and each of these
requests is met.  So wherever the same happened the machine is the same, whatever was scheduled,
stopped or refused meanwhile; and no request ever executes more than one instruction. -/
theorem machine_of_occurrences (p : Program) (s : Simulator) {requests : List Request}
    (hdriving : ∀ request ∈ requests, request.isDriving = true) :
    ((s.load p).afterAll requests).machine =
        ((s.load p).afterAll ((s.load p).replay requests)).machine ∧
    (s.load p).occurrences ((s.load p).replay requests) = (s.load p).occurrences requests ∧
    (∀ (t : Simulator) (others : List Request),
      (∀ request ∈ others, request.isDriving = true) →
        (t.load p).occurrences others = (s.load p).occurrences requests →
          ((t.load p).afterAll others).machine = ((s.load p).afterAll requests).machine) ∧
    ((s.load p).afterAll requests).steps = ((s.load p).occurrences requests).count .executed ∧
    ∀ request, request.isDriving = true →
      Driven ((s.load p).afterAll requests)
        (request.occurrence? (((s.load p).afterAll requests).respond request).1)
        (((s.load p).afterAll requests).respond request).2 := by
  have hloaded : (s.load p).Coherent := .load p s
  obtain ⟨hmachine, hoccurrences⟩ := hloaded.replay_same rfl rfl hdriving
  refine ⟨hmachine.symm, hoccurrences, ?_, ?_, ?_⟩
  · intro t others hdriving' hsame
    obtain ⟨hmachine', -⟩ :=
      (Coherent.load p t).replay_same (machine_load p t s) rfl hdriving'
    rw [← hmachine, ← hmachine', replay, replay, hsame]
  · rw [hloaded.steps_afterAll hdriving]
    exact Nat.zero_add _
  · intro request hdriving'
    exact driven_respond
      (afterAll_induction hloaded (fun _ request h => h.respond request) requests) hdriving'

/-- A program that adds one, asks for input and halts. -/
def addingProgram : Program :=
  ⟨[⟨0x2001, .immediateAlu⟩, ⟨0x01F0, .memory⟩, ⟨0xF000, .halt⟩], .empty⟩

/-- A run with a tick that comes too early, a change of the interval, a step by hand in between,
and a request that is refused. -/
def scheduled : List Request :=
  [.run 5 0, .tick 0, .tick 4999999, .setInterval 1 4999999, .step, .run 5 5000000,
    .provideInput "3"]

/-- It comes to the same as two steps and one input. -/
theorem machine_of_occurrences_scheduled :
    (∀ request ∈ scheduled, request.isDriving = true) ∧
      (initial.load addingProgram).occurrences scheduled =
        [.executed, .executed, .accepted "3"] ∧
      ((initial.load addingProgram).afterAll scheduled).machine =
        ((initial.load addingProgram).afterAll [.step, .step, .provideInput "3"]).machine ∧
      ((initial.load addingProgram).afterAll scheduled).steps = 2 := by
  have hdriving : ∀ request ∈ scheduled, request.isDriving = true := by decide
  have hoccurrences : (initial.load addingProgram).occurrences scheduled =
      [.executed, .executed, .accepted "3"] := by decide +kernel
  obtain ⟨hmachine, -, -, hsteps, -⟩ := machine_of_occurrences addingProgram initial hdriving
  rw [replay, hoccurrences] at hmachine
  rw [hoccurrences] at hsteps
  exact ⟨hdriving, hoccurrences, hmachine, hsteps⟩

end Simulator
end PredicatedCpu

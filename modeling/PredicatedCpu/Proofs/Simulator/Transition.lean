/-
# What a request does to the machine

Most requests leave the program of a simulator where it is.  Such a request does one of four
things to the machine, and its answer says which: nothing at all, one step that executes, one
step that faults, or the end of a load that waited for input.

* `Request.isDriving`: the requests that load nothing and empty nothing;
* `Move`: the four things that can happen to the machine;
* `move_respond`: nothing else happens;
* `afterAll_driving_induction`: what every move keeps is kept over every list of such requests.
-/
import PredicatedCpu.Simulator.Request

namespace PredicatedCpu

/-- Whether a request **drives** the machine that is there: it neither loads a program nor
empties the machine. -/
def Request.isDriving : Request → Bool
  | .step | .run _ _ | .setInterval _ _ | .tick _ | .stop | .provideInput _ | .drain => true
  | .loadSource _ | .loadParts _ _ | .reset | .restart => false

namespace Simulator

/-- What happens to the machine of a simulator, with the answer that tells of it. -/
inductive Move (s : Simulator) : Response → Machine → Prop where
  /-- Nothing happens. -/
  | still {response : Response} (unexecuted : ∀ effect, response ≠ .executed effect)
      (faultless : ∀ fault, response ≠ .faulted fault) : Move s response s.machine
  /-- An instruction is executed. -/
  | executed {effect : Effect} {m : Machine} (ready : s.stepRefusal? = none)
      (step : s.machine.step = (.ok effect, m)) : Move s (.executed effect) m
  /-- There is no instruction to execute. -/
  | faulted {fault : Fault} {m : Machine} (ready : s.stepRefusal? = none)
      (step : s.machine.step = (.error fault, m)) : Move s (.faulted fault) m
  /-- A load that waited is given its value. -/
  | resumed {pending : PendingInput} (value : Word) (waits : s.machine.pending = some pending) :
      Move s .done (s.machine.resume pending value)

/-! ## 1. The machine of a simulator -/

/-- Entries change nothing but the journal. -/
theorem foldl_record (s : Simulator) (events : List Event) :
    events.foldl record s = { s with journal := s.journal ++ events.toArray } := by
  induction events generalizing s with
  | nil => simp
  | cons event rest ih =>
    have hjournal : (s.journal.push event) ++ rest.toArray = s.journal ++ (event :: rest).toArray :=
      Array.ext' (by simp)
    rw [List.foldl_cons, ih (s.record event), record, hjournal]

@[simp] theorem machine_foldl_record (s : Simulator) (events : List Event) :
    (events.foldl record s).machine = s.machine := by
  rw [foldl_record]

@[simp] theorem machine_stop (s : Simulator) : s.stop.machine = s.machine := by
  unfold stop
  split <;> rfl

/-- **Executing an instruction** hands the machine its own step, counts it, and ends the run if
the machine cannot go on.  What was loaded stays loaded. -/
theorem advance_eq (s : Simulator) :
    s.advance.2 =
      { s.moveTo s.machine.step.2 with
        statusLine := s.advance.2.statusLine
        journal := s.advance.2.journal } := by
  unfold advance
  rcases s.machine.step with ⟨fault | effect, m⟩
  · rfl
  · simp only [foldl_record]

theorem machine_advance (s : Simulator) : s.advance.2.machine = s.machine.step.2 := by
  rw [advance_eq]
  rfl

theorem loaded_advance (s : Simulator) : s.advance.2.loaded = s.loaded := by
  rw [advance_eq]
  rfl

theorem steps_advance (s : Simulator) : s.advance.2.steps = s.steps + 1 := by
  rw [advance_eq]
  rfl

/-- A run goes on as long as the machine can. -/
theorem schedule?_advance (s : Simulator) :
    s.advance.2.schedule? =
      if s.machine.step.2.halted || s.machine.step.2.waiting then none else s.schedule? := by
  rw [advance_eq]
  rfl

/-- **A text that is awaited is taken**: the machine gets its value, and the journal is told. -/
theorem provideInput_of_pending {s : Simulator} {pending : PendingInput}
    (h : s.machine.pending = some pending) (text : String) :
    s.provideInput text = (.done,
      { s with
        machine := s.machine.resume pending ((inputValue? text).getD 0)
        statusLine := .paused
        journal := s.journal ++ (inputEvents pending.dest text).toArray }) := by
  unfold provideInput
  rw [h]
  simp only [foldl_record]

/-- The schedule has no say in what happens to the machine. -/
theorem Move.of_schedule {s : Simulator} {schedule? : Option Schedule} {response : Response}
    {m : Machine} (h : Move { s with schedule? := schedule? } response m) : Move s response m := by
  cases h with
  | still unexecuted faultless => exact .still unexecuted faultless
  | executed ready step => exact .executed ready step
  | faulted ready step => exact .faulted ready step
  | resumed value waits => exact .resumed value waits

/-- An answer that tells of an instruction tells of a step. -/
theorem Move.step_of_executed {s : Simulator} {effect : Effect} {m : Machine}
    (h : Move s (.executed effect) m) : s.machine.step = (.ok effect, m) := by
  cases h with
  | still unexecuted _ => exact absurd rfl (unexecuted effect)
  | executed _ step => exact step

theorem Move.step_of_faulted {s : Simulator} {fault : Fault} {m : Machine}
    (h : Move s (.faulted fault) m) : s.machine.step = (.error fault, m) := by
  cases h with
  | still _ faultless => exact absurd rfl (faultless fault)
  | faulted _ step => exact step

/-! ## 2. Requests -/

theorem move_refused (s : Simulator) (refusal : Refusal) : s.Move (.refused refusal) s.machine :=
  .still (by simp) (by simp)

theorem move_done (s : Simulator) : s.Move .done s.machine := .still (by simp) (by simp)

theorem move_step (s : Simulator) : s.Move s.step.1 s.step.2.machine := by
  unfold step
  cases hready : s.stepRefusal? with
  | some refusal => exact s.move_refused refusal
  | none =>
    unfold advance
    rcases hstep : s.machine.step with ⟨fault | effect, m⟩
    · exact .faulted hready hstep
    · simp only [machine_foldl_record]
      exact .executed hready hstep

theorem move_run (s : Simulator) (milliseconds : Nat) (now : Time) :
    s.Move (s.run milliseconds now).1 (s.run milliseconds now).2.machine := by
  unfold run
  cases s.runRefusal? with
  | some refusal => exact s.move_refused refusal
  | none => exact s.move_done

theorem move_setInterval (s : Simulator) (milliseconds : Nat) (now : Time) :
    s.Move (s.setInterval milliseconds now).1 (s.setInterval milliseconds now).2.machine := by
  unfold setInterval
  split
  · exact s.move_done
  · unfold run
    cases s.stop.runRefusal? with
    | some refusal =>
      rw [machine_stop]
      exact s.move_refused refusal
    | none =>
      rw [machine_stop]
      exact s.move_done

theorem move_tick (s : Simulator) (now : Time) :
    s.Move (s.tick now).1 (s.tick now).2.machine := by
  unfold tick
  split
  · exact .still (by simp) (by simp)
  · rename_i schedule _
    split
    · exact .still (by simp) (by simp)
    · have hmove := Move.of_schedule (s := s)
        (move_step { s with schedule? := some ⟨schedule.interval, now + schedule.interval⟩ })
      split
      · rename_i effect s' hstep
        rwa [hstep] at hmove
      · rename_i response s' _ hstep
        rwa [hstep] at hmove

theorem move_provideInput (s : Simulator) (text : String) :
    s.Move (s.provideInput text).1 (s.provideInput text).2.machine := by
  unfold provideInput
  cases hpending : s.machine.pending with
  | none => exact s.move_refused .notWaiting
  | some pending => exact .resumed _ hpending

/-- **Nothing else happens** to the machine when it is driven. -/
theorem move_respond (s : Simulator) {request : Request} (h : request.isDriving = true) :
    s.Move (s.respond request).1 (s.respond request).2.machine := by
  cases request with
  | step => exact s.move_step
  | run milliseconds now => exact s.move_run milliseconds now
  | setInterval milliseconds now => exact s.move_setInterval milliseconds now
  | tick now => exact s.move_tick now
  | stop =>
    rw [respond, machine_stop]
    exact s.move_done
  | provideInput text => exact s.move_provideInput text
  | drain => exact .still (by simp [respond]) (by simp [respond])
  | loadSource _ | loadParts _ _ | reset | restart => cases h

/-- **What every move keeps** is kept as long as the machine is only driven.  The induction is on
the requests, the first one first. -/
theorem afterAll_driving_induction {motive : Machine → Prop} {s : Simulator}
    (start : motive s.machine)
    (keeps : ∀ (s : Simulator) (response : Response) (m : Machine), s.Move response m →
      motive s.machine → motive m)
    {requests : List Request} (hdriving : ∀ request ∈ requests, request.isDriving = true) :
    motive (s.afterAll requests).machine := by
  induction requests generalizing s with
  | nil => exact start
  | cons request rest ih =>
    rw [List.forall_mem_cons] at hdriving
    exact ih (keeps s _ _ (s.move_respond hdriving.1) start) hdriving.2

end Simulator
end PredicatedCpu

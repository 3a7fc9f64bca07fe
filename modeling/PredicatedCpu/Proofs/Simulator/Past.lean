/-
# The past of a simulator

Two things that a simulator holds say nothing of its machine: the program that was loaded last, and
the entries that nobody has taken yet.  Of all requests only a restart asks for the one, and only a
draining for the other.  What else is asked is answered and done without them, so that two
simulators with different pasts go the same way.

With entries from before in the journal this is all that can be seen of them: they stand in front of
the first entries that are taken, and then there is no difference left.

* `Simulator.withPast`: a simulator with another past;
* `respond_withPast`: a request that does not ask for the past is answered the same;
* `Simulator.withEarlier`: a simulator with entries from before;
* `respond_withEarlier`: nothing but draining tells them apart;
* `responses_withEarlier`, `afterAll_withEarlier`: what becomes of them.
-/
import PredicatedCpu.Proofs.Simulator.Status

namespace PredicatedCpu

/-- Whether a request **asks for the past**, or for a new one: it loads a program or takes the
entries away. -/
def Request.asksForPast : Request → Bool
  | .loadSource _ | .loadParts _ _ | .restart | .drain => true
  | .step | .run _ _ | .setInterval _ _ | .tick _ | .stop | .reset | .provideInput _ => false

namespace Simulator

/-! ## 1. Another past -/

section Past

variable (remembered : Option Program → Option Program) (events : Array Event) (s : Simulator)

/-- A simulator with **another past**: it remembers another program, and has entries from before. -/
def withPast : Simulator :=
  { s with
    program? := remembered s.program?
    journal := events ++ s.journal }

theorem record_withPast (event : Event) :
    (s.withPast remembered events).record event = (s.record event).withPast remembered events := by
  simp only [record, withPast, Array.append_push]

theorem foldl_record_withPast (written : List Event) :
    written.foldl record (s.withPast remembered events) =
      (written.foldl record s).withPast remembered events :=
  List.foldl_hom (withPast remembered events) (record_withPast remembered events)

theorem reset_withPast :
    (s.withPast remembered events).reset = s.reset.withPast remembered events :=
  record_withPast remembered events
    { s with
      machine := .blank
      loaded := false
      schedule? := none
      steps := 0
      statusLine := .reset }
    .reset

theorem advance_withPast :
    (s.withPast remembered events).advance =
      (s.advance.1, s.advance.2.withPast remembered events) := by
  have hmachine : (s.withPast remembered events).machine = s.machine := rfl
  have hmoved (m : Machine) :
      (s.withPast remembered events).moveTo m = (s.moveTo m).withPast remembered events := rfl
  unfold advance
  rw [hmachine]
  rcases s.machine.step with ⟨fault | effect, m⟩
  · simp only [hmoved, record_withPast]
    rfl
  · simp only [hmoved, foldl_record_withPast]
    rfl

theorem step_withPast :
    (s.withPast remembered events).step = (s.step.1, s.step.2.withPast remembered events) := by
  have hrefusal : (s.withPast remembered events).stepRefusal? = s.stepRefusal? := rfl
  unfold step
  rw [hrefusal]
  cases s.stepRefusal? with
  | some refusal => rfl
  | none => exact advance_withPast remembered events s

theorem run_withPast (milliseconds : Nat) (now : Time) :
    (s.withPast remembered events).run milliseconds now =
      ((s.run milliseconds now).1, (s.run milliseconds now).2.withPast remembered events) := by
  have hrefusal : (s.withPast remembered events).runRefusal? = s.runRefusal? := rfl
  unfold run
  rw [hrefusal]
  cases s.runRefusal? with
  | some refusal => rfl
  | none => rfl

theorem stop_withPast :
    (s.withPast remembered events).stop = s.stop.withPast remembered events := by
  have hschedule : (s.withPast remembered events).schedule? = s.schedule? := rfl
  unfold stop
  rw [hschedule]
  cases s.schedule? with
  | none => rfl
  | some schedule => rfl

theorem setInterval_withPast (milliseconds : Nat) (now : Time) :
    (s.withPast remembered events).setInterval milliseconds now =
      ((s.setInterval milliseconds now).1,
        (s.setInterval milliseconds now).2.withPast remembered events) := by
  have hschedule : (s.withPast remembered events).schedule? = s.schedule? := rfl
  unfold setInterval
  rw [hschedule]
  cases s.schedule? with
  | none => rfl
  | some schedule =>
    rw [stop_withPast]
    exact run_withPast remembered events s.stop milliseconds now

theorem tick_withPast (now : Time) :
    (s.withPast remembered events).tick now =
      ((s.tick now).1, (s.tick now).2.withPast remembered events) := by
  have hschedule : (s.withPast remembered events).schedule? = s.schedule? := rfl
  unfold tick
  rw [hschedule]
  cases s.schedule? with
  | none => rfl
  | some schedule =>
    by_cases hearly : now < schedule.due
    · simp only [if_pos hearly]
    · have hmovedOn (schedule? : Option Schedule) :
          { s.withPast remembered events with schedule? := schedule? } =
            { s with schedule? := schedule? }.withPast remembered events := rfl
      simp only [if_neg hearly, hmovedOn, step_withPast]
      rcases step { s with schedule? := some ⟨schedule.interval, now + schedule.interval⟩ } with
        ⟨response, t⟩
      cases response <;> rfl

theorem provideInput_withPast (text : String) :
    (s.withPast remembered events).provideInput text =
      ((s.provideInput text).1, (s.provideInput text).2.withPast remembered events) := by
  have hpending : (s.withPast remembered events).machine.pending = s.machine.pending := rfl
  unfold provideInput
  rw [hpending]
  cases s.machine.pending with
  | none => rfl
  | some pending =>
    simp only [foldl_record_withPast]
    rfl

/-- **The past is not asked for** by any other request: it is answered the same, and does the
same. -/
theorem respond_withPast {request : Request} (h : request.asksForPast = false) :
    (s.withPast remembered events).respond request =
      ((s.respond request).1, (s.respond request).2.withPast remembered events) := by
  cases request with
  | step => exact step_withPast remembered events s
  | run milliseconds now => exact run_withPast remembered events s milliseconds now
  | setInterval milliseconds now => exact setInterval_withPast remembered events s milliseconds now
  | tick now => exact tick_withPast remembered events s now
  | stop => exact congrArg (Prod.mk Response.done) (stop_withPast remembered events s)
  | reset => exact congrArg (Prod.mk Response.done) (reset_withPast remembered events s)
  | provideInput text => exact provideInput_withPast remembered events s text
  | loadSource _ | loadParts _ _ | restart | drain => cases h

end Past

/-- The program is remembered by whoever does not ask for it.  Nothing that is done without the past
can depend on it, and so it cannot change it either. -/
theorem program?_of_asksForPast {request : Request} (h : request.asksForPast = false)
    (s : Simulator) : (s.respond request).2.program? = s.program? := by
  have hsame : s.withPast (fun _ => s.program?) #[] = s := by
    rw [withPast, Array.empty_append]
  have hrespond := respond_withPast (fun _ => s.program?) #[] s h
  rw [hsame] at hrespond
  exact congrArg (fun answer => answer.2.program?) hrespond

/-! ## 2. Entries from before -/

/-- A simulator with entries **from before** in its journal.  It has another past in this one
respect: what holds of `withPast` holds of it, with `id` for the program. -/
def withEarlier (events : Array Event) (s : Simulator) : Simulator :=
  { s with journal := events ++ s.journal }

@[simp] theorem withEarlier_empty (s : Simulator) : s.withEarlier #[] = s := by
  rw [withEarlier, Array.empty_append]

theorem load_withEarlier (events : Array Event) (p : Program) (s : Simulator) :
    (s.withEarlier events).load p = (s.load p).withEarlier events :=
  record_withPast id events
    { s with
      machine := .ofProgram p
      program? := some p
      loaded := true
      schedule? := none
      steps := 0
      statusLine := .ready }
    (.loaded p.size)

theorem reset_withEarlier (events : Array Event) (s : Simulator) :
    (s.withEarlier events).reset = s.reset.withEarlier events :=
  reset_withPast id events s

/-- **Entries from before are not asked for**, except by the request that takes them. -/
theorem respond_withEarlier (events : Array Event) (s : Simulator) {request : Request}
    (h : request ≠ .drain) :
    (s.withEarlier events).respond request =
      ((s.respond request).1, (s.respond request).2.withEarlier events) := by
  cases request with
  | loadSource source =>
    simp only [respond, loadSource]
    cases assemble source with
    | ok p => simp only [load_withEarlier]
    | error diagnostics => rfl
  | loadParts words tags =>
    simp only [respond, loadParts]
    cases Program.ofParts words tags with
    | ok p => simp only [load_withEarlier]
    | error error => rfl
  | restart =>
    have hprogram : (s.withEarlier events).program? = s.program? := rfl
    simp only [respond, restart, hprogram]
    cases s.program? with
    | none => rfl
    | some p => simp only [reset_withEarlier, load_withEarlier]
  | drain => exact absurd rfl h
  | step | run _ _ | setInterval _ _ | tick _ | stop | reset | provideInput _ =>
    exact respond_withPast id events s rfl

/-- Who takes the entries takes those from before as well, and in front. -/
theorem respond_drain_withEarlier (events : Array Event) (s : Simulator) :
    (s.withEarlier events).respond .drain =
      (.drained (events.toList ++ s.journal.toList), (s.respond .drain).2) := by
  simp only [respond, drain, withEarlier, Array.toList_append]

/-! ## 3. Many requests -/

/-- Answers with entries **from before** in front of the first ones that are taken. -/
def recalling (events : List Event) : List Response → List Response
  | [] => []
  | .drained taken :: rest => .drained (events ++ taken) :: rest
  | response :: rest => response :: recalling events rest

theorem recalling_drained (events taken : List Event) (rest : List Response) :
    recalling events (.drained taken :: rest) = .drained (events ++ taken) :: rest := rfl

theorem recalling_cons {events : List Event} {response : Response}
    (h : ∀ taken, response ≠ .drained taken) (rest : List Response) :
    recalling events (response :: rest) = response :: recalling events rest := by
  cases response with
  | drained taken => exact absurd rfl (h taken)
  | _ => rfl

/-- **The answers of a simulator with entries from before** are those of one without, and the first
entries that are taken come with them.  The induction is on the requests; it stops at the first
draining, where the two simulators become one. -/
theorem responses_withEarlier (events : Array Event) (s : Simulator) (requests : List Request) :
    (s.withEarlier events).responses requests = recalling events.toList (s.responses requests) := by
  induction requests generalizing s with
  | nil => rfl
  | cons request rest ih =>
    by_cases hdrain : request = .drain
    · subst hdrain
      simp only [responses, respond_drain_withEarlier]
      exact (recalling_drained _ _ _).symm
    · have hanswer (taken : List Event) : (s.respond request).1 ≠ .drained taken :=
        fun h => hdrain (request_of_drained h)
      simp only [responses, respond_withEarlier events s hdrain, ih, recalling_cons hanswer]

/-- **What a simulator with entries from before comes to** is what one without comes to, with the
entries until they are taken. -/
theorem afterAll_withEarlier (events : Array Event) (s : Simulator) (requests : List Request) :
    (s.withEarlier events).afterAll requests =
      (s.afterAll requests).withEarlier (if .drain ∈ requests then #[] else events) := by
  induction requests generalizing s with
  | nil => rfl
  | cons request rest ih =>
    by_cases hdrain : request = .drain
    · subst hdrain
      rw [if_pos List.mem_cons_self, withEarlier_empty, afterAll_cons, respond_drain_withEarlier]
      rfl
    · have hmem : .drain ∈ request :: rest ↔ .drain ∈ rest := by
        rw [List.mem_cons, or_iff_right (Ne.symm hdrain)]
      rw [afterAll_cons, respond_withEarlier events s hdrain, ih, afterAll_cons]
      simp only [hmem]

end Simulator
end PredicatedCpu

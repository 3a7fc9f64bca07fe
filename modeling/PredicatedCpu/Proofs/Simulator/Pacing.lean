/-
# A run keeps its pace

A run is a promise about time: a step is executed when it is due and not before, and the next one is
due an interval later.  The simulator has no clock of its own to keep it by.  It is told the time on
every tick, and ticks come early, late, or many at once; it moves the next step on before it
executes this one, which may end the run; and between two ticks the machine may be stepped by hand.

Still nothing but the ticks on which a step was executed counts: the last of them says when the next
step is due.  So they are an interval apart from each other, and there is only room for so many of
them.

* `Spaced`, `Spaced.countP_le`: moments that are an interval apart, and how many there are;
* `arms`, `undisturbed`: the requests that begin a run, or begin it anew, and those that do not;
* `tickTimes`, `dueAfter`: the moments of the ticks that executed a step, and what they say;
* `Paced.respond`, `Paced.afterAll`: the schedule is what they say, after one request and many;
* `run_keeps_pace`: so a run keeps its pace from the moment it begins.
-/
import PredicatedCpu.Proofs.Simulator.Lifetime

namespace PredicatedCpu

/-! ## 1. Moments -/

/-- Whether moments are **spaced**: the first one is not before `due`, and each of the others is at
least an interval after the one before it. -/
def Spaced (interval : Nat) (due : Int) : List Int → Prop
  | [] => True
  | now :: rest => due ≤ now ∧ Spaced interval (now + interval) rest

/-- When the next step is due after steps were executed at these moments. -/
def dueAfter (interval : Nat) (start : Int) (times : List Int) : Int :=
  match times.getLast? with
  | none => start
  | some last => last + interval

theorem dueAfter_cons (interval : Nat) (start now : Int) (rest : List Int) :
    dueAfter interval start (now :: rest) = dueAfter interval (now + interval) rest := by
  rw [dueAfter, dueAfter, List.getLast?_cons]
  cases rest.getLast? <;> rfl

theorem dueAfter_append (interval : Nat) (start : Int) (time? : Option Int) (rest : List Int) :
    dueAfter interval start (time?.toList ++ rest) =
      dueAfter interval (dueAfter interval start time?.toList) rest := by
  cases time? with
  | none => rfl
  | some now => exact dueAfter_cons interval start now rest

namespace Spaced

variable {interval : Nat} {due : Int} {times : List Int}

theorem due_le (h : Spaced interval due times) : ∀ now ∈ times, due ≤ now := by
  induction times generalizing due with
  | nil => nofun
  | cons first rest ih =>
    obtain ⟨hfirst, hrest⟩ := h
    intro now hmem
    rcases List.mem_cons.mp hmem with rfl | hmem
    · exact hfirst
    · have := ih hrest now hmem
      omega

/-- Any two of them are an interval apart. -/
theorem pairwise (h : Spaced interval due times) :
    times.Pairwise fun (earlier later : Int) => earlier + interval ≤ later := by
  induction times generalizing due with
  | nil => exact .nil
  | cons first rest ih => exact .cons h.2.due_le (ih h.2)

theorem append {time? : Option Int} {rest : List Int} (hfirst : ∀ now ∈ time?, due ≤ now)
    (hrest : Spaced interval (dueAfter interval due time?.toList) rest) :
    Spaced interval due (time?.toList ++ rest) := by
  cases time? with
  | none => exact hrest
  | some now => exact ⟨hfirst now rfl, hrest⟩

/-- Moments that are all past the end are none before it. -/
theorem countP_eq_zero (h : Spaced interval due times) {last : Int} (hpast : last < due) :
    times.countP (fun now => now ≤ last) = 0 := by
  refine List.countP_eq_zero.mpr fun now hmem => ?_
  have := h.due_le now hmem
  simp only [decide_eq_true_eq]
  omega

/-- **There is room for so many**: one at once, and one for each interval that fits in.  The
induction is on the moments.  After one that is counted the others begin an interval later; if that
is past the end, there is none to be counted. -/
theorem countP_le (h : Spaced interval due times) (hinterval : 0 < interval) {last : Int}
    (hlast : due ≤ last) :
    (times.countP (fun now => now ≤ last) : Int) ≤ 1 + (last - due) / interval := by
  have hpositive : (0 : Int) < interval := Int.natCast_pos.mpr hinterval
  induction times generalizing due with
  | nil =>
    have hroom := Int.ediv_nonneg (Int.sub_nonneg.mpr hlast) (Int.le_of_lt hpositive)
    rw [List.countP_nil]
    omega
  | cons now rest ih =>
    obtain ⟨hnow, hrest⟩ := h
    have hroom := Int.ediv_nonneg (Int.sub_nonneg.mpr hlast) (Int.le_of_lt hpositive)
    rw [List.countP_cons]
    by_cases hmore : now + interval ≤ last
    · have hothers := ih hrest hmore
      have hone : (last - (now + interval)) / (interval : Int) + 1 ≤ (last - due) / interval := by
        have hwhole := Int.ediv_mul_le (last - (now + interval)) (Int.ne_of_gt hpositive)
        refine Int.le_ediv_of_mul_le hpositive ?_
        rw [Int.add_mul, Int.one_mul]
        omega
      rw [if_pos (decide_eq_true (by omega))]
      omega
    · have hothers := hrest.countP_eq_zero (Int.not_le.mp hmore)
      rw [hothers]
      split <;> omega

end Spaced

/-- The moment of a tick that was answered like this, if a step was executed on it. -/
def Request.tickTime? : Request → Response → Option Time
  | .tick now, response => if response.isExecution then some now else none
  | _, _ => none

namespace Simulator

/-! ## 2. Requests that begin a run -/

/-- Whether a request **arms** a schedule: it begins a run, or the one that there is begins anew. -/
def arms (s : Simulator) : Request → Bool
  | .run _ _ => s.runRefusal?.isNone
  | .setInterval _ _ => s.schedule?.isSome
  | .loadSource _ | .loadParts _ _ | .step | .tick _ | .stop | .reset | .restart | .provideInput _
  | .drain => false

/-- Whether none of the requests arms a schedule. -/
def undisturbed (s : Simulator) : List Request → Bool
  | [] => true
  | request :: rest => !s.arms request && (s.respond request).2.undisturbed rest

theorem undisturbed_cons {s : Simulator} {request : Request} {rest : List Request} :
    s.undisturbed (request :: rest) = true ↔
      s.arms request = false ∧ (s.respond request).2.undisturbed rest = true := by
  rw [undisturbed, Bool.and_eq_true, Bool.not_eq_true']

/-- The moments of the ticks on which **a step was executed**. -/
def tickTimes (s : Simulator) (requests : List Request) : List Time :=
  (s.exchanges requests).filterMap fun exchange => exchange.1.tickTime? exchange.2

theorem tickTimes_cons (s : Simulator) (request : Request) (rest : List Request) :
    s.tickTimes (request :: rest) =
      (request.tickTime? (s.respond request).1).toList ++ (s.respond request).2.tickTimes rest := by
  unfold tickTimes
  rw [exchanges_cons]
  cases htime : request.tickTime? (s.respond request).1 with
  | none => exact List.filterMap_cons_none htime
  | some now => exact List.filterMap_cons_some htime

/-- **A schedule is given up or kept** by every request that arms none and is no tick. -/
theorem schedule?_respond {s : Simulator} {request : Request} (harms : s.arms request = false)
    (htick : ∀ now, request ≠ .tick now) :
    (s.respond request).2.schedule? = none ∨ (s.respond request).2.schedule? = s.schedule? := by
  cases request with
  | loadSource source =>
    simp only [respond, loadSource]
    split
    · exact .inl rfl
    · exact .inr rfl
  | loadParts words tags =>
    simp only [respond, loadParts]
    split
    · exact .inl rfl
    · exact .inr rfl
  | step =>
    cases hready : s.stepRefusal? with
    | some refusal =>
      rw [respond, step_of_refusal hready]
      exact .inr rfl
    | none =>
      rw [respond, step_of_ready hready, schedule?_advance]
      split
      · exact .inl rfl
      · exact .inr rfl
  | run milliseconds now =>
    cases hrefusal : s.runRefusal? with
    | some refusal =>
      rw [respond, run, hrefusal]
      exact .inr rfl
    | none =>
      rw [arms, hrefusal] at harms
      cases harms
  | setInterval milliseconds now =>
    cases hschedule : s.schedule? with
    | some schedule =>
      rw [arms, hschedule] at harms
      cases harms
    | none =>
      rw [respond, setInterval_of_unscheduled hschedule]
      exact .inr hschedule
  | tick now => exact absurd rfl (htick now)
  | stop =>
    rw [respond, stop]
    split
    · exact .inr rfl
    · exact .inl rfl
  | reset => exact .inl rfl
  | restart =>
    rw [respond, restart]
    split
    · exact .inr rfl
    · exact .inl rfl
  | provideInput text =>
    cases hpending : s.machine.pending with
    | none =>
      rw [respond, provideInput, hpending]
      exact .inr rfl
    | some pending =>
      rw [respond, provideInput_of_pending hpending]
      exact .inr rfl
  | drain => exact .inr rfl

/-! ## 3. The schedule -/

theorem Coherent.tick_of_unexecuted {s : Simulator} (h : s.Coherent) {now : Time}
    (hunexecuted : (s.tick now).1.isExecution = false) : s.tick now = (.notDue, s) := by
  rcases h.tick_cases now with hstill | ⟨schedule, -, htick⟩
  · exact hstill
  · rw [htick, isExecution_advance] at hunexecuted
    cases hunexecuted

/-- Whether a simulator is **at a pace**: if a step is to come, it is due then, and the next one an
interval later. -/
structure Paced (interval : Nat) (due : Time) (s : Simulator) : Prop where
  coherent : s.Coherent
  schedule : ∀ schedule ∈ s.schedule?, schedule = ⟨interval, due⟩

namespace Paced

variable {interval : Nat} {due : Time} {s : Simulator}

/-- A tick that is not early **executes a step**, and moves the next one on from its own moment. -/
theorem tick_of_due (h : Paced interval due s) {now : Time} (hscheduled : s.schedule?.isSome = true)
    (hdue : due ≤ now) :
    s.tick now = { s with schedule? := some ⟨interval, now + interval⟩ }.advance := by
  obtain ⟨schedule, hschedule⟩ := Option.isSome_iff_exists.mp hscheduled
  obtain rfl := h.schedule schedule hschedule
  exact h.coherent.tick_eq_advance hschedule hdue

theorem isExecution_tick_iff (h : Paced interval due s) {now : Time} :
    (s.tick now).1.isExecution = true ↔ s.schedule?.isSome = true ∧ due ≤ now := by
  constructor
  · intro hexecution
    cases hschedule : s.schedule? with
    | none =>
      rw [tick_of_unscheduled hschedule] at hexecution
      cases hexecution
    | some schedule =>
      obtain rfl := h.schedule schedule hschedule
      refine ⟨rfl, Int.not_lt.mp fun hearly => ?_⟩
      rw [tick_of_early hschedule hearly] at hexecution
      cases hexecution
  · rintro ⟨hscheduled, hdue⟩
    rw [h.tick_of_due hscheduled hdue]
    exact isExecution_advance _

/-- **After one request that arms nothing** the pace is the same, and the next step is due when this
says: only a tick on which a step was executed has moved it. -/
theorem respond (h : Paced interval due s) {request : Request} (harms : s.arms request = false) :
    (∀ now ∈ request.tickTime? (s.respond request).1, due ≤ now) ∧
      Paced interval (dueAfter interval due (request.tickTime? (s.respond request).1).toList)
        (s.respond request).2 := by
  have hcoherent := h.coherent.respond request
  by_cases htick : ∃ now, request = .tick now
  · obtain ⟨now, rfl⟩ := htick
    cases hexecution : (s.tick now).1.isExecution with
    | true =>
      obtain ⟨hscheduled, hdue⟩ := h.isExecution_tick_iff.mp hexecution
      have htime : (Request.tick now).tickTime? (s.respond (.tick now)).1 = some now :=
        if_pos hexecution
      rw [htime]
      refine ⟨fun _ hmem => Option.some.inj hmem ▸ hdue, hcoherent, fun schedule hmem => ?_⟩
      rw [Simulator.respond, h.tick_of_due hscheduled hdue, schedule?_advance] at hmem
      split at hmem
      · cases hmem
      · exact (Option.some.inj hmem).symm
    | false =>
      have htime : (Request.tick now).tickTime? (s.respond (.tick now)).1 = none :=
        if_neg (Bool.not_eq_true _ ▸ hexecution)
      rw [htime, Simulator.respond, h.coherent.tick_of_unexecuted hexecution]
      exact ⟨fun now hmem => absurd hmem (Option.not_mem_none now), h⟩
  · have htick : ∀ now, request ≠ .tick now := fun now hnow => htick ⟨now, hnow⟩
    have htime : request.tickTime? (s.respond request).1 = none := by
      cases request with
      | tick now => exact absurd rfl (htick now)
      | _ => rfl
    rw [htime]
    refine ⟨fun now hmem => absurd hmem (Option.not_mem_none now), hcoherent,
      fun schedule hmem => ?_⟩
    rcases schedule?_respond harms htick with hnone | hsame
    · rw [hnone] at hmem
      cases hmem
    · rw [hsame] at hmem
      exact h.schedule schedule hmem

/-- **After many requests that arm nothing** the ticks on which a step was executed are spaced, and
the last of them says when the next step is due.  The induction is on the requests. -/
theorem afterAll (h : Paced interval due s) {requests : List Request}
    (harms : s.undisturbed requests = true) :
    Spaced interval due (s.tickTimes requests) ∧
      Paced interval (dueAfter interval due (s.tickTimes requests)) (s.afterAll requests) := by
  induction requests generalizing s due with
  | nil => exact ⟨trivial, h⟩
  | cons request rest ih =>
    obtain ⟨hfirst, hrest⟩ := undisturbed_cons.mp harms
    obtain ⟨hdue, hpaced⟩ := h.respond hfirst
    obtain ⟨hspaced, hafter⟩ := ih hpaced hrest
    rw [tickTimes_cons, dueAfter_append]
    exact ⟨.append hdue hspaced, hafter⟩

end Paced

/-! ## 4. Runs -/

/-- Whether a simulator **keeps a pace**: whatever the moment of the next tick, a step is executed
on it exactly if there is one to come and it is due. -/
structure KeepsPace (interval : Nat) (due : Time) (s : Simulator) : Prop where
  schedule : ∀ schedule ∈ s.schedule?, schedule = ⟨interval, due⟩
  tick : ∀ now, (s.tick now).1.isExecution = true ↔ s.schedule?.isSome = true ∧ due ≤ now
  /-- It is the machine's own step. -/
  executed : ∀ now, (s.tick now).1.isExecution = true →
    (s.tick now).2.machine = s.machine.step.2
  /-- The next one is due an interval later, if the machine can go on. -/
  next : ∀ now, (s.tick now).1.isExecution = true →
    (s.tick now).2.schedule? = some ⟨interval, now + interval⟩ ∨
      (s.tick now).2.schedule? = none ∧
        ((s.tick now).2.machine.halted = true ∨ (s.tick now).2.machine.waiting = true)
  /-- Any other tick does nothing. -/
  unexecuted : ∀ now, (s.tick now).1.isExecution = false → s.tick now = (.notDue, s)

theorem Paced.keepsPace {interval : Nat} {due : Time} {s : Simulator} (h : Paced interval due s) :
    s.KeepsPace interval due where
  schedule := h.schedule
  tick _ := h.isExecution_tick_iff
  executed now hexecution := by
    obtain ⟨hscheduled, hdue⟩ := h.isExecution_tick_iff.mp hexecution
    rw [h.tick_of_due hscheduled hdue, machine_advance]
  next now hexecution := by
    obtain ⟨hscheduled, hdue⟩ := h.isExecution_tick_iff.mp hexecution
    rw [h.tick_of_due hscheduled hdue, schedule?_advance, machine_advance]
    split
    · rename_i hcannot
      exact .inr ⟨rfl, Bool.or_eq_true_iff.mp hcannot⟩
    · exact .inl rfl
  unexecuted _ hunexecuted := h.coherent.tick_of_unexecuted hunexecuted

/-- **Another interval** is a new run of the same machine, if there was a run. -/
theorem Coherent.setInterval_eq {s : Simulator} (h : s.Coherent) (milliseconds : Nat) (now : Time) :
    s.setInterval milliseconds now = (.done,
      match s.schedule? with
      | none => s
      | some _ =>
        { s with schedule? := some (.starting milliseconds now), statusLine := .running }) := by
  cases hschedule : s.schedule? with
  | none => exact setInterval_of_unscheduled hschedule milliseconds now
  | some schedule =>
    have hready := h.ready_of_schedule hschedule
    have hstop : s.stop = { s with schedule? := none, statusLine := .paused } := by
      rw [Simulator.stop, hschedule]
    have hrefusal : s.stop.runRefusal? = none := by
      rw [hstop]
      exact runRefusal?_eq_none_iff.mpr ⟨rfl, hready⟩
    rw [Simulator.setInterval, hschedule]
    simp only [Simulator.run, hrefusal]
    rw [hstop]

/-- A request that arms a schedule does nothing else. -/
theorem Coherent.respond_of_arms {s : Simulator} (h : s.Coherent) {request : Request}
    {milliseconds : Nat} {start : Time}
    (hrequest : request = .run milliseconds start ∨ request = .setInterval milliseconds start)
    (harms : s.arms request = true) :
    s.respond request = (.done,
      { s with schedule? := some (.starting milliseconds start), statusLine := .running }) := by
  rcases hrequest with rfl | rfl
  · rw [Simulator.respond, Simulator.run, Option.isNone_iff_eq_none.mp harms]
  · obtain ⟨schedule, hschedule⟩ := Option.isSome_iff_exists.mp harms
    rw [Simulator.respond, h.setInterval_eq, hschedule]

/-- **A run keeps its pace.**  Let a run begin, or begin anew, with an interval of so many
milliseconds and at least one, and let anything be asked then that arms no schedule.  As long as the
run is not given up, a tick executes a step exactly if it is due: at once at first, and then one
interval after the last tick on which one was executed, whatever was stepped by hand.  So these
ticks are an interval apart from each other, none is before the run, and by any moment there were at
most as many of them as there is room for.  After each of them the next step is due an interval
later, or the machine is halted or waits, and the run is over.

Another interval lets a run begin anew, without a trace in the machine, and does nothing where there
is none. -/
theorem run_keeps_pace {s : Simulator} (h : s.Reachable) :
    (∀ request milliseconds start,
      request = .run milliseconds start ∨ request = .setInterval milliseconds start →
      s.arms request = true →
      let interval := max milliseconds 1 * 1000000
      let armed := (s.respond request).2
      (s.respond request).1 = .done ∧ armed.schedule? = some ⟨interval, start⟩ ∧
      ∀ requests, armed.undisturbed requests = true →
        let times := armed.tickTimes requests
        (armed.afterAll requests).KeepsPace interval (dueAfter interval start times) ∧
        (∀ now ∈ times, start ≤ now) ∧
        (times.Pairwise fun (earlier later : Time) => earlier + interval ≤ later) ∧
        ∀ last, start ≤ last →
          (times.countP (fun now => now ≤ last) : Int) ≤ 1 + (last - start) / interval) ∧
    ∀ milliseconds now,
      s.setInterval milliseconds now = (.done,
        match s.schedule? with
        | none => s
        | some _ =>
          { s with schedule? := some (.starting milliseconds now), statusLine := .running }) := by
  refine ⟨fun request milliseconds start hrequest harms => ?_, h.coherent.setInterval_eq⟩
  intro interval armed
  have hinterval : 0 < interval := by
    have hone := Nat.le_max_right milliseconds 1
    omega
  have harmed : s.respond request = _ := h.coherent.respond_of_arms hrequest harms
  have hschedule : armed.schedule? = some ⟨interval, start⟩ :=
    congrArg (fun answer => answer.2.schedule?) harmed
  have hpaced : Paced interval start armed := by
    refine ⟨h.coherent.respond request, fun schedule hmem => ?_⟩
    rw [hschedule] at hmem
    exact (Option.some.inj hmem).symm
  refine ⟨congrArg Prod.fst harmed, hschedule, fun requests hundisturbed => ?_⟩
  obtain ⟨hspaced, hafter⟩ := hpaced.afterAll hundisturbed
  exact ⟨hafter.keepsPace, hspaced.due_le, hspaced.pairwise,
    fun last hlast => hspaced.countP_le hinterval hlast⟩

/-- A simulator with a program that does nothing but begin again. -/
def circling : Simulator := initial.afterAll [.loadParts [0xC000] [.branch]]

/-- A tick that comes too early, one in time, steps by hand, and ticks that are late and at once. -/
def ticking : List Request :=
  [.tick 99, .tick 100, .step, .run 1 200, .tick 5000099, .tick 5000100, .step, .tick 20000000,
    .tick 20000001]

/-- Of six ticks three executed a step, and there was room for four. -/
theorem run_keeps_pace_ticking :
    (circling.Reachable ∧ circling.arms (.run 5 100) = true) ∧
      let armed := (circling.respond (.run 5 100)).2
      armed.undisturbed ticking = true ∧ armed.tickTimes ticking = [100, 5000100, 20000000] ∧
        (armed.afterAll ticking).KeepsPace 5000000 25000000 ∧
        ([100, 5000100, 20000000].countP (fun now : Int => now ≤ 20000000) : Int) ≤
          1 + (20000000 - 100) / 5000000 := by
  have hreachable : circling.Reachable := ⟨_, rfl⟩
  have harms : circling.arms (.run 5 100) = true := by decide +kernel
  have hundisturbed : (circling.respond (.run 5 100)).2.undisturbed ticking = true := by
    decide +kernel
  have htimes : (circling.respond (.run 5 100)).2.tickTimes ticking = [100, 5000100, 20000000] := by
    decide +kernel
  obtain ⟨-, -, hpace⟩ := (run_keeps_pace hreachable).1 _ 5 100 (.inl rfl) harms
  obtain ⟨hkeeps, -, -, hroom⟩ := hpace ticking hundisturbed
  rw [htimes] at hkeeps hroom
  exact ⟨⟨hreachable, harms⟩, hundisturbed, htimes, hkeeps, hroom 20000000 (by decide)⟩

end Simulator
end PredicatedCpu

/-
# Running is stepping

A debugger has two ways to execute: it steps so many times, one request after the other, or it
begins a run and goes by a schedule until there is none.  They find out in different ways that the
machine cannot go on, the one from an answer or the status after it, the other from a schedule that
is gone, and nothing but the machine makes them agree.

Between two commands nothing is scheduled.  From there a step leads to one of two places: the next
step can be executed, or none can, and then none can later.  So both ways are one walk, which may be
cut anywhere and which ends at the first instruction that halts the machine, faults or asks for
input.

* `InDebugger`: the sessions that commands lead to; `lockstep_unscheduled`,
  `InDebugger.unscheduled`: nothing is scheduled in them;
* `stepOnce`: a session one step on; `stepMany_of_stuck`, `stepMany_of_going`: what follows;
* `alike_stepMany_add`: many steps and many more;
* `Runs`: a session whose run goes on, beside one that steps; `Runs.drive`: the end of the run;
* `exists_executes_stepMany`: how far many steps get;
* `running_is_stepping`: all of this.
-/
import Mathlib.Logic.Function.Iterate
import PredicatedCpu.Proofs.Session.Appearance
import PredicatedCpu.Proofs.Text.Words
import PredicatedCpu.Proofs.Text.Written

namespace PredicatedCpu

/-! ## 1. How far a machine gets -/

namespace Machine

/-- The machine after some steps, whatever comes of each of them. -/
def afterSteps (n : Nat) (m : Machine) : Machine := (fun m => m.step.2)^[n] m

/-- Whether a machine **cannot go on** by itself. -/
def Stopped (m : Machine) : Prop := m.halted = true ∨ m.waiting = true

instance (m : Machine) : Decidable m.Stopped := inferInstanceAs (Decidable (_ ∨ _))

/-- Whether the instruction **that stops a machine** is the one with this number: the first after
which it is halted, by itself or by a fault, or waits for input. -/
def StopsAt (m : Machine) (count : Nat) : Prop :=
  0 < count ∧ (m.afterSteps count).Stopped ∧
    ∀ i < count, 0 < i → ¬ (m.afterSteps i).Stopped

instance (m : Machine) (count : Nat) : Decidable (m.StopsAt count) :=
  inferInstanceAs (Decidable (_ ∧ _ ∧ _))

/-- There is one such instruction at most. -/
theorem StopsAt.unique {m : Machine} {count last : Nat} (h : m.StopsAt count)
    (h' : m.StopsAt last) : count = last := by
  rcases Nat.lt_trichotomy count last with hlt | heq | hlt
  · exact absurd h.2.1 (h'.2.2 count hlt h.1)
  · exact heq
  · exact absurd h'.2.1 (h.2.2 last hlt h'.1)

end Machine

namespace Simulator

/-- Whether a simulator comes from another by **executing so many instructions**: its machine has
made as many steps, and it has counted them. -/
structure Executes (s : Simulator) (count : Nat) (t : Simulator) : Prop where
  machine : t.machine = s.machine.afterSteps count
  steps : t.steps = s.steps + count

/-- A step can be executed by a machine that is loaded and has not stopped. -/
theorem stepRefusal?_eq_none_iff_going {s : Simulator} :
    s.stepRefusal? = none ↔ s.loaded = true ∧ ¬ s.machine.Stopped := by
  rw [stepRefusal?_eq_none_iff, Machine.Stopped, not_or, Bool.not_eq_true, Bool.not_eq_true]

/-- **A tick beside a step.**  Where two simulators differ in the schedule and the line only, the one
executes on a tick what the other executes at once, and its schedule lasts as long as the machine
goes on. -/
theorem tick_beside {s : Simulator} (hready : s.stepRefusal? = none) {schedule : Schedule}
    {now : Time} (hdue : schedule.due ≤ now) (line : StatusLine) :
    ∃ schedule?,
      ({ s with schedule? := some schedule, statusLine := line }.tick now).2 =
          { s.advance.2 with schedule? := schedule? } ∧
        (schedule? = none ↔ s.machine.step.2.Stopped) := by
  have htick := tick_of_ready (s := { s with schedule? := some schedule, statusLine := line })
    hready rfl hdue
  have hline : { s with statusLine := line }.advance = s.advance := by
    unfold advance
    dsimp only
    rcases s.machine.step with ⟨fault | effect, m⟩
    · rfl
    · simp only [foldl_record]
      rfl
  have hadvance := advance_schedule { s with statusLine := line }
    (some ⟨schedule.interval, now + schedule.interval⟩)
  rw [hline] at hadvance
  have hstops : ((if s.machine.step.2.halted || s.machine.step.2.waiting then none
      else some ⟨schedule.interval, now + schedule.interval⟩ : Option Schedule) = none ↔
        s.machine.step.2.Stopped) := by
    rw [Machine.Stopped, ← Bool.or_eq_true_iff]
    cases s.machine.step.2.halted || s.machine.step.2.waiting <;> simp
  refine ⟨_, ?_, hstops⟩
  rw [htick]
  exact congrArg Prod.snd hadvance

/-- A step that leads on was executed. -/
theorem complaint?_advance {s : Simulator} (h : s.advance.2.stepRefusal? = none) :
    s.advance.1.complaint? = none := by
  obtain ⟨-, hhalted, -⟩ := stepRefusal?_eq_none_iff.mp h
  rw [machine_advance] at hhalted
  unfold advance
  rcases hstep : s.machine.step with ⟨fault | effect, m⟩
  · obtain ⟨-, -, -, -, rfl⟩ := Machine.step_eq_error_iff.mp hstep
    rw [hstep] at hhalted
    cases hhalted
  · rfl

end Simulator

namespace Session

variable {s t u : Session}

/-! ## 2. One step -/

/-- A session **one step on**, with everything new reported. -/
def stepOnce (s : Session) : Session := (s.ask .step).2.flush

theorem simulator_stepOnce (s : Session) :
    s.stepOnce.simulator = s.simulator.step.2.drain.2 := (flushes_flush _).simulator

/-- A step that is refused leads nowhere. -/
theorem simulator_stepOnce_of_refusal (h : s.simulator.stepRefusal? ≠ none) :
    s.stepOnce.simulator = s.simulator.drain.2 := by
  obtain ⟨refusal, hrefusal⟩ := Option.ne_none_iff_exists'.mp h
  rw [simulator_stepOnce, Simulator.step_of_refusal hrefusal]

/-- Where a step leads on, one could be executed. -/
theorem ready_of_stepOnce (h : s.stepOnce.simulator.stepRefusal? = none) :
    s.simulator.stepRefusal? = none := by
  refine Classical.byContradiction fun hrefusal => ?_
  rw [simulator_stepOnce_of_refusal hrefusal] at h
  exact hrefusal h

theorem simulator_stepOnce_of_ready (h : s.simulator.stepRefusal? = none) :
    s.stepOnce.simulator = s.simulator.advance.2.drain.2 := by
  rw [simulator_stepOnce, Simulator.step_of_ready h]

theorem executes_stepOnce (h : s.simulator.stepRefusal? = none) :
    s.simulator.Executes 1 s.stepOnce.simulator := by
  rw [simulator_stepOnce_of_ready h]
  exact ⟨s.simulator.machine_advance, s.simulator.steps_advance⟩

/-- A step that was executed leads on unless it stopped the machine. -/
theorem stepRefusal?_stepOnce_eq_none_iff (h : s.simulator.stepRefusal? = none) :
    s.stepOnce.simulator.stepRefusal? = none ↔ ¬ s.simulator.machine.step.2.Stopped := by
  have hloaded := (Simulator.stepRefusal?_eq_none_iff.mp h).1
  have hloaded' : s.stepOnce.simulator.loaded = true := by
    rw [simulator_stepOnce_of_ready h]
    exact s.simulator.loaded_advance.trans hloaded
  rw [Simulator.stepRefusal?_eq_none_iff_going, (executes_stepOnce h).machine]
  exact and_iff_right hloaded'

/-- A step schedules nothing. -/
theorem schedule?_stepOnce (h : s.simulator.schedule? = none) :
    s.stepOnce.simulator.schedule? = none := by
  cases hready : s.simulator.stepRefusal? with
  | some refusal =>
    rw [simulator_stepOnce_of_refusal (by rw [hready]; nofun)]
    exact h
  | none =>
    rw [simulator_stepOnce_of_ready hready]
    refine (s.simulator.schedule?_advance).trans ?_
    rw [h, ite_self]

/-! ## 3. Many steps -/

/-- **Where one step leads nowhere**, many steps are one, but for what is said. -/
theorem stepMany_of_stuck (h : s.stepOnce.simulator.stepRefusal? ≠ none) (count : Nat) :
    s.stepOnce.Aside (s.stepMany (count + 1)) := by
  rw [stepMany]
  dsimp only
  cases (s.ask .step).1.complaint? with
  | some text => exact .complain _ _
  | none =>
    have hstatus : s.stepOnce.simulator.status ≠ .paused := by
      intro hpaused
      rw [Simulator.stepRefusal?_eq_status, hpaused] at h
      exact h rfl
    have hstops : (if s.stepOnce.simulator.status = .paused then s.stepOnce.stepMany count
        else s.stepOnce) = s.stepOnce := if_neg hstatus
    exact hstops.symm ▸ .refl s.stepOnce

/-- **Where one step leads on**, the others follow. -/
theorem stepMany_of_going (hschedule : s.simulator.schedule? = none)
    (h : s.stepOnce.simulator.stepRefusal? = none) (count : Nat) :
    s.stepMany (count + 1) = s.stepOnce.stepMany count := by
  have hready := ready_of_stepOnce h
  have hstepped := h
  rw [simulator_stepOnce_of_ready hready] at hstepped
  have hanswer : (s.ask .step).1.complaint? = none := by
    rw [ask, Simulator.respond, Simulator.step_of_ready hready]
    exact Simulator.complaint?_advance hstepped
  have hsteps : 0 < s.stepOnce.simulator.steps := by
    rw [(executes_stepOnce hready).steps]
    exact Nat.succ_pos _
  have hstatus : s.stepOnce.simulator.status = .paused := by
    obtain ⟨hloaded, hhalted, hwaiting⟩ := Simulator.stepRefusal?_eq_none_iff.mp h
    simp [Simulator.status, hloaded, hhalted, hwaiting, schedule?_stepOnce hschedule, hsteps]
  rw [stepMany]
  dsimp only
  rw [hanswer]
  exact if_pos hstatus

/-- After a flush there is nothing new to report. -/
theorem alike_flush_flush (s : Session) : s.flush.Alike s.flush.flush := by
  have hfirst := flushes_flush s
  have hagain := flushes_flush s.flush
  have hmachine : s.flush.simulator.machine = s.simulator.machine := by
    rw [hfirst.simulator]
    rfl
  have hwritten : s.flush.unwritten = [] := by
    rw [unwritten, hmachine, hfirst.printed]
    exact List.drop_eq_nil_of_le (by simp)
  refine ⟨?_, ?_, ?_⟩
  · rw [hagain.simulator, hfirst.simulator]
    rfl
  · rw [hagain.printed, hfirst.printed, hmachine]
  · rw [hagain.stdout, hwritten, lines_nil, String.append_empty]

/-- Steps lead nowhere after one that did, and leave nothing to report. -/
theorem Alike.stepMany_of_stuck (hstuck : s.stepOnce.simulator.stepRefusal? ≠ none)
    (h : s.stepOnce.Alike t) (count : Nat) : s.stepOnce.Alike (t.stepMany count) := by
  cases count with
  | zero => exact h
  | succ count =>
    have hrefusal : t.simulator.stepRefusal? ≠ none := by rwa [h.simulator]
    obtain ⟨refusal, hrefused⟩ := Option.ne_none_iff_exists'.mp hrefusal
    have hasked : (t.ask .step).2 = t := by
      rw [Session.ask, Simulator.respond, Simulator.step_of_refusal hrefused]
    have hflushed : s.stepOnce.Alike t.stepOnce := by
      rw [stepOnce, stepOnce, hasked]
      exact (alike_flush_flush _).trans h.flush
    have hnowhere : t.stepOnce.simulator.stepRefusal? ≠ none := by rwa [hflushed.simulator]
    exact hflushed.trans (Session.stepMany_of_stuck hnowhere count).alike

/-- **Many steps and many more** are as many steps together, whatever is said in between.  The
induction is on the first of them. -/
theorem alike_stepMany_add (hschedule : s.simulator.schedule? = none) (first more : Nat)
    (h : (s.stepMany first).Alike t) : (t.stepMany more).Alike (s.stepMany (first + more)) := by
  induction first generalizing s with
  | zero =>
    rw [Nat.zero_add]
    exact (lockstep_alike.stepMany more h).symm
  | succ first ih =>
    rw [Nat.succ_add]
    by_cases hgoing : s.stepOnce.simulator.stepRefusal? = none
    · rw [stepMany_of_going hschedule hgoing] at h ⊢
      exact ih (schedule?_stepOnce hschedule) h
    · have hfirst : s.stepOnce.Alike t := (stepMany_of_stuck hgoing first).alike.trans h
      exact (hfirst.stepMany_of_stuck hgoing more).symm.trans
        (stepMany_of_stuck hgoing (first + more)).alike

/-- A step and so many are one more. -/
theorem executes_succ (hready : s.simulator.stepRefusal? = none) {count : Nat} {t : Simulator}
    (h : s.stepOnce.simulator.Executes count t) : s.simulator.Executes (count + 1) t := by
  obtain ⟨hmachine, hsteps⟩ := executes_stepOnce hready
  refine ⟨?_, ?_⟩
  · rw [h.machine, hmachine]
    rfl
  · rw [h.steps, hsteps, Nat.add_right_comm, Nat.add_assoc]

/-- **How far many steps get**: as far as they go, unless the machine is stopped before, and then
just so far. -/
theorem exists_executes_stepMany (hschedule : s.simulator.schedule? = none)
    (hready : s.simulator.stepRefusal? = none) (count : Nat) :
    ∃ executed ≤ count, s.simulator.Executes executed (s.stepMany count).simulator ∧
      (∀ i < executed, 0 < i → ¬ (s.simulator.machine.afterSteps i).Stopped) ∧
        (executed < count → s.simulator.machine.StopsAt executed) := by
  induction count generalizing s with
  | zero => exact ⟨0, Nat.le_refl 0, ⟨rfl, rfl⟩, nofun, nofun⟩
  | succ count ih =>
    have hone := executes_stepOnce hready
    by_cases hgoing : s.stepOnce.simulator.stepRefusal? = none
    · have hnot := (stepRefusal?_stepOnce_eq_none_iff hready).mp hgoing
      obtain ⟨executed, hle, hexecutes, hbefore, hstops⟩ := ih (schedule?_stepOnce hschedule) hgoing
      rw [hone.machine] at hbefore hstops
      have hlater : ∀ i < executed + 1, 0 < i →
          ¬ (s.simulator.machine.afterSteps i).Stopped := by
        intro i hi _
        obtain ⟨j, rfl⟩ : ∃ j, i = j + 1 := ⟨i - 1, by omega⟩
        cases j with
        | zero => exact hnot
        | succ j => exact hbefore (j + 1) (by omega) (Nat.succ_pos j)
      refine ⟨executed + 1, by omega, ?_, hlater, fun hlt => ?_⟩
      · rw [stepMany_of_going hschedule hgoing]
        exact executes_succ hready hexecutes
      · exact ⟨Nat.succ_pos _, (hstops (by omega)).2.1, hlater⟩
    · have hstopped : (s.simulator.machine.afterSteps 1).Stopped :=
        Classical.not_not.mp fun hnot =>
          hgoing ((stepRefusal?_stepOnce_eq_none_iff hready).mpr hnot)
      refine ⟨1, by omega, ?_, by omega, fun _ => ⟨Nat.one_pos, hstopped, by omega⟩⟩
      rw [(stepMany_of_stuck hgoing count).simulator]
      exact hone

/-- So the steps that are executed are those up to the one that stops the machine. -/
theorem executes_stepMany (hschedule : s.simulator.schedule? = none)
    (hready : s.simulator.stepRefusal? = none) (count : Nat) :
    (∀ last, s.simulator.machine.StopsAt last →
        s.simulator.Executes (min count last) (s.stepMany count).simulator) ∧
      ((∀ last, ¬ s.simulator.machine.StopsAt last) →
        s.simulator.Executes count (s.stepMany count).simulator) := by
  obtain ⟨executed, hle, hexecutes, hbefore, hstops⟩ :=
    exists_executes_stepMany hschedule hready count
  rcases Nat.lt_or_eq_of_le hle with hlt | rfl
  · refine ⟨fun last hlast => ?_, fun hnone => absurd (hstops hlt) (hnone executed)⟩
    rwa [hlast.unique (hstops hlt), Nat.min_eq_right hle]
  · refine ⟨fun last hlast => ?_, fun _ => hexecutes⟩
    have hle : executed ≤ last :=
      Nat.le_of_not_lt fun hlt => hbefore last hlt hlast.1 hlast.2.1
    rwa [Nat.min_eq_left hle]

/-- Nothing is executed where the first step is refused. -/
theorem executes_stepMany_of_refusal (h : s.simulator.stepRefusal? ≠ none) (count : Nat) :
    s.simulator.Executes 0 (s.stepMany count).simulator := by
  cases count with
  | zero => exact ⟨rfl, rfl⟩
  | succ count =>
    have hnowhere := simulator_stepOnce_of_refusal h
    rw [(stepMany_of_stuck (by rwa [hnowhere]) count).simulator, hnowhere]
    exact ⟨rfl, rfl⟩

/-! ## 4. Runs -/

/-- Whether `t` **runs** where `s` only could: a step is scheduled, and the line may say so. -/
structure Runs (s t : Session) : Prop where
  ready : s.simulator.stepRefusal? = none
  unscheduled : s.simulator.schedule? = none
  simulator : ∃ schedule line,
    t.simulator = { s.simulator with schedule? := some schedule, statusLine := line }
  printed : t.printed = s.printed
  stdout : t.console.stdout = s.console.stdout

/-- **A tick is a step**: either it was the last one of the run, or the run goes on. -/
theorem Runs.tick (h : s.Runs t) {schedule : Schedule}
    (hschedule : t.simulator.schedule? = some schedule) :
    s.stepOnce.simulator.stepRefusal? ≠ none ∧ s.stepOnce.Alike (t.tick schedule) ∨
      s.stepOnce.Runs (t.tick schedule) := by
  obtain ⟨schedule', line, hsame⟩ := h.simulator
  obtain rfl : schedule' = schedule := by
    rw [hsame] at hschedule
    exact Option.some.inj hschedule
  obtain ⟨schedule?, htick, hstops⟩ :=
    Simulator.tick_beside h.ready (Int.le_max_right t.clock schedule'.due) line
  rw [← hsame] at htick
  have hasked : (s.ask .step).2.simulator = s.simulator.advance.2 :=
    congrArg Prod.snd (Simulator.step_of_ready h.ready)
  have hticked : (t.ask (.tick (max t.clock schedule'.due))).2.simulator =
      { s.simulator.advance.2 with schedule? := schedule? } := htick
  have hmachine : (t.ask (.tick (max t.clock schedule'.due))).2.simulator.machine =
      (s.ask .step).2.simulator.machine := by rw [hticked, hasked]
  obtain ⟨hprinted, hstdout⟩ := written_flush (s := (s.ask .step).2)
    (t := { (t.ask (.tick (max t.clock schedule'.due))).2 with
      clock := max t.clock schedule'.due }) hmachine h.printed h.stdout
  have hsimulator : (t.tick schedule').simulator =
      { s.stepOnce.simulator with schedule? := schedule? } := by
    rw [simulator_stepOnce_of_ready h.ready]
    refine (flushes_flush _).simulator.trans ?_
    dsimp only
    rw [hticked]
    rfl
  have hnone := schedule?_stepOnce h.unscheduled
  by_cases hgoing : s.stepOnce.simulator.stepRefusal? = none
  · have hsome : schedule? ≠ none := fun hnone =>
      (stepRefusal?_stepOnce_eq_none_iff h.ready).mp hgoing (hstops.mp hnone)
    obtain ⟨next, rfl⟩ := Option.ne_none_iff_exists'.mp hsome
    exact .inr ⟨hgoing, hnone, ⟨next, _, hsimulator⟩, hprinted, hstdout⟩
  · have hstopped : s.simulator.machine.step.2.Stopped := Classical.not_not.mp fun hnot =>
      hgoing ((stepRefusal?_stepOnce_eq_none_iff h.ready).mpr hnot)
    rw [hstops.mpr hstopped, ← hnone] at hsimulator
    exact .inl ⟨hgoing, hsimulator, hprinted, hstdout⟩

/-- **A run ends where so many steps do.**  The induction is on the limit; in each turn the run
ticks and the other session steps. -/
theorem Runs.drive {limit : Nat} (h : s.Runs t) (hended : t.drive limit = some u) :
    ∃ count, 0 < count ∧ s.simulator.Executes count u.simulator ∧ (s.stepMany count).Alike u := by
  induction limit generalizing s t with
  | zero => cases hended
  | succ limit ih =>
    obtain ⟨schedule, line, hsame⟩ := h.simulator
    have hschedule : t.simulator.schedule? = some schedule := by rw [hsame]
    rw [Session.drive, hschedule] at hended
    rcases h.tick hschedule with ⟨hstuck, halike⟩ | hruns
    · cases limit with
      | zero => cases hended
      | succ limit =>
        have hnone : (t.tick schedule).simulator.schedule? = none := by
          rw [halike.simulator]
          exact schedule?_stepOnce h.unscheduled
        dsimp only at hended
        rw [Session.drive, hnone] at hended
        obtain rfl := Option.some.inj hended
        refine ⟨1, Nat.one_pos, ?_, (stepMany_of_stuck hstuck 0).alike.symm.trans halike⟩
        rw [halike.simulator]
        exact executes_stepOnce h.ready
    · obtain ⟨count, -, hexecutes, halike⟩ := ih hruns hended
      refine ⟨count + 1, Nat.succ_pos _, executes_succ h.ready hexecutes, ?_⟩
      rwa [stepMany_of_going h.unscheduled hruns.ready]

/-- A run that is accepted goes on from there. -/
theorem runs_ask (h : s.simulator.schedule? = none) {milliseconds : Nat} {now : Time}
    (hdone : (s.ask (.run milliseconds now)).1 = .done) :
    s.Runs (s.ask (.run milliseconds now)).2 := by
  have hrun : (s.simulator.run milliseconds now).1 = .done := hdone
  cases hrefusal : s.simulator.runRefusal? with
  | some refusal =>
    rw [Simulator.run, hrefusal] at hrun
    cases hrun
  | none =>
    have hready := (Simulator.runRefusal?_eq_none_iff.mp hrefusal).2
    refine ⟨hready, h, ⟨.starting milliseconds now, .running, ?_⟩, rfl, rfl⟩
    rw [ask, Simulator.respond, Simulator.run, hrefusal]

/-- So does the command to run: it does what so many steps do. -/
theorem alike_runToEnd (h : s.simulator.schedule? = none) {limit : Nat} {interval? : Option Nat}
    (hdone : (s.ask (.run (interval?.getD s.interval) s.clock)).1 = .done)
    (hended : s.runToEnd limit interval? = some u) :
    ∃ count, 0 < count ∧ s.simulator.Executes count u.simulator ∧ (s.stepMany count).Alike u := by
  rw [runToEnd] at hended
  dsimp only at hended
  rw [hdone] at hended
  obtain ⟨stopped, hstopped, rfl⟩ := Option.map_eq_some_iff.mp hended
  obtain ⟨count, hpos, hexecutes, halike⟩ := (runs_ask h hdone).drive hstopped
  exact ⟨count, hpos, hexecutes, halike.trans (Aside.reportStatus stopped).alike⟩

/-! ## 5. Commands -/

/-- The sessions that **a debugger** leads to: those that have begun, and then those after a
command, or after something was said. -/
inductive InDebugger : Session → Prop
  | start (p : Program) (options : Options) : InDebugger (.start p options)
  | execute {s t : Session} {limit : Nat} {command : Command} (before : InDebugger s)
      (executed : s.execute limit command = some t) : InDebugger t
  | aside {s t : Session} (before : InDebugger s) (said : s.Aside t) : InDebugger t

/-- They are those that lines of commands lead to. -/
theorem InDebugger.obey (h : s.InDebugger) {limit : Nat} {source : CommandSource}
    {lines : List String} (hended : s.obey limit source lines = some t) : t.InDebugger := by
  induction lines generalizing s with
  | nil =>
    obtain rfl := Option.some.inj hended
    exact h.aside (.awaitCommand source s)
  | cons line rest ih =>
    have hread := h.aside ((Aside.awaitCommand source s).trans (.commandRead source _))
    rw [obey_cons] at hended
    dsimp only at hended
    split at hended
    · exact ih hread hended
    · split at hended
      · split at hended
        · obtain rfl := Option.some.inj hended
          exact hread
        · obtain ⟨executed, hexecuted, hrest⟩ := Option.bind_eq_some_iff.mp hended
          exact ih (hread.execute hexecuted) hrest
      · exact ih (hread.aside (.complain _ _)) hended

/-- Whether a session stands beside itself **with nothing scheduled**. -/
structure Unscheduled (s t : Session) : Prop where
  same : t = s
  unscheduled : s.simulator.schedule? = none

/-- What is said schedules nothing. -/
theorem Unscheduled.said (f : Session → Session) (haside : ∀ s : Session, s.Aside (f s))
    (h : s.Unscheduled t) : (f s).Unscheduled (f t) where
  same := congrArg f h.same
  unscheduled := by rw [(haside s).simulator, h.unscheduled]

theorem schedule?_flush (s : Session) : s.flush.simulator.schedule? = s.simulator.schedule? := by
  rw [(flushes_flush s).simulator]
  rfl

/-- Between two runs nothing is asked for that schedules anything. -/
theorem Puts.schedule? {Sayable : String → Prop} {request : Request} (hputs : Puts Sayable request)
    (h : s.simulator.schedule? = none) : (s.ask request).2.simulator.schedule? = none := by
  cases hputs with
  | step => exact (schedule?_flush _).symm.trans (schedule?_stepOnce h)
  | provideInput _ =>
    rw [ask, Simulator.respond]
    cases hpending : s.simulator.machine.pending with
    | none =>
      rw [Simulator.provideInput, hpending]
      exact h
    | some pending =>
      rw [Simulator.provideInput_of_pending hpending]
      exact h
  | reset => rfl
  | restart =>
    rw [ask, Simulator.respond, Simulator.restart]
    cases s.simulator.program? with
    | none => exact h
    | some p => rfl

/-- **A session beside itself** is unscheduled whenever it rests: a run ends when there is no
schedule. -/
theorem lockstep_unscheduled : Lockstep Unscheduled (fun s t => t = s) fun _ => True where
  symm h := ⟨h.same.symm, by rw [h.same, h.unscheduled]⟩
  simulator h := congrArg simulator h.same
  ask hputs h := by
    obtain ⟨rfl, h⟩ := h
    exact ⟨rfl, fun _ _ => trivial, rfl, hputs.schedule? h⟩
  complain {_ _ text} _ h := h.said (·.complain text) (.complain · text)
  flush h := ⟨congrArg flush h.same, (schedule?_flush _).trans h.unscheduled⟩
  rewind h := ⟨congrArg rewind h.same, h.unscheduled⟩
  reportStatus h := h.said Session.reportStatus .reportStatus
  reportHalt h := h.said Session.reportHalt .reportHalt
  giveUp h := h.said Session.giveUp .giveUp
  hear answer h := h.said (Session.hear answer) (.hear answer)
  awaitCommand source h := h.said (Session.awaitCommand source) (.awaitCommand source)
  commandRead source h := h.said (Session.commandRead source) (.commandRead source)
  shows {_ t _} hshows h := by
    obtain ⟨rfl, h⟩ := h
    obtain ⟨shown, haside, hshown⟩ := execute_of_shows hshows t
    simp only [hshown]
    exact .at_once ⟨rfl, by rw [haside.simulator, h]⟩
  begins _ h := by
    obtain ⟨rfl, -⟩ := h
    exact ⟨rfl, fun _ _ => trivial, rfl⟩
  refused _ h hrefused := by
    obtain ⟨rfl, h⟩ := h
    exact ⟨rfl, (congrArg Simulator.schedule? (Simulator.run_of_refused hrefused)).trans h⟩
  scheduled h := by rw [h]
  tick h hs ht := by
    subst h
    obtain rfl := Option.some.inj (hs.symm.trans ht)
    rfl
  stops h hs := ⟨h, hs⟩
  silence := trivial
  reads _ _ := trivial
  misreads _ _ := trivial

/-- **Nothing is scheduled between two commands.** -/
theorem InDebugger.unscheduled (h : s.InDebugger) : s.simulator.schedule? = none := by
  induction h with
  | start p options => rfl
  | @execute s t limit command before executed ih =>
    obtain ⟨t', ht', rfl, hunscheduled⟩ :=
      lockstep_unscheduled.execute (fun _ _ => trivial) ⟨rfl, ih⟩ limit t executed limit
        (Nat.le_refl limit)
    exact hunscheduled
  | aside before said ih => rw [said.simulator, ih]

end Session

/-- **The command to step so many times**, as it is written.  A count has up to 32 bits. -/
theorem Command.parse_step {count : Nat} (hpos : 0 < count) (hlt : count < 2 ^ 32) :
    parse ("step " ++ Text.decimal count) = .ok (.step count) := by
  obtain ⟨before, rfl⟩ : ∃ before, count = before + 1 := ⟨count - 1, by omega⟩
  have hline : ("step " ++ Text.decimal (before + 1)).toList =
      ['s', 't', 'e', 'p'] ++ ' ' :: (Text.decimal (before + 1)).toList := by
    rw [String.toList_append]
    rfl
  have hname : Text.words ['s', 't', 'e', 'p'] = [['s', 't', 'e', 'p']] := by decide +kernel
  have hwords : (Text.words ("step " ++ Text.decimal (before + 1)).toList).map String.ofList =
      ["step", Text.decimal (before + 1)] := by
    rw [hline, Text.words_append_cons _ _ (by decide), hname, Text.words_decimal,
      List.singleton_append, List.map_cons, List.map_singleton, String.ofList_toList]
  have hlower : Text.lower "step" = "step" := by decide
  have hcount : Text.countBelow? (.pow 2 32) (Text.decimal (before + 1)).toList =
      some (before + 1) := Text.countBelow?_decimal hlt
  rw [parse, hwords]
  dsimp only
  unfold ofWords
  rw [hlower]
  simp only [parseStep, stepCount, hcount]
  rfl

namespace Session

/-- **Running is stepping.**  In every session that a debugger leads to, so many steps and as many
more leave what they leave when they are asked for together, which is the same simulator with its
machine, status and status line, and the same output.  A run that is accepted, at whatever interval,
and that ends, has executed a number of instructions, and leaves what so many steps leave.  Steps
that are asked for are executed up to the instruction that stops the machine, or all of them if none
does; in a machine that is not loaded or has stopped none is executed.  And all these counts can be
written as commands if they have no more than 32 bits. -/
theorem running_is_stepping {s : Session} (h : s.InDebugger) (limit : Nat) :
    (∀ first more, ∃ t u v, s.execute limit (.step first) = some t ∧
      t.execute limit (.step more) = some u ∧
      s.execute limit (.step (first + more)) = some v ∧ u.Alike v) ∧
    (∀ limit' interval? t,
      (s.ask (.run (interval?.getD s.interval) s.clock)).1 = .done →
      s.execute limit' (.run interval?) = some t →
      ∃ count, 0 < count ∧ s.simulator.Executes count t.simulator ∧
        ∃ u, s.execute limit (.step count) = some u ∧ t.Alike u) ∧
    (∀ count, 0 < count → ∃ t, s.execute limit (.step count) = some t ∧
      (s.simulator.loaded = false ∨ s.simulator.machine.Stopped →
        s.simulator.Executes 0 t.simulator) ∧
      (s.simulator.loaded = true → ¬ s.simulator.machine.Stopped →
        (∀ last, s.simulator.machine.StopsAt last →
          s.simulator.Executes (min count last) t.simulator) ∧
        ((∀ last, ¬ s.simulator.machine.StopsAt last) →
          s.simulator.Executes count t.simulator))) ∧
    ∀ count, 0 < count → count < 2 ^ 32 →
      Command.parse ("step " ++ Text.decimal count) = .ok (.step count) := by
  have hschedule := h.unscheduled
  refine ⟨fun first more => ?_, fun limit' interval? t hdone hended => ?_, fun count hpos => ?_,
    fun count hpos hlt => Command.parse_step hpos hlt⟩
  · refine ⟨_, _, _, rfl, rfl, rfl, ?_⟩
    exact (alike_stepMany_add hschedule first more (Aside.reportStatus _).alike).aside
      (.reportStatus _) (.reportStatus _)
  · obtain ⟨count, hpos, hexecutes, halike⟩ := alike_runToEnd hschedule hdone hended
    exact ⟨count, hpos, hexecutes, _, rfl, halike.symm.trans (Aside.reportStatus _).alike⟩
  · refine ⟨_, rfl, fun hcannot => ?_, fun hloaded hgoes => ?_⟩
    · have hrefusal : s.simulator.stepRefusal? ≠ none := fun hready => by
        obtain ⟨hloaded, hgoes⟩ := Simulator.stepRefusal?_eq_none_iff_going.mp hready
        rw [hloaded] at hcannot
        exact hcannot.elim nofun hgoes
      rw [(Aside.reportStatus _).simulator]
      exact executes_stepMany_of_refusal hrefusal count
    · have hready := Simulator.stepRefusal?_eq_none_iff_going.mpr ⟨hloaded, hgoes⟩
      rw [(Aside.reportStatus _).simulator]
      exact executes_stepMany hschedule hready count

/-- A session with a program that adds one, and then halts. -/
def halting : Session :=
  start ⟨[⟨0x2001, .immediateAlu⟩, ⟨0xF000, .halt⟩], .empty⟩ ⟨true, false, true, 5⟩

/-- The second instruction stops the machine, whether there is a run, or more steps than are left,
or the steps are asked for in two commands. -/
theorem running_is_stepping_halting :
    halting.InDebugger ∧
      (∃ t u v, halting.execute 0 (.step 1) = some t ∧ t.execute 0 (.step 7) = some u ∧
        halting.execute 0 (.step 8) = some v ∧ u.Alike v) ∧
      (∃ t u, halting.execute 9 (.run (some 3)) = some t ∧ halting.execute 0 (.step 2) = some u ∧
        t.Alike u) ∧
      ∃ t, halting.execute 0 (.step 8) = some t ∧ halting.simulator.Executes 2 t.simulator ∧
        Command.parse "step 8" = .ok (.step 8) := by
  have hbegun : halting.InDebugger := .start _ _
  obtain ⟨hadd, hrun, hcount, hparse⟩ := running_is_stepping hbegun 0
  have hstops : halting.simulator.machine.StopsAt 2 := by decide +kernel
  obtain ⟨t, ht, -, hexecuted⟩ := hcount 8 (by decide)
  have hended : (halting.execute 9 (.run (some 3))).map (·.simulator.steps) = some 2 := by
    decide +kernel
  obtain ⟨stopped, hstopped, hsteps⟩ := Option.map_eq_some_iff.mp hended
  obtain ⟨count, -, hexecutes, u, hu, halike⟩ := hrun 9 (some 3) stopped rfl hstopped
  obtain rfl : count = 2 := by
    have htotal := hexecutes.steps
    rw [hsteps] at htotal
    exact (htotal.trans (Nat.zero_add count)).symm
  exact ⟨hbegun, hadd 1 7, ⟨stopped, u, hstopped, hu, halike⟩, t, ht,
    (hexecuted rfl (by decide)).1 2 hstops, hparse 8 (by decide) (by decide)⟩

end Session
end PredicatedCpu

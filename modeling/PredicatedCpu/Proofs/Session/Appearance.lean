/-
# Options are a matter of appearance

Four options change how a session looks: whether it traces, whether it is minimal, whether it has
colours, and how long it waits between two steps.  They are read all over it, in the middle of what
it does: in what is said of an entry of the journal, in every prompt, and in the schedule of every
run, by which the simulator goes.  A session that is read by a program must still be the one that a
person sees.

Two sessions with different options part in two ways only.  What they have said beside the output is
different for good, and nothing that is done later depends on it.  The times of their schedules are
different for as long as a run lasts, but each of them waits for its own, so that both execute the
same steps, and at the end of the run there is no schedule.

* `Simulator.SameButTimes`: two simulators whose schedules go by different times;
* `Alike`: two sessions that differ in what was said and in how they say it; `Abreast`: two such
  sessions during a run;
* `Abreast.tick`, `Alike.ask`: a run goes on abreast, and between two runs they stay alike;
* `lockstep_alike`: so they go in lockstep, through commands and through answers;
* `options_unseen`: no option is seen in the machine or on the output.
-/
import PredicatedCpu.Proofs.Session.Lockstep
import PredicatedCpu.Proofs.Simulator.Status

namespace PredicatedCpu

/-! ## 1. Times -/

namespace Simulator

/-- Whether two simulators differ in nothing but **the times of a schedule**: if one has a schedule,
so has the other. -/
def SameButTimes (s t : Simulator) : Prop :=
  ∃ schedule?, t = { s with schedule? := schedule? } ∧ schedule?.isSome = s.schedule?.isSome

theorem SameButTimes.refl (s : Simulator) : s.SameButTimes s := ⟨s.schedule?, rfl, rfl⟩

/-- A schedule has no say in what is executed, and lasts as long as the machine can go on. -/
theorem advance_schedule (s : Simulator) (schedule? : Option Schedule) :
    { s with schedule? := schedule? }.advance =
      (s.advance.1,
        { s.advance.2 with
          schedule? :=
            if s.machine.step.2.halted || s.machine.step.2.waiting then none else schedule? }) := by
  unfold advance
  dsimp only
  rcases s.machine.step with ⟨fault | effect, m⟩
  · rfl
  · simp only [foldl_record]
    rfl

theorem run_of_refused {s : Simulator} {milliseconds : Nat} {now : Time}
    (h : (s.run milliseconds now).1 ≠ .done) : (s.run milliseconds now).2 = s := by
  unfold run at h ⊢
  cases hrefusal : s.runRefusal? with
  | some refusal => rfl
  | none =>
    rw [hrefusal] at h
    exact absurd rfl h

namespace SameButTimes

variable {s t : Simulator}

theorem machine (h : s.SameButTimes t) : t.machine = s.machine := by
  obtain ⟨schedule?, rfl, -⟩ := h
  rfl

theorem isSome_schedule? (h : s.SameButTimes t) : t.schedule?.isSome = s.schedule?.isSome := by
  obtain ⟨schedule?, rfl, hsome⟩ := h
  exact hsome

/-- Without a schedule there is no difference. -/
theorem eq_of_unscheduled (h : s.SameButTimes t) (hs : s.schedule? = none) : t = s := by
  obtain ⟨schedule?, rfl, hsome⟩ := h
  rw [hs, Option.isSome_none, Option.isSome_eq_false_iff, Option.isNone_iff_eq_none] at hsome
  rw [hsome, ← hs]

theorem drain (h : s.SameButTimes t) : s.drain.2.SameButTimes t.drain.2 := by
  obtain ⟨schedule?, rfl, hsome⟩ := h
  exact ⟨schedule?, rfl, hsome⟩

theorem step (h : s.SameButTimes t) : t.step.1 = s.step.1 ∧ s.step.2.SameButTimes t.step.2 := by
  obtain ⟨schedule?, rfl, hsome⟩ := h
  have hrefusal : { s with schedule? := schedule? }.stepRefusal? = s.stepRefusal? := rfl
  cases hready : s.stepRefusal? with
  | some refusal =>
    rw [step_of_refusal hready, step_of_refusal (hrefusal.trans hready)]
    exact ⟨rfl, schedule?, rfl, hsome⟩
  | none =>
    rw [step_of_ready hready, step_of_ready (hrefusal.trans hready), advance_schedule]
    refine ⟨rfl, _, rfl, ?_⟩
    rw [schedule?_advance]
    split
    · rfl
    · exact hsome

/-- **A tick at the right time** does the same whatever that time is. -/
theorem tick (h : s.SameButTimes t) {schedule schedule' : Schedule}
    (hs : s.schedule? = some schedule) (ht : t.schedule? = some schedule') {now now' : Time}
    (hdue : schedule.due ≤ now) (hdue' : schedule'.due ≤ now') :
    (s.tick now).2.SameButTimes (t.tick now').2 := by
  have hmoved : SameButTimes
      { s with schedule? := some ⟨schedule.interval, now + schedule.interval⟩ }
      { t with schedule? := some ⟨schedule'.interval, now' + schedule'.interval⟩ } := by
    obtain ⟨schedule?, rfl, -⟩ := h
    exact ⟨_, rfl, rfl⟩
  obtain ⟨hanswer, hstepped⟩ := hmoved.step
  rw [Simulator.tick, Simulator.tick, hs, ht]
  simp only [if_neg (Int.not_lt.mpr hdue), if_neg (Int.not_lt.mpr hdue')]
  generalize Simulator.step { s with schedule? := some _ } = stepped at hanswer hstepped ⊢
  generalize Simulator.step { t with schedule? := some _ } = stepped' at hanswer hstepped ⊢
  obtain ⟨response, s'⟩ := stepped
  obtain ⟨response', t'⟩ := stepped'
  obtain rfl : response' = response := hanswer
  cases response' with
  | executed effect => exact hstepped
  | _ =>
    obtain ⟨schedule?, rfl, -⟩ := hstepped
    exact ⟨none, rfl, rfl⟩

/-- A run begins at any time and with any interval, or with none. -/
theorem run (s : Simulator) (milliseconds milliseconds' : Nat) (now now' : Time) :
    (s.run milliseconds' now').1 = (s.run milliseconds now).1 ∧
      (s.run milliseconds now).2.SameButTimes (s.run milliseconds' now').2 := by
  unfold Simulator.run
  cases s.runRefusal? with
  | some refusal => exact ⟨rfl, .refl s⟩
  | none =>
    refine ⟨rfl, some (.starting milliseconds' now'), rfl, ?_⟩
    rw [Option.isSome_some, Option.isSome_some]

end SameButTimes
end Simulator

namespace Session

variable {s t : Session}

/-! ## 2. Sessions that are alike -/

/-- Whether two sessions are **alike**: they have done the same, and written the same output.  What
they have said, how they say it and what time it is for them is left open. -/
structure Alike (s t : Session) : Prop where
  simulator : t.simulator = s.simulator
  printed : t.printed = s.printed
  stdout : t.console.stdout = s.console.stdout

/-- Whether two sessions are **abreast**: they are alike, but their schedules may go by different
times. -/
structure Abreast (s t : Session) : Prop where
  simulator : s.simulator.SameButTimes t.simulator
  printed : t.printed = s.printed
  stdout : t.console.stdout = s.console.stdout

theorem Alike.refl (s : Session) : s.Alike s := ⟨rfl, rfl, rfl⟩

theorem Alike.symm (h : s.Alike t) : t.Alike s :=
  ⟨h.simulator.symm, h.printed.symm, h.stdout.symm⟩

theorem Alike.trans {u : Session} (h : s.Alike t) (h' : t.Alike u) : s.Alike u :=
  ⟨h'.simulator.trans h.simulator, h'.printed.trans h.printed, h'.stdout.trans h.stdout⟩

theorem Aside.alike (h : s.Aside t) : s.Alike t := ⟨h.simulator, h.printed, h.stdout⟩

theorem Alike.abreast (h : s.Alike t) : s.Abreast t :=
  ⟨h.simulator ▸ .refl _, h.printed, h.stdout⟩

theorem Abreast.alike (h : s.Abreast t) (hs : s.simulator.schedule? = none) : s.Alike t :=
  ⟨h.simulator.eq_of_unscheduled hs, h.printed, h.stdout⟩

/-- **What is said beside the output** makes no difference, even if each says something else. -/
theorem Alike.aside {s' t' : Session} (h : s.Alike t) (hs : s.Aside s') (ht : t.Aside t') :
    s'.Alike t' where
  simulator := by rw [ht.simulator, hs.simulator, h.simulator]
  printed := by rw [ht.printed, hs.printed, h.printed]
  stdout := by rw [ht.stdout, hs.stdout, h.stdout]

/-- **What a flush writes** is told by the machine and by how much of its output was written. -/
theorem written_flush (hmachine : t.simulator.machine = s.simulator.machine)
    (hprinted : t.printed = s.printed) (hstdout : t.console.stdout = s.console.stdout) :
    t.flush.printed = s.flush.printed ∧ t.flush.console.stdout = s.flush.console.stdout := by
  have hunwritten : t.unwritten = s.unwritten := by
    rw [Session.unwritten, Session.unwritten, hmachine, hprinted]
  rw [(flushes_flush s).printed, (flushes_flush t).printed, (flushes_flush s).stdout,
    (flushes_flush t).stdout, hmachine, hstdout, hunwritten]
  exact ⟨rfl, rfl⟩

theorem Abreast.flush (h : s.Abreast t) : s.flush.Abreast t.flush := by
  obtain ⟨hprinted, hstdout⟩ := written_flush h.simulator.machine h.printed h.stdout
  refine ⟨?_, hprinted, hstdout⟩
  rw [(flushes_flush s).simulator, (flushes_flush t).simulator]
  exact h.simulator.drain

theorem Alike.flush (h : s.Alike t) : s.flush.Alike t.flush := by
  have hflushed := h.abreast.flush
  refine ⟨?_, hflushed.printed, hflushed.stdout⟩
  rw [(flushes_flush s).simulator, (flushes_flush t).simulator, h.simulator]

/-- The same request is answered the same. -/
theorem Alike.ask (h : s.Alike t) (request : Request) :
    AnsweredAlike (fun _ => True) Alike (s.ask request) (t.ask request) := by
  simp only [Session.ask, h.simulator]
  exact ⟨rfl, fun _ _ => trivial, rfl, h.printed, h.stdout⟩

/-! ## 3. Runs -/

theorem Abreast.tick (h : s.Abreast t) {schedule schedule' : Schedule}
    (hs : s.simulator.schedule? = some schedule) (ht : t.simulator.schedule? = some schedule') :
    (s.tick schedule).Abreast (t.tick schedule') :=
  Abreast.flush
    ⟨h.simulator.tick hs ht (Int.le_max_right _ _) (Int.le_max_right _ _), h.printed, h.stdout⟩

/-- Sessions that are alike **begin a run together**. -/
theorem Alike.run (h : s.Alike t) (milliseconds milliseconds' : Nat) (now now' : Time) :
    AnsweredAlike (fun _ => True) Abreast (s.ask (.run milliseconds now))
      (t.ask (.run milliseconds' now')) := by
  obtain ⟨hanswer, hrun⟩ :=
    Simulator.SameButTimes.run s.simulator milliseconds milliseconds' now now'
  simp only [Session.ask, h.simulator]
  exact ⟨hanswer, fun _ _ => trivial, hrun, h.printed, h.stdout⟩

/-- If they are refused one, they are still alike. -/
theorem Alike.run_refused (h : s.Alike t) (milliseconds milliseconds' : Nat) (now now' : Time)
    (hrefused : (s.ask (.run milliseconds now)).1 ≠ .done) :
    (s.ask (.run milliseconds now)).2.Alike (t.ask (.run milliseconds' now')).2 := by
  obtain ⟨hanswer, -⟩ :=
    Simulator.SameButTimes.run s.simulator milliseconds milliseconds' now now'
  have hrefused' : (s.simulator.run milliseconds' now').1 ≠ .done :=
    fun hdone => hrefused (hanswer.symm.trans hdone)
  simp only [Session.ask, h.simulator]
  exact ⟨(Simulator.run_of_refused hrefused').trans (Simulator.run_of_refused hrefused).symm,
    h.printed, h.stdout⟩

/-! ## 4. In lockstep -/

/-- What only shows something makes no difference. -/
theorem Alike.shows {command : Command} (hshows : command.shows = true) (h : s.Alike t) :
    Follows Alike (s.execute · command) (t.execute · command) := by
  obtain ⟨shown, haside, hs⟩ := execute_of_shows hshows s
  obtain ⟨shown', haside', ht⟩ := execute_of_shows hshows t
  simp only [hs, ht]
  exact .at_once (h.aside haside haside')

/-- **Sessions that are alike stay so in lockstep**, whatever they read and say. -/
theorem lockstep_alike : Lockstep Alike Abreast fun _ => True where
  symm := Alike.symm
  simulator h := h.simulator
  ask _ h := h.ask _
  complain _ h := h.aside (.complain _ _) (.complain _ _)
  flush := Alike.flush
  rewind h := ⟨h.simulator, rfl, h.stdout⟩
  reportStatus h := h.aside (.reportStatus _) (.reportStatus _)
  reportHalt h := h.aside (.reportHalt _) (.reportHalt _)
  giveUp h := h.aside (.giveUp _) (.giveUp _)
  hear answer h := h.aside (.hear answer _) (.hear answer _)
  awaitCommand source h := h.aside (.awaitCommand source _) (.awaitCommand source _)
  commandRead source h := h.aside (.commandRead source _) (.commandRead source _)
  shows := Alike.shows
  begins _ h := h.run _ _ _ _
  refused _ h := h.run_refused _ _ _ _
  scheduled h := h.simulator.isSome_schedule?
  tick h := h.tick
  stops := Abreast.alike
  silence := trivial
  reads _ _ := trivial
  misreads _ _ := trivial

/-! ## 5. Options -/

theorem alike_start (p : Program) (options options' : Options) :
    (start p options).Alike (start p options') := ⟨rfl, rfl, rfl⟩

/-- **No option is seen in the machine or on the output.**  Let a session end, with a debugger or
without.  With any other options it ends as well, and however it is driven to its end, it ends with
the same simulator, that is with the same machine and everything the machine has sent, the same
status and status line; it has written the same output; and the same answers are left over. -/
theorem options_unseen (p : Program) (options options' : Options) (stdin : String) :
    (∀ source limit t, (start p options).runDebugged limit source stdin = some t →
      (∃ limit' t', (start p options').runDebugged limit' source stdin = some t') ∧
      ∀ limit' t', (start p options').runDebugged limit' source stdin = some t' →
        t'.simulator = t.simulator ∧ t'.console.stdout = t.console.stdout) ∧
    ∀ queued limit t rest, (start p options).runUnattended limit queued stdin = some (t, rest) →
      (∃ limit' ended, (start p options').runUnattended limit' queued stdin = some ended) ∧
      ∀ limit' t' rest',
        (start p options').runUnattended limit' queued stdin = some (t', rest') →
          t'.simulator = t.simulator ∧ t'.console.stdout = t.console.stdout ∧ rest' = rest := by
  have hstart := alike_start p options options'
  constructor
  · intro source limit t hended
    obtain ⟨hends, hsame⟩ := lockstep_alike.obey_same_end (fun _ _ => trivial) hstart hended
    exact ⟨hends, fun limit' t' hended' =>
      ⟨(hsame limit' t' hended').simulator, (hsame limit' t' hended').stdout⟩⟩
  · intro queued limit t rest hended
    obtain ⟨hends, hsame⟩ :=
      lockstep_alike.runUnattended_same_end (fun _ _ => trivial) hstart hended
    refine ⟨hends, fun limit' t' rest' hended' => ?_⟩
    obtain ⟨halike, hrest⟩ := hsame limit' (t', rest') hended'
    exact ⟨halike.simulator, halike.stdout, hrest⟩

/-- A program that sends back what it is given, and halts after the second time. -/
def sendingBack : Program :=
  ⟨[⟨0x01F0, .memory⟩, ⟨0x11F1, .memory⟩, ⟨0x01F0, .memory⟩, ⟨0x11F1, .memory⟩, ⟨0xF000, .halt⟩],
    .empty⟩

/-- It sends the same back with a trace, in colours and slowly, as it does without. -/
theorem options_unseen_sendingBack :
    (∃ t t', (start sendingBack ⟨true, false, true, 5⟩).runDebugged 9 .terminal
          "run\ninput 6\nstep 2\ninput -1\n\nrun 3" = some t ∧
        (∃ limit', (start sendingBack ⟨false, true, false, 0⟩).runDebugged limit' .terminal
          "run\ninput 6\nstep 2\ninput -1\n\nrun 3" = some t') ∧
        t'.simulator = t.simulator ∧ t'.console.stdout = "OUT 0x1F1: 6\nOUT 0x1F1: 65535\n") ∧
      ∃ t t' limit', (start sendingBack ⟨true, true, false, 0⟩).runUnattended 9 ["6"] "-1\n2\n" =
          some (t, [.typed "2"]) ∧
        (start sendingBack ⟨false, false, true, 5⟩).runUnattended limit' ["6"] "-1\n2\n" =
          some (t', [.typed "2"]) ∧
        t'.simulator = t.simulator ∧ t'.console.stdout = "OUT 0x1F1: 6\nOUT 0x1F1: 65535\n" := by
  constructor
  · have hstdout : ((start sendingBack ⟨true, false, true, 5⟩).runDebugged 9 .terminal
        "run\ninput 6\nstep 2\ninput -1\n\nrun 3").map (·.console.stdout) =
          some "OUT 0x1F1: 6\nOUT 0x1F1: 65535\n" := by decide +kernel
    obtain ⟨t, hended, hwritten⟩ := Option.map_eq_some_iff.mp hstdout
    obtain ⟨⟨limit', t', hended'⟩, hsame⟩ := (options_unseen sendingBack ⟨true, false, true, 5⟩
      ⟨false, true, false, 0⟩ "run\ninput 6\nstep 2\ninput -1\n\nrun 3").1 .terminal 9 t hended
    obtain ⟨hsimulator, hstdout'⟩ := hsame limit' t' hended'
    exact ⟨t, t', hended, ⟨limit', hended'⟩, hsimulator, hstdout'.trans hwritten⟩
  · have hstdout : ((start sendingBack ⟨true, true, false, 0⟩).runUnattended 9 ["6"]
        "-1\n2\n").map (fun ended => (ended.1.console.stdout, ended.2)) =
          some ("OUT 0x1F1: 6\nOUT 0x1F1: 65535\n", [.typed "2"]) := by decide +kernel
    obtain ⟨⟨t, rest⟩, hended, hwritten⟩ := Option.map_eq_some_iff.mp hstdout
    obtain ⟨hwritten, rfl⟩ := Prod.mk.inj hwritten
    obtain ⟨⟨limit', ⟨t', rest'⟩, hended'⟩, hsame⟩ := (options_unseen sendingBack
      ⟨true, true, false, 0⟩ ⟨false, false, true, 5⟩ "-1\n2\n").2 ["6"] 9 t _ hended
    obtain ⟨hsimulator, hstdout', rfl⟩ := hsame limit' t' rest' hended'
    exact ⟨t, t', limit', hended, hended', hsimulator, hstdout'.trans hwritten⟩

end Session
end PredicatedCpu

/-
# A standstill lasts

A machine that is halted is dead, and one that waits for input is dead until it gets some.  Much can
still be asked of its simulator that would execute an instruction elsewhere: a step, a tick of a
schedule that was left behind, a new run, another interval.  If one of them looked at less than the
others do, the machine would come back to life.

None does, for the same reason: a machine that cannot go on has no schedule, so that everything that
goes by the schedule finds nothing, and everything else asks the machine.

* `StandsStill`: no step can be executed and none is scheduled, as in a halted or a waiting machine;
* `StandsStill.respond`: what one request then changes, which is the journal at most;
* `StandsStill.afterAll`: so it is with many; `StandsStill.replaced_or_input`: what ends it;
* `standstill_lasts`: only a new machine ends a halt, and only that or its input ends a wait.
-/
import PredicatedCpu.Proofs.Simulator.Lifetime

namespace PredicatedCpu
namespace Simulator

/-! ## 1. Standing still -/

/-- Whether a simulator **stands still**: it refuses a step, and no step is to come. -/
structure StandsStill (s : Simulator) : Prop where
  refuses : s.stepRefusal? ≠ none
  unscheduled : s.schedule? = none

theorem Coherent.standsStill {s : Simulator} (h : s.Coherent)
    (hrefuses : s.status.stepRefusal? ≠ none) : s.StandsStill where
  refuses := by rwa [stepRefusal?_eq_status]
  unscheduled := by
    cases hschedule : s.schedule? with
    | none => rfl
    | some schedule =>
      rw [← stepRefusal?_eq_status] at hrefuses
      exact absurd (h.ready_of_schedule hschedule) hrefuses

/-- A run needs a machine that can be stepped. -/
theorem StandsStill.run {s : Simulator} (h : s.StandsStill) (milliseconds : Nat) (now : Time) :
    (s.run milliseconds now).2 = s := by
  unfold Simulator.run
  cases hrefusal : s.runRefusal? with
  | some refusal => rfl
  | none => exact absurd (runRefusal?_eq_none_iff.mp hrefusal).2 h.refuses

/-- **What a request changes** in a simulator that stands still: the journal at most, unless it
replaces the machine, or is the input that the machine waits for. -/
theorem StandsStill.respond {s : Simulator} (h : s.StandsStill) {request : Request}
    (hstays : request.replaces (s.respond request).1 = false)
    (hinput : s.machine.waiting = true → ∀ text, request ≠ .provideInput text) :
    ∃ journal, (s.respond request).2 = { s with journal := journal } := by
  rcases driving_or_failed hstays with hdriving | ⟨-, -, hsame⟩
  · cases request with
    | step =>
      obtain ⟨refusal, hrefusal⟩ := Option.ne_none_iff_exists'.mp h.refuses
      rw [Simulator.respond, step_of_refusal hrefusal]
      exact ⟨s.journal, rfl⟩
    | run milliseconds now =>
      rw [Simulator.respond, h.run]
      exact ⟨s.journal, rfl⟩
    | setInterval milliseconds now =>
      rw [Simulator.respond, setInterval_of_unscheduled h.unscheduled]
      exact ⟨s.journal, rfl⟩
    | tick now =>
      rw [Simulator.respond, tick_of_unscheduled h.unscheduled]
      exact ⟨s.journal, rfl⟩
    | stop =>
      rw [Simulator.respond, stop_of_unscheduled h.unscheduled]
      exact ⟨s.journal, rfl⟩
    | provideInput text =>
      have hnothing : s.machine.pending = none := by
        rw [← Option.not_isSome_iff_eq_none]
        exact fun hwaiting => hinput hwaiting text rfl
      rw [Simulator.respond, Simulator.provideInput, hnothing]
      exact ⟨s.journal, rfl⟩
    | drain => exact ⟨#[], rfl⟩
    | loadSource _ | loadParts _ _ | reset | restart => cases hdriving
  · rw [hsame]
    exact ⟨s.journal, rfl⟩

/-- **A standstill lasts** for as long as the machine stays and gets no input that it waits for.
The induction is on the requests; what is carried from one to the next is everything but the
journal. -/
theorem StandsStill.afterAll {s : Simulator} (h : s.StandsStill) {requests : List Request}
    (hstays : s.Stays requests)
    (hinput : s.machine.waiting = true → ∀ text, .provideInput text ∉ requests) :
    ∃ journal, s.afterAll requests = { s with journal := journal } := by
  induction requests generalizing s with
  | nil => exact ⟨s.journal, rfl⟩
  | cons request rest ih =>
    obtain ⟨hfirst, hrest⟩ := stays_cons.mp hstays
    obtain ⟨journal, hsame⟩ := h.respond hfirst fun hwaiting text hrequest =>
      hinput hwaiting text (hrequest ▸ List.mem_cons_self)
    rw [hsame] at hrest
    rw [afterAll_cons, hsame]
    exact ih (s := { s with journal := journal }) ⟨h.refuses, h.unscheduled⟩ hrest
      fun hwaiting text hmem => hinput hwaiting text (List.mem_cons_of_mem _ hmem)

/-- **What a standstill ends with**, if one request ends it. -/
theorem StandsStill.replaced_or_input {s : Simulator} (h : s.StandsStill) {request : Request}
    (hends : (s.respond request).2.status ≠ s.status) :
    request.replaces (s.respond request).1 = true ∨
      s.machine.waiting = true ∧ ∃ text, request = .provideInput text := by
  cases hreplaced : request.replaces (s.respond request).1 with
  | true => exact .inl rfl
  | false =>
    refine .inr (Classical.byContradiction fun hneither => hends ?_)
    obtain ⟨journal, hsame⟩ := h.respond hreplaced fun hwaiting text hrequest =>
      hneither ⟨hwaiting, text, hrequest⟩
    rw [hsame]
    rfl

/-! ## 2. The end of a standstill -/

/-- A machine that takes the place of another neither is halted nor waits. -/
theorem fresh_of_replaced {s : Simulator} {request : Request}
    (h : request.replaces (s.respond request).1 = true) :
    (s.respond request).2.machine.halted = false ∧
      (s.respond request).2.machine.waiting = false := by
  rcases machine_of_replaced h with hblank | ⟨p, hprogram⟩
  · rw [hblank]
    exact ⟨rfl, rfl⟩
  · rw [hprogram]
    exact ⟨rfl, rfl⟩

theorem machine_of_halted {s : Simulator} (h : s.status = .halted) : s.machine.halted = true := by
  have hsays := s.described_status
  rw [h] at hsays
  exact hsays.2

theorem machine_of_waitingForInput {s : Simulator} (h : s.status = .waitingForInput) :
    s.machine.waiting = true := by
  have hsays := s.described_status
  rw [h] at hsays
  exact hsays.2.2

/-- **A machine that has its input waits no longer.** -/
theorem waiting_provideInput (s : Simulator) (text : String) :
    (s.provideInput text).2.machine.waiting = false := by
  cases hpending : s.machine.pending with
  | none =>
    rw [provideInput, hpending]
    simp only [Machine.waiting, hpending, Option.isSome_none]
  | some pending =>
    rw [provideInput_of_pending hpending]
    rfl

/-- Whether nothing has happened to `s` that could be seen of its machine or read off its status:
`t` differs from it in the journal at most. -/
structure Unmoved (s t : Simulator) : Prop where
  machine : t.machine = s.machine
  status : t.status = s.status
  statusLine : t.statusLine = s.statusLine
  rest : ∃ journal, t = { s with journal := journal }

theorem unmoved_of_journal {s t : Simulator} (h : ∃ journal, t = { s with journal := journal }) :
    s.Unmoved t := by
  obtain ⟨journal, rfl⟩ := h
  exact ⟨rfl, rfl, rfl, journal, rfl⟩

/-- **A halt and a wait end in one way each.**  Let a machine be halted.  Whatever is asked of its
simulator, loads that fail and input among it, the machine, the status and the status line are what
they were, as long as no request replaces the machine: a load that succeeds, a reset or a restart.
Each of these does end the halt.  The same holds of a machine that waits, except that input ends the
wait as well. -/
theorem standstill_lasts {s : Simulator} (h : s.Reachable) :
    (s.status = .halted →
      (∀ requests, s.Stays requests → s.Unmoved (s.afterAll requests)) ∧
      ∀ request, (s.respond request).2.status ≠ .halted ↔
        request.replaces (s.respond request).1 = true) ∧
    (s.status = .waitingForInput →
      (∀ requests, s.Stays requests → (∀ text, .provideInput text ∉ requests) →
        s.Unmoved (s.afterAll requests)) ∧
      ∀ request, (s.respond request).2.status ≠ .waitingForInput ↔
        request.replaces (s.respond request).1 = true ∨ ∃ text, request = .provideInput text) := by
  constructor
  · intro hhalted
    have hstill : s.StandsStill := h.coherent.standsStill (by rw [hhalted]; nofun)
    have hmachine := machine_of_halted hhalted
    have hwaits : ¬ s.machine.waiting = true := fun hwaiting =>
      h.coherent.exclusive ⟨hmachine, hwaiting⟩
    constructor
    · exact fun requests hstays =>
        unmoved_of_journal (hstill.afterAll hstays fun hwaiting => absurd hwaiting hwaits)
    · refine fun request => ⟨fun hends => ?_, fun hreplaced hlasts => ?_⟩
      · rcases hstill.replaced_or_input (hhalted ▸ hends) with hreplaced | ⟨hwaiting, -⟩
        · exact hreplaced
        · exact absurd hwaiting hwaits
      · have hfresh := (fresh_of_replaced hreplaced).1
        rw [machine_of_halted hlasts] at hfresh
        cases hfresh
  · intro hwaiting
    have hstill : s.StandsStill := h.coherent.standsStill (by rw [hwaiting]; nofun)
    constructor
    · exact fun requests hstays hinput =>
        unmoved_of_journal (hstill.afterAll hstays fun _ => hinput)
    · refine fun request => ⟨fun hends => ?_, fun hmoves hlasts => ?_⟩
      · exact (hstill.replaced_or_input (hwaiting ▸ hends)).imp_right And.right
      · have hwaits := machine_of_waitingForInput hlasts
        rcases hmoves with hreplaced | ⟨text, rfl⟩
        · rw [(fresh_of_replaced hreplaced).2] at hwaits
          cases hwaits
        · rw [Simulator.respond, waiting_provideInput] at hwaits
          cases hwaits

/-- A run that was ended by an instruction to halt. -/
def haltedRun : Simulator :=
  initial.afterAll
    [.loadParts [0x2001, 0xF000] [.immediateAlu, .halt], .run 2 0, .tick 0, .tick 2000000]

/-- All that could bring it back to life, and two loads that fail. -/
def revivals : List Request :=
  [.tick 4000000, .step, .run 1 4000000, .setInterval 1 4000000, .tick 4000000, .provideInput "1",
    .stop, .drain, .loadParts [0x2001] [], .loadSource "nop", .step]

/-- None of it does, and a restart does; a machine that waits is as deaf to all but its input. -/
theorem standstill_lasts_revivals :
    (haltedRun.Reachable ∧ haltedRun.status = .halted) ∧
      (haltedRun.Stays revivals ∧ haltedRun.Unmoved (haltedRun.afterAll revivals)) ∧
      (haltedRun.respond .restart).2.status ≠ .halted ∧
    (asking.Reachable ∧ asking.status = .waitingForInput) ∧
      (asking.Stays (revivals.eraseIdx 5) ∧
        asking.Unmoved (asking.afterAll (revivals.eraseIdx 5))) ∧
      (asking.respond (.provideInput "1")).2.status ≠ .waitingForInput := by
  have hhalted : haltedRun.Reachable := ⟨_, rfl⟩
  have hasking : asking.Reachable := ⟨_, rfl⟩
  have hstatus : haltedRun.status = .halted := by decide +kernel
  have hwaiting : asking.status = .waitingForInput := by decide +kernel
  have hstays : haltedRun.Stays revivals := by decide +kernel
  have hstays' : asking.Stays (revivals.eraseIdx 5) := by decide +kernel
  have hinput : ∀ text, Request.provideInput text ∉ revivals.eraseIdx 5 := by
    simp [revivals, List.eraseIdx]
  have hrestarted : Request.restart.replaces (haltedRun.respond .restart).1 = true := by
    decide +kernel
  obtain ⟨hlasts, hends⟩ := (standstill_lasts hhalted).1 hstatus
  obtain ⟨hlasts', hends'⟩ := (standstill_lasts hasking).2 hwaiting
  exact ⟨⟨hhalted, hstatus⟩, ⟨hstays, hlasts _ hstays⟩, (hends _).mpr hrestarted,
    ⟨hasking, hwaiting⟩, ⟨hstays', hlasts' _ hstays' hinput⟩, (hends' _).mpr (.inr ⟨_, rfl⟩)⟩

end Simulator
end PredicatedCpu

/-
# Asking for input and getting it

A load from the input address is executed in two halves.  The first one asks: it leaves a request
in the machine, which waits from then on.  The second one is not the machine's at all: it is a text
that is given from outside, at some later time, with any number of refused requests in between.
Nothing but the pending request holds the two halves together.

* `suspensions`, `acceptances`: how often a list of requests asked for input and gave some;
* `Coherent.input_balance`: the books balance on every request, and so over all of them;
* `Asks`: all that a load does to a simulator when it asks for input;
* `Takes`: all that a text does to a simulator when it is taken;
* `input_protocol`: both, for the whole life of a machine.
-/
import PredicatedCpu.Proofs.Simulator.Lifetime

namespace PredicatedCpu

/-! ## 1. What is counted -/

/-- Whether an answer tells of a load that **asked for input**. -/
def Response.suspends : Response → Bool
  | .executed effect => effect.suspended
  | _ => false

/-- Whether a request **gave input** that was accepted. -/
def Request.isAccepted : Request → Response → Bool
  | .provideInput _, .done => true
  | _, _ => false

theorem Response.not_suspends {response : Response} (h : response.isExecution = false) :
    response.suspends = false := by
  cases response with
  | executed effect => cases h
  | _ => rfl

/-- An execution gives no input. -/
theorem Request.not_isAccepted {request : Request} {response : Response}
    (h : response.isExecution = true) : request.isAccepted response = false := by
  unfold isAccepted
  split
  · cases h
  · rfl

/-- Input was accepted exactly if that is what happened. -/
theorem Request.isAccepted_iff {request : Request} {response : Response} :
    request.isAccepted response = true ↔
      ∃ text, request.occurrence? response = some (.accepted text) := by
  constructor
  · intro h
    unfold isAccepted at h
    split at h
    · rename_i text
      exact ⟨text, rfl⟩
    · cases h
  · rintro ⟨text, h⟩
    unfold occurrence? at h
    split at h
    · rfl
    · split at h <;> cases h

namespace Simulator

/-- How often input was asked for. -/
def suspensions (s : Simulator) (requests : List Request) : Nat :=
  (s.exchanges requests).countP fun exchange => exchange.2.suspends

/-- How often input was accepted. -/
def acceptances (s : Simulator) (requests : List Request) : Nat :=
  (s.exchanges requests).countP fun exchange => exchange.1.isAccepted exchange.2

theorem suspensions_cons (s : Simulator) (request : Request) (rest : List Request) :
    s.suspensions (request :: rest) =
      (s.respond request).1.suspends.toNat + (s.respond request).2.suspensions rest :=
  countP_exchanges_cons _ s request rest

theorem acceptances_cons (s : Simulator) (request : Request) (rest : List Request) :
    s.acceptances (request :: rest) =
      (request.isAccepted (s.respond request).1).toNat +
        (s.respond request).2.acceptances rest :=
  countP_exchanges_cons _ s request rest

/-! ## 2. The books -/

theorem Move.waiting_of_execution {s : Simulator} {response : Response} {m : Machine}
    (h : s.Move response m) (hexecution : response.isExecution = true) :
    s.machine.waiting = false ∧ m.waiting = response.suspends := by
  cases h with
  | still unexecuted faultless =>
    rw [Response.isExecution_eq_false_iff.mpr ⟨unexecuted, faultless⟩] at hexecution
    cases hexecution
  | executed ready step =>
    have hwaiting := (stepRefusal?_eq_none_iff.mp ready).2.2
    exact ⟨hwaiting, Machine.waiting_of_step step hwaiting⟩
  | faulted ready step =>
    have hwaiting := (stepRefusal?_eq_none_iff.mp ready).2.2
    obtain ⟨-, -, -, -, rfl⟩ := Machine.step_eq_error_iff.mp step
    exact ⟨hwaiting, hwaiting⟩
  | resumed => cases hexecution

namespace Coherent

/-- **The books balance on every request**: whoever asks for input begins to wait, and whoever is
given some ceases to. -/
theorem input_balance {s : Simulator} (h : s.Coherent) {request : Request}
    (hstays : request.replaces (s.respond request).1 = false) :
    (s.respond request).1.suspends.toNat + s.machine.waiting.toNat =
      (request.isAccepted (s.respond request).1).toNat +
        (s.respond request).2.machine.waiting.toNat := by
  cases hexecution : (s.respond request).1.isExecution with
  | true =>
    obtain ⟨hbefore, hafter⟩ := (move_of_staying hstays).waiting_of_execution hexecution
    rw [Request.not_isAccepted hexecution, hbefore, hafter]
    exact Nat.add_comm _ _
  | false =>
    rw [Response.not_suspends hexecution]
    have hdriven := h.driven_of_staying hstays
    cases hoccurrence : request.occurrence? (s.respond request).1 with
    | none =>
      have hnot : request.isAccepted (s.respond request).1 = false := by
        rw [← Bool.not_eq_true, Request.isAccepted_iff, hoccurrence]
        rintro ⟨text, h⟩
        cases h
      rw [hoccurrence] at hdriven
      obtain ⟨hmachine, -, -⟩ := hdriven
      rw [hnot, hmachine]
    | some occurrence =>
      rw [hoccurrence] at hdriven
      cases hdriven with
      | executed =>
        rw [Request.occurrence?_eq_executed_iff.mp hoccurrence] at hexecution
        cases hexecution
      | accepted waits machine =>
        rw [Request.isAccepted_iff.mpr ⟨_, hoccurrence⟩, machine, Machine.waiting, waits]
        rfl

/-- **The books balance**: every load that asked for input has been given it, but for the one that
waits.  The induction is on the requests, the first one first; what one of them leaves waiting is
what the next one finds. -/
theorem suspensions_add_waiting {s : Simulator} (h : s.Coherent) {requests : List Request}
    (hstays : s.Stays requests) :
    s.suspensions requests + s.machine.waiting.toNat =
      s.acceptances requests + (s.afterAll requests).machine.waiting.toNat := by
  induction requests generalizing s with
  | nil => rfl
  | cons request rest ih =>
    obtain ⟨hfirst, hrest⟩ := stays_cons.mp hstays
    have hbalance := h.input_balance hfirst
    have hbalances := ih (h.respond request) hrest
    rw [suspensions_cons, acceptances_cons, afterAll_cons]
    omega

end Coherent

/-! ## 3. The two halves -/

/-- **All that a load does when it asks for input**, to a simulator `s` that becomes `t`. -/
structure Asks (s : Simulator) (effect : Effect) (t : Simulator) : Prop where
  /-- It is a load from the input address. -/
  load : effect.instruction.operation = .load 0x01F0
  holds : effect.instruction.predicate.holds s.machine.predicates = true
  /-- The machine moves on by one address and waits for a value for `R0`. -/
  machine : t.machine =
    { s.machine with pc := s.machine.pc + 1, pending := some ⟨0x01F0, 0⟩ }
  /-- The run is over, if there was one. -/
  unscheduled : t.schedule? = none

/-- **All that a text does when it is taken as input**, to a simulator `s` that becomes `t`. -/
structure Takes (s : Simulator) (text : String) (t : Simulator) : Prop where
  /-- `R0` gets the value of the text, or zero, and the machine waits no longer. -/
  machine : t.machine =
    { s.machine with
      registers := s.machine.registers.set 0 ((inputValue? text).getD 0)
      pending := none }
  /-- The journal goes on with a warning if the text has no value, and without one if it has. -/
  journal : ∃ events, t.journal.toList = s.journal.toList ++ events ∧
    events.countP (fun event => event.level = .warning) =
      if inputValue? text = none then 1 else 0
  /-- Nothing is executed, and nothing is going to be. -/
  steps : t.steps = s.steps
  unscheduled : t.schedule? = none
  loaded : t.loaded = s.loaded
  program : t.program? = s.program?

/-- Only a text without a value is worth a warning. -/
theorem countP_warning_inputEvents (dest : Register) (text : String) :
    (inputEvents dest text).countP (fun event => event.level = .warning) =
      if inputValue? text = none then 1 else 0 := by
  unfold inputEvents
  cases inputValue? text <;> rfl

/-- Input is asked for at one address and for one register: no request ever asks for another. -/
theorem Move.pending {s : Simulator} {response : Response} {m : Machine}
    (h : s.Move response m) (hpending : ∀ pending ∈ s.machine.pending, pending = ⟨0x01F0, 0⟩) :
    ∀ pending ∈ m.pending, pending = ⟨0x01F0, 0⟩ := by
  cases h with
  | still => exact hpending
  | @executed effect m ready step =>
    cases hsuspended : effect.suspended with
    | true =>
      obtain ⟨-, -, rfl⟩ := Machine.suspended_of_step step hsuspended
      intro pending hmem
      exact (Option.some.inj hmem).symm
    | false =>
      have hnot := Machine.waiting_of_step step (stepRefusal?_eq_none_iff.mp ready).2.2
      rw [hsuspended, Machine.waiting] at hnot
      intro pending hmem
      rw [Option.mem_def.mp hmem] at hnot
      cases hnot
  | faulted _ step =>
    obtain ⟨-, -, -, -, rfl⟩ := Machine.step_eq_error_iff.mp step
    exact hpending
  | resumed =>
    intro pending hmem
    cases hmem

namespace Coherent

theorem asks {s : Simulator} (h : s.Coherent) {request : Request} {effect : Effect}
    (hexecuted : (s.respond request).1 = .executed effect) (hsuspended : effect.suspended = true) :
    Asks s effect (s.respond request).2 := by
  have hstep := step_of_executed hexecuted
  obtain ⟨hload, hholds, hmachine⟩ := Machine.suspended_of_step hstep hsuspended
  have hexecution : (s.respond request).1.isExecution = true := by
    rw [hexecuted]
    rfl
  obtain ⟨-, schedule?, hadvance⟩ := h.respond_of_isExecution hexecution
  have hwaiting : (s.machine.step.2.halted || s.machine.step.2.waiting) = true := by
    rw [hstep, hmachine]
    exact Bool.or_true _
  refine ⟨hload, hholds, hmachine, ?_⟩
  rw [hadvance, schedule?_advance]
  exact if_pos hwaiting

theorem takes {s : Simulator} (h : s.Coherent)
    (hpending : ∀ pending ∈ s.machine.pending, pending = ⟨0x01F0, 0⟩) {text : String}
    (haccepted : (s.provideInput text).1 = .done) : Takes s text (s.provideInput text).2 := by
  have hschedule := h.schedule?_of_waiting (provideInput_eq_done_iff.mp haccepted)
  cases hwaits : s.machine.pending with
  | none =>
    rw [Simulator.provideInput, hwaits] at haccepted
    cases haccepted
  | some pending =>
    obtain rfl : pending = ⟨0x01F0, 0⟩ := hpending pending hwaits
    rw [provideInput_of_pending hwaits]
    refine ⟨rfl, ?_, rfl, hschedule, rfl, rfl⟩
    exact ⟨inputEvents 0 text, Array.toList_append, countP_warning_inputEvents 0 text⟩

end Coherent

/-! ## 4. The protocol -/

/-- **Every request for input is answered once, and with nothing else.**  From the load of a program
on, and as long as its machine stays, whatever is asked: input was asked for once more than it was
accepted if the machine waits, and otherwise as often.  It is always asked for at the same address
and for `R0`.  A load that asks for it moves on, leaves the request and ends the run, and does no
more; a text that is taken sets `R0` and takes the request away, and does no more.  Any text is
taken while the machine waits, and none otherwise. -/
theorem input_protocol (p : Program) (s : Simulator) {requests : List Request}
    (hstays : (s.load p).Stays requests) :
    let t := (s.load p).afterAll requests
    ((s.load p).suspensions requests =
      (s.load p).acceptances requests + if t.machine.waiting then 1 else 0) ∧
    (∀ pending ∈ t.machine.pending, pending = ⟨0x01F0, 0⟩) ∧
    (∀ request effect, (t.respond request).1 = .executed effect → effect.suspended = true →
      Asks t effect (t.respond request).2) ∧
    ∀ text, ((t.provideInput text).1 = .done ↔ t.machine.waiting = true) ∧
      ((t.provideInput text).1 = .done → Takes t text (t.provideInput text).2) := by
  intro t
  have hloaded : (s.load p).Coherent := .load p s
  have hcoherent : t.Coherent := hloaded.afterAll requests
  have hpending : ∀ pending ∈ t.machine.pending, pending = ⟨0x01F0, 0⟩ :=
    hloaded.staying_induction
      (motive := fun s => ∀ pending ∈ s.machine.pending, pending = ⟨0x01F0, 0⟩) nofun
      (fun s request _ hstays hpending => (move_of_staying hstays).pending hpending) hstays
  refine ⟨?_, hpending, fun request effect => hcoherent.asks, fun text => ?_⟩
  · have hbooks : (s.load p).suspensions requests + 0 =
        (s.load p).acceptances requests + t.machine.waiting.toNat :=
      hloaded.suspensions_add_waiting hstays
    cases hwaiting : t.machine.waiting <;> rw [hwaiting] at hbooks <;> exact hbooks
  · exact ⟨provideInput_eq_done_iff, hcoherent.takes hpending⟩

/-- A program that asks for input twice. -/
def askingTwice : Program :=
  ⟨[⟨0x01F0, .memory⟩, ⟨0x01F0, .memory⟩, ⟨0xF000, .halt⟩], .empty⟩

/-- Its run, with requests that are refused, a load that fails, and a text that is no number. -/
def interrupted : List Request :=
  [.run 5 0, .tick 0, .step, .run 1 3, .loadParts [0xF000] [], .provideInput "seven",
    .provideInput "7", .tick 9, .step]

/-- The second load waits, and takes a number. -/
theorem input_protocol_interrupted :
    (initial.load askingTwice).Stays interrupted ∧
      (initial.load askingTwice).suspensions interrupted = 2 ∧
      (initial.load askingTwice).acceptances interrupted = 1 ∧
      ((initial.load askingTwice).afterAll interrupted).machine.waiting = true ∧
      Takes ((initial.load askingTwice).afterAll interrupted) "-2"
        (((initial.load askingTwice).afterAll interrupted).provideInput "-2").2 := by
  have hstays : (initial.load askingTwice).Stays interrupted := by decide +kernel
  have hwaiting : ((initial.load askingTwice).afterAll interrupted).machine.waiting = true := by
    decide +kernel
  have hacceptances : (initial.load askingTwice).acceptances interrupted = 1 := by decide +kernel
  obtain ⟨hbooks, -, -, hinput⟩ := input_protocol askingTwice initial hstays
  rw [hacceptances, hwaiting] at hbooks
  obtain ⟨hdone, htakes⟩ := hinput "-2"
  exact ⟨hstays, hbooks, hacceptances, hwaiting, htakes (hdone.mpr hwaiting)⟩

end Simulator
end PredicatedCpu

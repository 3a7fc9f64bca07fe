/-
# An unattended session feeds its machine

An unattended session has two loops, one inside the other: it runs the program until that stops, by
a schedule and a clock, and whenever it has stopped to wait, it looks for an answer in one of two
places and begins a new run.  All of this is the same as feeding the machine from one list.

* `Prepared`: a session that can begin a run; `Underway`: one whose run has begun;
* `Underway.tick`, `Underway.drive`: a tick is a step, so the inner loop only steps;
* `Underway.give`: an answer prepares the session for the next run;
* `Prepared.runAnswering`: so the outer loop feeds, by induction on the answers;
* `unattended_feeds`: what a session that ends leaves.
-/
import PredicatedCpu.Proofs.Machine.Feeding
import PredicatedCpu.Proofs.Session.Steps
import PredicatedCpu.Proofs.Simulator.Lifetime

namespace PredicatedCpu
namespace Session

variable {options : Options} {s : Session}

/-! ## 1. Runs -/

/-- Whether a session **can begin a run**. -/
structure Prepared (options : Options) (s : Session) : Prop where
  coherent : s.simulator.Coherent
  ready : s.simulator.runRefusal? = none
  minimal : s.console.minimal = options.minimal
  colour : s.console.colour = options.colour

/-- Whether a session **has begun a run**: it has steps to come, or the machine cannot go on. -/
structure Underway (options : Options) (s : Session) : Prop where
  coherent : s.simulator.Coherent
  loaded : s.simulator.loaded = true
  going : s.simulator.schedule? = none →
    s.simulator.machine.halted = true ∨ s.simulator.machine.waiting = true
  minimal : s.console.minimal = options.minimal
  colour : s.console.colour = options.colour

/-- The run begins, and the machine is not touched. -/
theorem Prepared.run (h : Prepared options s) (milliseconds : Nat) (now : Time) :
    (s.ask (.run milliseconds now)).1 = .done ∧
      Underway options (s.ask (.run milliseconds now)).2 ∧
        (s.ask (.run milliseconds now)).2.simulator.machine = s.simulator.machine := by
  obtain ⟨-, hready⟩ := Simulator.runRefusal?_eq_none_iff.mp h.ready
  have hloaded := (Simulator.stepRefusal?_eq_none_iff.mp hready).1
  have hrun : s.simulator.respond (.run milliseconds now) = (.done,
      { s.simulator with
        schedule? := some (.starting milliseconds now), statusLine := .running }) := by
    rw [Simulator.respond, Simulator.run, h.ready]
  have hsimulator : (s.ask (.run milliseconds now)).2.simulator =
      (s.simulator.respond (.run milliseconds now)).2 := rfl
  refine ⟨congrArg Prod.fst hrun, ⟨?_, ?_, ?_, h.minimal, h.colour⟩, ?_⟩
  · exact h.coherent.respond (.run milliseconds now)
  · rw [hsimulator, hrun]
    exact hloaded
  · rw [hsimulator, hrun]
    intro hnone
    cases hnone
  · rw [hsimulator, hrun]

/-- **A tick is a step.**  The clock is set to when the step is due, so the step is executed. -/
theorem Underway.tick (h : Underway options s) {schedule : Schedule}
    (hschedule : s.simulator.schedule? = some schedule) :
    Underway options (s.tick schedule) ∧
      (s.tick schedule).simulator.machine = s.simulator.machine.step.2 := by
  have hdue : schedule.due ≤ max s.clock schedule.due := Int.le_max_right _ _
  have htick := h.coherent.tick_eq_advance hschedule hdue
  have hflush := flushes_flush
    { (s.ask (.tick (max s.clock schedule.due))).2 with clock := max s.clock schedule.due }
  have hsimulator : (s.tick schedule).simulator =
      (s.simulator.respond (.tick (max s.clock schedule.due))).2.drain.2 := hflush.simulator
  have hcoherent : (s.tick schedule).simulator.Coherent := by
    rw [hsimulator]
    exact (h.coherent.respond _).respond .drain
  have hmachine : (s.tick schedule).simulator.machine = s.simulator.machine.step.2 := by
    rw [hsimulator, Simulator.respond, htick]
    exact Simulator.machine_advance _
  refine ⟨⟨hcoherent, ?_, ?_, hflush.minimal.trans h.minimal, hflush.colour.trans h.colour⟩,
    hmachine⟩
  · rw [hsimulator, Simulator.respond, htick]
    exact (Simulator.loaded_advance _).trans h.loaded
  · intro hnone
    rw [hsimulator, Simulator.respond, htick] at hnone
    have hstops := (Simulator.schedule?_advance _).symm.trans hnone
    rw [hmachine]
    split at hstops
    · rename_i hcannot
      exact Bool.or_eq_true_iff.mp hcannot
    · cases hstops

/-- **A run only steps**: where the machine ends that it leaves, there ends the one it found. -/
theorem Underway.drive {limit : Nat} {t : Session} (h : Underway options s)
    (hended : s.drive limit = some t) :
    Underway options t ∧ t.simulator.schedule? = none ∧
      ∀ {texts m rest}, t.simulator.machine.Feeds texts m rest →
        s.simulator.machine.Feeds texts m rest := by
  induction limit generalizing s with
  | zero => cases hended
  | succ limit ih =>
    rw [Session.drive] at hended
    cases hschedule : s.simulator.schedule? with
    | none =>
      rw [hschedule] at hended
      obtain rfl := Option.some.inj hended
      exact ⟨h, hschedule, id⟩
    | some schedule =>
      rw [hschedule] at hended
      obtain ⟨htick, hmachine⟩ := h.tick hschedule
      obtain ⟨hunderway, hnone, hfeeds⟩ := ih htick hended
      refine ⟨hunderway, hnone, fun hfed => ?_⟩
      obtain ⟨-, hhalted, hwaiting⟩ := h.coherent.scheduled schedule hschedule
      have hrest := hfeeds hfed
      rw [hmachine] at hrest
      exact hrest.step hhalted (by simpa [Machine.waiting] using hwaiting)

/-! ## 2. Answers -/

/-- An answer that is awaited is taken, and this is reported. -/
theorem flushes_give (hwaiting : s.simulator.machine.waiting = true) (answer : Answer) :
    ((s.hear answer).ask (.provideInput answer.text)).2.Flushes (s.give answer) := by
  have hdone : ((s.hear answer).ask (.provideInput answer.text)).1 = .done := by
    rw [← (Aside.hear answer s).simulator] at hwaiting
    exact Simulator.provideInput_eq_done_iff.mpr hwaiting
  have hgive : s.give answer = ((s.hear answer).ask (.provideInput answer.text)).2.flush := by
    rw [give_eq]
    exact if_pos hdone
  rw [hgive]
  exact flushes_flush _

/-- **An answer ends a wait**: the machine has its value, and a run can begin. -/
theorem Underway.give (h : Underway options s) {pending : PendingInput}
    (hwaits : s.simulator.machine.pending = some pending) (answer : Answer) :
    Prepared options (s.give answer) ∧
      (s.give answer).simulator.machine =
        s.simulator.machine.resume pending ((inputValue? answer.text).getD 0) := by
  have hwaiting : s.simulator.machine.waiting = true := by
    rw [Machine.waiting, hwaits]
    rfl
  have hhalted : s.simulator.machine.halted = false := by
    rw [← Bool.not_eq_true]
    exact fun hhalted => h.coherent.exclusive ⟨hhalted, hwaiting⟩
  have haside : s.Aside (s.hear answer) := .hear answer s
  have hflush := flushes_give hwaiting answer
  have hsimulator : (s.give answer).simulator =
      (s.simulator.respond (.provideInput answer.text)).2.drain.2 := by
    rw [hflush.simulator, ← haside.simulator]
    rfl
  have hrespond : s.simulator.respond (.provideInput answer.text) = _ :=
    Simulator.provideInput_of_pending hwaits answer.text
  refine ⟨⟨?_, ?_, ?_, ?_⟩, ?_⟩
  · rw [hsimulator]
    exact (h.coherent.respond _).respond .drain
  · rw [Simulator.runRefusal?_eq_none_iff, Simulator.stepRefusal?_eq_none_iff, hsimulator, hrespond]
    exact ⟨h.coherent.schedule?_of_waiting hwaiting, h.loaded, hhalted, rfl⟩
  · exact hflush.minimal.trans (haside.minimal.trans h.minimal)
  · exact hflush.colour.trans (haside.colour.trans h.colour)
  · rw [hsimulator, hrespond]
    rfl

/-! ## 3. The end -/

/-- What is said at the end if no answer is left: a minimal console gets it without colour. -/
def Options.starved (options : Options) : String :=
  if options.minimal then "No more input. Stopping.\n"
  else if options.colour then Terminal.paint .yellow "No more input. Stopping." ++ "\n"
  else "No more input. Stopping.\n"

/-- Colour is the only thing that a minimal console leaves out of it. -/
theorem plain_starved (colour : Bool) :
    Terminal.plain ((if colour then Terminal.paint .yellow "No more input. Stopping."
      else "No more input. Stopping.") ++ "\n") = "No more input. Stopping.\n" := by
  cases colour <;> decide +kernel

theorem Underway.giveUp (h : Underway options s) :
    s.giveUp.console.stderr = s.promptInput.console.stderr ++ options.starved := by
  have haside : s.Aside s.promptInput := .promptInput s
  have hminimal := haside.minimal.trans h.minimal
  have hcolour := haside.colour.trans h.colour
  rw [Session.giveUp, Session.tell, Console.tell, Console.paint, hcolour, Options.starved]
  dsimp only [Console.moveCursor]
  rw [hminimal]
  cases options.minimal with
  | true => exact congrArg _ (plain_starved options.colour)
  | false => cases options.colour <;> rfl

/-- How an unattended session may end: its machine is halted, or it waits, no answer is left, and
this was said last. -/
def Ended (options : Options) (t : Session) (rest : List Answer) : Prop :=
  t.simulator.status = .halted ∨
    t.simulator.status = .waitingForInput ∧ rest = [] ∧
      ∃ said, t.console.stderr = said ++ options.starved

/-- Whether a session that has these answers **feeds its machine** with them and ends as `t`, with
the others left over. -/
structure Serves (options : Options) (s : Session) (answers : List Answer) (t : Session)
    (rest : List Answer) : Prop where
  feeds : s.simulator.machine.Feeds (answers.map Answer.text) t.simulator.machine
    (rest.map Answer.text)
  suffix : rest <:+ answers
  ended : Ended options t rest

/-- A run that stopped to wait. -/
theorem Underway.serves_of_waiting {limit : Nat} {answers rest : List Answer} {t : Session}
    (h : Underway options s) (hwaiting : s.simulator.status = .waitingForInput)
    (hended : (match answers with
      | [] => some (s.giveUp, [])
      | answer :: others => runAnswering limit others (s.give answer)) = some (t, rest))
    (hrest : ∀ answer others, answers = answer :: others → ∀ s, Prepared options s →
      s.runAnswering limit others = some (t, rest) → Serves options s others t rest) :
    Serves options s answers t rest := by
  have hpending := h.coherent.waiting_iff.mpr hwaiting
  have hhalted : s.simulator.machine.halted = false := by
    rw [← Bool.not_eq_true]
    exact fun hhalted => h.coherent.exclusive ⟨hhalted, hpending⟩
  obtain ⟨pending, hwaits⟩ := Option.isSome_iff_exists.mp hpending
  cases answers with
  | nil =>
    obtain ⟨rfl, rfl⟩ := Prod.mk.inj (Option.some.inj hended)
    have hsame : s.giveUp.simulator = s.simulator := (Aside.giveUp s).simulator
    refine ⟨?_, List.suffix_rfl, .inr ⟨?_, rfl, _, h.giveUp⟩⟩
    · rw [hsame]
      exact .of_waiting hhalted hwaits
    · rw [hsame, hwaiting]
  | cons answer others =>
    obtain ⟨hprepared, hmachine⟩ := h.give hwaits answer
    obtain ⟨hfeeds, hsuffix, hends⟩ := hrest answer others rfl _ hprepared hended
    rw [hmachine] at hfeeds
    exact ⟨hfeeds.answer hhalted hwaits, hsuffix.trans (List.suffix_cons _ _), hends⟩

/-- **One turn feeds the machine**, if all that follows does: the run only steps, and if it stops to
wait, the next text that the machine gets is the next answer. -/
theorem Prepared.turn {limit : Nat} {answers rest : List Answer} {t : Session}
    (h : Prepared options s)
    (hrest : ∀ answer others, answers = answer :: others → ∀ s, Prepared options s →
      s.runAnswering limit others = some (t, rest) → Serves options s others t rest)
    (hended : s.runAnswering limit answers = some (t, rest)) :
    Serves options s answers t rest := by
  obtain ⟨hdone, hbegun, hmachine⟩ := h.run s.interval s.clock
  rw [runAnswering_eq] at hended
  dsimp only at hended
  rw [if_pos hdone] at hended
  obtain ⟨stopped, hstopped, hstops⟩ := Option.bind_eq_some_iff.mp hended
  obtain ⟨hunderway, hnone, hfeeds⟩ := hbegun.drive hstopped
  rw [hmachine] at hfeeds
  have hserves : Serves options stopped answers t rest := by
    by_cases hwaiting : stopped.simulator.status = .waitingForInput
    · rw [if_pos hwaiting] at hstops
      exact hunderway.serves_of_waiting hwaiting hstops hrest
    · rw [if_neg hwaiting] at hstops
      obtain ⟨rfl, rfl⟩ := Prod.mk.inj (Option.some.inj hstops)
      have hhalted : stopped.simulator.machine.halted = true :=
        (hunderway.going hnone).resolve_right (mt hunderway.coherent.waiting_iff.mp hwaiting)
      refine ⟨.of_halted hhalted, List.suffix_rfl, .inl ?_⟩
      simp [Simulator.status, hunderway.loaded, hhalted]
  exact ⟨hfeeds hserves.feeds, hserves.suffix, hserves.ended⟩

/-- **The outer loop feeds the machine.**  The induction is on the answers; each of them but the
last is followed by a turn that has one answer less. -/
theorem Prepared.runAnswering {limit : Nat} {answers rest : List Answer} {t : Session}
    (h : Prepared options s) (hended : s.runAnswering limit answers = some (t, rest)) :
    Serves options s answers t rest := by
  induction answers generalizing s with
  | nil => exact h.turn nofun hended
  | cons answer others ih =>
    refine h.turn (fun _ _ hcons s hprepared hrest => ?_) hended
    obtain ⟨-, rfl⟩ := List.cons.inj hcons
    exact ih hprepared hrest

theorem prepared_start (p : Program) (options : Options) : Prepared options (start p options) where
  coherent := (Simulator.Coherent.load p .initial).respond .drain
  ready := rfl
  minimal := rfl
  colour := rfl

/-- What is said of a halt is said of nothing else. -/
theorem Ended.reportHalt {t : Session} {rest : List Answer} (h : Ended options t rest) :
    Ended options t.reportHalt rest := by
  have hsame : t.reportHalt.simulator = t.simulator := (Aside.reportHalt t).simulator
  rcases h with hhalted | ⟨hwaiting, hrest, hsaid⟩
  · exact .inl (by rw [hsame, hhalted])
  · have hnothing : t.reportHalt = t := by
      rw [Session.reportHalt, hwaiting]
      rfl
    rw [hnothing]
    exact .inr ⟨hwaiting, hrest, hsaid⟩

/-- **An unattended session that ends has fed its machine.**  From the load of the program on, the
machine was stepped, and each load that waited was given the next text of one list, the queued
inputs and after them the lines of the standard input, until the machine halted, or until it waited
and the list was used up, which is then the last thing that was said.  Of the list a number of texts
were used, from its beginning, and the others are left over: so no line is read before the queue is
empty, and none that is not needed. -/
theorem unattended_feeds {limit : Nat} {p : Program} {options : Options} {queued : List String}
    {stdin : String} {t : Session} {rest : List Answer}
    (hended : (start p options).runUnattended limit queued stdin = some (t, rest)) :
    (Machine.ofProgram p).Feeds (queued ++ inputLines stdin) t.simulator.machine
      (rest.map Answer.text) ∧
    (∃ used ≤ queued.length + (inputLines stdin).length,
      rest = (queued.drop used).map .queued ++
        ((inputLines stdin).drop (used - queued.length)).map .typed) ∧
    Ended options t rest := by
  obtain ⟨⟨stopped, left⟩, hstopped, hpair⟩ := Option.map_eq_some_iff.mp hended
  obtain ⟨rfl, rfl⟩ := Prod.mk.inj hpair
  obtain ⟨hfeeds, ⟨used, hused⟩, hends⟩ := (prepared_start p options).runAnswering hstopped
  refine ⟨?_, ⟨used.length, ?_, ?_⟩, hends.reportHalt⟩
  · have htexts : (answers queued stdin).map Answer.text = queued ++ inputLines stdin := by
      rw [answers, List.map_append, List.map_map, List.map_map]
      exact congrArg₂ _ (List.map_id queued) (List.map_id (inputLines stdin))
    rw [(Aside.reportHalt stopped).simulator, ← htexts]
    exact hfeeds
  · have hlength := congrArg List.length hused
    rw [answers, List.length_append, List.length_append, List.length_map,
      List.length_map] at hlength
    omega
  · have hdrop : left = (answers queued stdin).drop used.length := by
      rw [← hused, List.drop_left]
    rw [hdrop, answers, List.drop_append, List.map_drop, List.map_drop, List.length_map]

/-- A program that adds the two numbers it asks for. -/
def addingTwo : Program :=
  ⟨[⟨0x01F0, .memory⟩, ⟨0x2048, .registerAlu⟩, ⟨0x01F0, .memory⟩, ⟨0x2001, .registerAlu⟩,
    ⟨0xF000, .halt⟩], .empty⟩

/-- With an input in the queue it reads one line and leaves the other; without one it uses up the
only line there is, and waits. -/
theorem unattended_feeds_addingTwo :
    (∃ t, (start addingTwo ⟨false, false, true, 20⟩).runUnattended 9 ["1"] "0x20 \n3\n" =
        some (t, [.typed "3"]) ∧
      (Machine.ofProgram addingTwo).Feeds (["1"] ++ inputLines "0x20 \n3\n") t.simulator.machine
        ["3"] ∧
      t.simulator.status = .halted) ∧
    ∃ t, (start addingTwo ⟨false, false, true, 20⟩).runUnattended 9 [] "0x20 \n" = some (t, []) ∧
      (Machine.ofProgram addingTwo).Feeds ([] ++ inputLines "0x20 \n") t.simulator.machine [] ∧
      t.simulator.status = .waitingForInput := by
  constructor
  · have hrun : ((start addingTwo ⟨false, false, true, 20⟩).runUnattended 9 ["1"]
        "0x20 \n3\n").map (fun ended => (ended.1.simulator.status, ended.2)) =
          some (.halted, [.typed "3"]) := by decide +kernel
    obtain ⟨⟨t, rest⟩, hended, hends⟩ := Option.map_eq_some_iff.mp hrun
    obtain ⟨hstatus, rfl⟩ := Prod.mk.inj hends
    exact ⟨t, hended, (unattended_feeds hended).1, hstatus⟩
  · have hrun : ((start addingTwo ⟨false, false, true, 20⟩).runUnattended 9 []
        "0x20 \n").map (fun ended => (ended.1.simulator.status, ended.2)) =
          some (.waitingForInput, []) := by decide +kernel
    obtain ⟨⟨t, rest⟩, hended, hends⟩ := Option.map_eq_some_iff.mp hrun
    obtain ⟨hstatus, rfl⟩ := Prod.mk.inj hends
    exact ⟨t, hended, (unattended_feeds hended).1, hstatus⟩

end Session
end PredicatedCpu

/-
# What a session writes

The output of a session is written from a log that the machine keeps and that is lost with the
machine, by a counter that belongs to the session and outlives it.  That nothing is written twice,
and nothing lost, hangs on the order in which the session asks, flushes and sets the counter back.

* `Chronicle.Accounts`: what is on the output, and what is still to be written, are the stores to
  the window, and the counter has not run ahead of the log;
* `Chronicle.Settled`: nothing is still to be written, which is how every command finds a session
  and leaves it;
* `Accounts.flush`, `Settled.renew`: a flush settles, and a settled session may lose its machine;
* `stdout_of_session`: the output of every session that ends.
-/
import PredicatedCpu.Proofs.Session.Chronicle
import PredicatedCpu.Proofs.Simulator.Output

namespace PredicatedCpu

/-- Nothing is executed on a request that is no step and no tick. -/
theorem Simulator.unexecuted {s : Simulator} {request : Request} (hstep : request ≠ .step)
    (htick : ∀ now, request ≠ .tick now) : (s.respond request).1.isExecution = false := by
  rw [← Bool.not_eq_true]
  intro hexecution
  rcases request_of_isExecution hexecution with h | ⟨now, h⟩
  · exact hstep h
  · exact htick now h

namespace Session.Chronicle

variable {origin : Simulator} {c : Chronicle}

/-! ## 1. The books -/

/-- Whether **the books of a session are right** that began with the simulator `origin`. -/
structure Accounts (origin : Simulator) (c : Chronicle) : Prop where
  /-- The requests that are written down are those that made the simulator what it is. -/
  history : c.session.simulator = origin.afterAll c.requests
  /-- What is written, and what is still to be written, are the stores to the window. -/
  stdout : c.session.console.stdout ++ lines c.session.unwritten =
    lines (origin.windowStores c.requests)
  /-- No more is counted as written than there is. -/
  printed : c.session.printed ≤ c.session.simulator.machine.output.size
  /-- Whenever output was written, the slice was within the log. -/
  slices : ∀ slice ∈ c.slices, slice.1 ≤ slice.2

/-- Whether the books are right and everything is written. -/
structure Settled (origin : Simulator) (c : Chronicle) : Prop extends Accounts origin c where
  all : c.session.printed = c.session.simulator.machine.output.size

theorem unwritten_eq_nil {s : Session} (h : s.printed = s.simulator.machine.output.size) :
    s.unwritten = [] := by
  rw [unwritten, h]
  exact List.drop_eq_nil_of_le (by simp)

/-- The output of a settled session is the stores to the window. -/
theorem Settled.stdout_eq (h : Settled origin c) :
    c.session.console.stdout = lines (origin.windowStores c.requests) := by
  have hstdout := h.stdout
  rwa [unwritten_eq_nil h.all, lines_nil, String.append_empty] at hstdout

/-! ## 2. Steps -/

/-- What needs no simulator and writes no output leaves the books right. -/
theorem Accounts.apart (h : Accounts origin c) {f : Session → Session}
    (hsimulator : (f c.session).simulator = c.session.simulator)
    (hprinted : (f c.session).printed = c.session.printed)
    (hstdout : (f c.session).console.stdout = c.session.console.stdout) :
    Accounts origin (c.apart f) where
  history := hsimulator.trans h.history
  stdout := by
    rw [session_apart, unwritten, hsimulator, hprinted, hstdout]
    exact h.stdout
  printed := by
    rw [session_apart, hsimulator, hprinted]
    exact h.printed
  slices := h.slices

theorem Settled.aside (h : Settled origin c) {f : Session → Session}
    (haside : c.session.Aside (f c.session)) : Settled origin (c.apart f) where
  toAccounts := h.toAccounts.apart haside.simulator haside.printed haside.stdout
  all := by
    rw [session_apart, haside.simulator, haside.printed]
    exact h.all

/-- **A request that leaves the machine** leaves the books right: what it stores is still to be
written. -/
theorem Accounts.ask (h : Accounts origin c) {request : Request}
    (hstays : request.replaces (c.session.simulator.respond request).1 = false) :
    Accounts origin (c.ask request).2 := by
  have houtput := Simulator.output_of_staying hstays
  have hsimulator : (c.ask request).2.session.simulator =
      (c.session.simulator.respond request).2 := rfl
  have hunwritten : (c.ask request).2.session.unwritten =
      c.session.unwritten ++ (c.session.simulator.windowStore? request).toList := by
    rw [unwritten, hsimulator, houtput]
    exact List.drop_append_of_le_length h.printed
  constructor
  · rw [hsimulator, h.history]
    exact (Simulator.afterAll_append origin c.requests [request]).symm
  · change c.session.console.stdout ++ lines _ = lines (origin.windowStores (c.requests ++ _))
    rw [hunwritten, lines_append, ← String.append_assoc, h.stdout,
      Simulator.windowStores_concat, lines_append, ← h.history]
  · rw [hsimulator, ← Array.length_toList, houtput, List.length_append]
    exact Nat.le_add_right_of_le h.printed
  · exact h.slices

/-- A request on which nothing is executed leaves nothing to be written. -/
theorem Settled.ask (h : Settled origin c) {request : Request}
    (hstays : request.replaces (c.session.simulator.respond request).1 = false)
    (hunexecuted : (c.session.simulator.respond request).1.isExecution = false) :
    Settled origin (c.ask request).2 where
  toAccounts := h.toAccounts.ask hstays
  all := by
    have houtput := Simulator.output_of_staying hstays
    rw [Simulator.windowStore?_of_unexecuted hunexecuted] at houtput
    have hsize := congrArg List.length houtput
    rw [List.length_append] at hsize
    exact h.all.trans hsize.symm

/-- **A flush settles.** -/
theorem Accounts.flush (h : Accounts origin c) : Settled origin c.flush := by
  have hflush := flushes_flush c.session
  have hall : c.session.flush.printed = c.session.flush.simulator.machine.output.size := by
    rw [hflush.printed, hflush.simulator]
    rfl
  have hnothing : (origin.afterAll c.requests).windowStore? .drain = none := rfl
  refine ⟨⟨?_, ?_, ?_, ?_⟩, hall⟩
  · rw [session_flush, hflush.simulator, h.history]
    exact (Simulator.afterAll_append origin c.requests [.drain]).symm
  · change c.session.flush.console.stdout ++ lines c.session.flush.unwritten =
      lines (origin.windowStores (c.requests ++ [.drain]))
    rw [unwritten_eq_nil hall, lines_nil, String.append_empty, hflush.stdout, h.stdout,
      Simulator.windowStores_concat, hnothing, Option.toList_none, List.append_nil]
  · exact Nat.le_of_eq hall
  · intro slice hmem
    rcases List.mem_append.mp hmem with hbefore | hlast
    · exact h.slices slice hbefore
    · obtain rfl := List.mem_singleton.mp hlast
      exact h.printed

/-- **A settled session may lose its machine**, if it counts from the start again: what the machine
had kept is written, and the new one has nothing to write. -/
theorem Settled.renew (h : Settled origin c) {request : Request}
    (hreplaced : request.replaces (c.session.simulator.respond request).1 = true)
    (hunexecuted : (c.session.simulator.respond request).1.isExecution = false) :
    Accounts origin (c.renew request) := by
  have hsimulator : (c.renew request).session.simulator =
      (c.session.simulator.respond request).2 := rfl
  have hempty := Simulator.output_of_replaced hreplaced
  have hunwritten : (c.renew request).session.unwritten = [] := by
    rw [unwritten, hsimulator, hempty]
    rfl
  constructor
  · rw [hsimulator, h.history]
    exact (Simulator.afterAll_append origin c.requests [request]).symm
  · change c.session.console.stdout ++ lines _ = lines (origin.windowStores (c.requests ++ _))
    rw [hunwritten, lines_nil, String.append_empty, h.stdout_eq, Simulator.windowStores_concat,
      ← h.history, Simulator.windowStore?_of_unexecuted hunexecuted, Option.toList_none,
      List.append_nil]
  · exact Nat.zero_le _
  · exact h.slices

/-! ## 3. Commands -/

theorem Accounts.tick (h : Accounts origin c) (schedule : Schedule) :
    Settled origin (c.tick schedule) := by
  have hticked : Accounts origin (c.ask (.tick (max c.session.clock schedule.due))).2 :=
    h.ask (Request.replaces_of_isDriving rfl _)
  rw [Chronicle.tick]
  exact Accounts.flush (hticked.apart rfl rfl rfl)

theorem Settled.drive (h : Settled origin c) {limit : Nat} :
    ∀ d ∈ c.drive limit, Settled origin d := by
  induction limit generalizing c with
  | zero =>
    intro d hmem
    cases hmem
  | succ limit ih =>
    rw [Chronicle.drive]
    cases c.session.simulator.schedule? with
    | none =>
      intro d hmem
      obtain rfl := Option.some.inj hmem
      exact h
    | some schedule => exact ih (h.tick schedule)

theorem Settled.stepMany (h : Settled origin c) (count : Nat) :
    Settled origin (c.stepMany count) := by
  induction count generalizing c with
  | zero => exact h
  | succ count ih =>
    have hflushed : Settled origin (c.ask .step).2.flush :=
      (h.toAccounts.ask (Request.replaces_of_isDriving rfl _)).flush
    rw [Chronicle.stepMany]
    dsimp only
    split
    · exact hflushed.aside (.complain _ _)
    · split
      · exact ih hflushed
      · exact hflushed

theorem Settled.runToEnd (h : Settled origin c) {limit : Nat} {interval? : Option Nat} :
    ∀ d ∈ c.runToEnd limit interval?, Settled origin d := by
  have hbegun (milliseconds now) : Settled origin (c.ask (.run milliseconds now)).2 :=
    h.ask (Request.replaces_of_isDriving rfl _) (Simulator.unexecuted nofun nofun)
  rw [Chronicle.runToEnd]
  dsimp only
  split
  · intro d hmem
    obtain rfl := Option.some.inj hmem
    exact (hbegun _ _).aside (.complain _ _)
  · intro d hmem
    obtain ⟨stopped, hstopped, rfl⟩ := Option.map_eq_some_iff.mp hmem
    exact ((hbegun _ _).drive stopped hstopped).aside (.reportStatus _)

theorem Settled.provide (h : Settled origin c) (value : String) :
    Settled origin (c.provide value) := by
  have hprovided : Settled origin (c.ask (.provideInput value)).2 :=
    h.ask (Request.replaces_of_isDriving rfl _) (Simulator.unexecuted nofun nofun)
  rw [Chronicle.provide]
  dsimp only
  split
  · exact hprovided.aside (.complain _ _)
  · exact hprovided.toAccounts.flush

theorem Settled.reset (h : Settled origin c) : Settled origin (c.renew .reset).flush :=
  (h.renew rfl rfl).flush

theorem Settled.restart (h : Settled origin c) : Settled origin c.restart := by
  have hunexecuted : (c.session.simulator.respond .restart).1.isExecution = false :=
    Simulator.unexecuted nofun nofun
  have hanswer : (c.ask .restart).1 = .refused .notLoaded ∨ (c.ask .restart).1 = .done := by
    change c.session.simulator.restart.1 = _ ∨ c.session.simulator.restart.1 = _
    rw [Simulator.restart]
    cases c.session.simulator.program? with
    | none => exact .inl rfl
    | some p => exact .inr rfl
  rw [Chronicle.restart]
  rcases hanswer with hrefused | hdone
  · rw [hrefused]
    have hstays : Request.restart.replaces (c.session.simulator.respond .restart).1 = false := by
      rw [show (c.session.simulator.respond .restart).1 = _ from hrefused]
      rfl
    exact (h.ask hstays hunexecuted).aside (.complain _ _)
  · rw [hdone]
    have hreplaced : Request.restart.replaces (c.session.simulator.respond .restart).1 = true := by
      rw [show (c.session.simulator.respond .restart).1 = _ from hdone]
      rfl
    exact (h.renew hreplaced hunexecuted).flush

/-- **Every command** finds a session settled and leaves it settled. -/
theorem Settled.execute (h : Settled origin c) {limit : Nat} {command : Command} :
    ∀ d ∈ c.execute limit command, Settled origin d := by
  intro d hmem
  cases command with
  | step count =>
    obtain rfl := Option.some.inj hmem
    exact (h.stepMany count).aside (.reportStatus _)
  | run interval? => exact h.runToEnd d hmem
  | input value =>
    obtain rfl := Option.some.inj hmem
    exact h.provide value
  | reset =>
    obtain rfl := Option.some.inj hmem
    exact h.reset.aside (.reportStatus _)
  | restart =>
    obtain rfl := Option.some.inj hmem
    exact h.restart.aside (.reportStatus _)
  | registers | memory _ _ | output | help =>
    obtain rfl := Option.some.inj hmem
    exact h.aside (.tell _ _)
  | list =>
    obtain rfl := Option.some.inj hmem
    exact h.aside (.showListing _)
  | status =>
    obtain rfl := Option.some.inj hmem
    exact h.aside (.reportStatus _)
  | quit =>
    obtain rfl := Option.some.inj hmem
    exact h

theorem Settled.obey (h : Settled origin c) {limit : Nat} {source : CommandSource}
    {lines : List String} : ∀ d ∈ c.obey limit source lines, Settled origin d := by
  induction lines generalizing c with
  | nil =>
    intro d hmem
    obtain rfl := Option.some.inj hmem
    exact h.aside (.awaitCommand _ _)
  | cons line rest ih =>
    have hread : Settled origin
        (c.apart fun s => (s.awaitCommand source).commandRead source) :=
      h.aside ((Aside.awaitCommand _ _).trans (.commandRead _ _))
    rw [Chronicle.obey]
    split
    · exact ih hread
    · split
      · split
        · intro d hmem
          obtain rfl := Option.some.inj hmem
          exact hread
        · intro d hmem
          obtain ⟨c', hc', hd⟩ := Option.bind_eq_some_iff.mp hmem
          exact ih (hread.execute c' hc') d hd
      · exact ih (hread.aside (.complain _ _))

/-! ## 4. Unattended sessions -/

theorem Settled.give (h : Settled origin c) (answer : Answer) :
    Settled origin (c.give answer) := by
  have hgiven : Settled origin
      ((c.apart (Session.hear answer)).ask (.provideInput answer.text)).2 :=
    (h.aside (.hear _ _)).ask (Request.replaces_of_isDriving rfl _)
      (Simulator.unexecuted nofun nofun)
  rw [Chronicle.give]
  split
  · exact hgiven.toAccounts.flush
  · exact hgiven.aside (.complain _ _)

/-- One turn leaves a session settled, if all that follows does. -/
theorem Settled.turn (h : Settled origin c) {limit : Nat} {answers : List Answer}
    (hrest : ∀ answer rest, answers = answer :: rest → ∀ c, Settled origin c →
      ∀ d ∈ c.runAnswering limit rest, Settled origin d.1) :
    ∀ d ∈ c.runAnswering limit answers, Settled origin d.1 := by
  have hbegun : Settled origin (c.ask (.run c.session.interval c.session.clock)).2 :=
    h.ask (Request.replaces_of_isDriving rfl _) (Simulator.unexecuted nofun nofun)
  intro d hmem
  rw [Chronicle.runAnswering.eq_def] at hmem
  dsimp only at hmem
  split at hmem
  · obtain ⟨stopped, hstopped, hd⟩ := Option.bind_eq_some_iff.mp hmem
    have hsettled := hbegun.drive stopped hstopped
    split at hd
    · cases answers with
      | nil =>
        obtain rfl := Option.some.inj hd
        exact hsettled.aside (.giveUp _)
      | cons answer rest => exact hrest answer rest rfl _ (hsettled.give answer) d hd
    · obtain rfl := Option.some.inj hd
      exact hsettled
  · obtain rfl := Option.some.inj hmem
    dsimp only
    exact hbegun.aside (.complain _ _)

theorem Settled.runAnswering (h : Settled origin c) {limit : Nat} {answers : List Answer} :
    ∀ d ∈ c.runAnswering limit answers, Settled origin d.1 := by
  induction answers generalizing c with
  | nil => exact h.turn nofun
  | cons answer rest ih =>
    refine h.turn fun _ _ hcons c hc => ?_
    obtain ⟨-, rfl⟩ := List.cons.inj hcons
    exact ih hc

/-! ## 5. The output of a session -/

theorem settled_start (p : Program) (options : Options) :
    Settled (Session.start p options).simulator (.start p options) where
  history := rfl
  stdout := rfl
  printed := Nat.le_refl 0
  slices := nofun
  all := rfl

/-- Whether `c` is **the history of a session** that began with the simulator `origin` and ended as
`t`, and explains what is on its output. -/
structure Explains (origin : Simulator) (c : Chronicle) (t : Session) : Prop where
  session : c.session = t
  history : t.simulator = origin.afterAll c.requests
  /-- There is a line for each store to the window, in the order of execution, and nothing else. -/
  stdout : t.console.stdout =
    String.join ((origin.windowStores c.requests).map Report.outputLine)
  /-- Whenever output was written, the slice was within the log. -/
  slices : ∀ slice ∈ c.slices, slice.1 ≤ slice.2

theorem Settled.explains (h : Settled origin c) : c.Explains origin c.session :=
  ⟨rfl, h.history, h.stdout_eq, h.slices⟩

/-- What is said at the end changes nothing about it. -/
theorem Settled.runUnattended (h : Settled origin c) {limit : Nat} {queued : List String}
    {stdin : String} : ∀ d ∈ c.runUnattended limit queued stdin, Settled origin d.1 := by
  intro d hmem
  obtain ⟨⟨stopped, rest⟩, hstopped, rfl⟩ := Option.map_eq_some_iff.mp hmem
  exact (h.runAnswering _ hstopped).aside (.reportHalt _)

end Session.Chronicle

namespace Session

/-- **The output of every session that ends** is one line for each instruction executed in it that
stored to the window, in the order of execution and over all lives of the machine, and nothing else.
The history of the session, with a debugger or without, is what it asked of its simulator from the
first request to the last one, and it is also known that no slice of output that it wrote began
behind the end of the log. -/
theorem stdout_of_session (limit : Nat) (p : Program) (options : Options) (stdin : String) :
    (∀ source t, (start p options).runDebugged limit source stdin = some t →
      ∃ c, (Chronicle.start p options).runDebugged limit source stdin = some c ∧
        c.Explains (start p options).simulator t) ∧
    ∀ queued t rest, (start p options).runUnattended limit queued stdin = some (t, rest) →
      ∃ c, (Chronicle.start p options).runUnattended limit queued stdin = some (c, rest) ∧
        c.Explains (start p options).simulator t := by
  have hstart := Chronicle.settled_start p options
  constructor
  · intro source t hended
    have hsession := Chronicle.session_runDebugged limit source stdin (.start p options)
    rw [show (Chronicle.start p options).session = start p options from rfl, hended] at hsession
    obtain ⟨c, hc, rfl⟩ := Option.map_eq_some_iff.mp hsession
    exact ⟨c, hc, (hstart.obey c hc).explains⟩
  · intro queued t rest hended
    have hsession := Chronicle.session_runUnattended limit queued stdin (.start p options)
    rw [show (Chronicle.start p options).session = start p options from rfl, hended] at hsession
    obtain ⟨⟨c, rest'⟩, hc, hpair⟩ := Option.map_eq_some_iff.mp hsession
    obtain ⟨rfl, rfl⟩ := Prod.mk.inj hpair
    exact ⟨c, hc, (hstart.runUnattended _ hc).explains⟩

/-- A program that sends one more than it is given. -/
def sendingProgram : Program :=
  ⟨[⟨0x01F0, .memory⟩, ⟨0x2001, .immediateAlu⟩, ⟨0x11F1, .memory⟩, ⟨0xF000, .halt⟩], .empty⟩

/-- It is restarted after it has sent, emptied, and restarted once more. -/
def commands : CommandSource :=
  .script "run; input 6; run; restart; step; input -1; step 2; reset; step; restart"

/-- What is sent before each of these is written once. -/
theorem stdout_of_session_commands :
    (∃ t c, (start sendingProgram ⟨true, false, true, 5⟩).runDebugged 9 commands "" = some t ∧
      Chronicle.Explains (start sendingProgram ⟨true, false, true, 5⟩).simulator c t ∧
        t.console.stdout = "OUT 0x1F1: 7\nOUT 0x1F1: 0\n") ∧
    ∃ t c, (start sendingProgram ⟨false, true, false, 0⟩).runUnattended 9 [] "0xFF\n" =
        some (t, []) ∧
      Chronicle.Explains (start sendingProgram ⟨false, true, false, 0⟩).simulator c t ∧
        t.console.stdout = "OUT 0x1F1: 256\n" := by
  constructor
  · have hstdout :
        ((start sendingProgram ⟨true, false, true, 5⟩).runDebugged 9 commands "").map
          (·.console.stdout) = some "OUT 0x1F1: 7\nOUT 0x1F1: 0\n" := by decide +kernel
    obtain ⟨t, ht, hwritten⟩ := Option.map_eq_some_iff.mp hstdout
    obtain ⟨c, -, hexplains⟩ :=
      (stdout_of_session 9 sendingProgram ⟨true, false, true, 5⟩ "").1 commands t ht
    exact ⟨t, c, ht, hexplains, hwritten⟩
  · have hstdout :
        ((start sendingProgram ⟨false, true, false, 0⟩).runUnattended 9 [] "0xFF\n").map
          (fun ended => (ended.1.console.stdout, ended.2)) =
            some ("OUT 0x1F1: 256\n", []) := by decide +kernel
    obtain ⟨⟨t, rest⟩, ht, hwritten⟩ := Option.map_eq_some_iff.mp hstdout
    obtain ⟨hwritten, rfl⟩ := Prod.mk.inj hwritten
    obtain ⟨c, -, hexplains⟩ :=
      (stdout_of_session 9 sendingProgram ⟨false, true, false, 0⟩ "0xFF\n").2 [] t [] ht
    exact ⟨t, c, ht, hexplains, hwritten⟩

end Session
end PredicatedCpu

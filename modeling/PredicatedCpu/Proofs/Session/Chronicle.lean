/-
# Chronicles

A session forgets.  What it asked of its simulator, and how far the output had been written each
time it wrote more, cannot be told from where it stands at the end.  A **chronicle** is a session
that keeps this beside it.  It does what the session does, by the same steps, and it talks to the
simulator only where it writes down that it does.

* `Chronicle`: a session, the requests it made, and the slices of output it wrote;
* a function on chronicles for each function on sessions that makes requests;
* `session_obey`, `session_runAnswering`: without what is written down, they are the functions on
  sessions, so that a chronicle is the history of a session and not of something like it.
-/
import PredicatedCpu.Proofs.Session.Steps

namespace PredicatedCpu
namespace Session

/-- A session with its history. -/
structure Chronicle where
  session : Session
  /-- Everything that was asked of the simulator, in order. -/
  requests : List Request
  /-- For each time that output was written: how many records had been written before, and how
  many the machine had. -/
  slices : List (Nat × Nat)

namespace Chronicle

/-! ## 1. What is written down -/

/-- The history of a session that begins. -/
def start (p : Program) (options : Options) : Chronicle := ⟨.start p options, [], []⟩

/-- Puts a request to the simulator. -/
def ask (c : Chronicle) (request : Request) : Response × Chronicle :=
  ((c.session.ask request).1,
    { c with session := (c.session.ask request).2, requests := c.requests ++ [request] })

/-- Reports everything new: the journal is drained, and a slice of the output is written. -/
def flush (c : Chronicle) : Chronicle where
  session := c.session.flush
  requests := c.requests ++ [.drain]
  slices := c.slices ++ [(c.session.printed, c.session.simulator.machine.output.size)]

/-- Does something for which the simulator is not needed. -/
def apart (f : Session → Session) (c : Chronicle) : Chronicle :=
  { c with session := f c.session }

@[simp] theorem ask_fst (c : Chronicle) (request : Request) :
    (c.ask request).1 = (c.session.ask request).1 := rfl

@[simp] theorem session_ask (c : Chronicle) (request : Request) :
    (c.ask request).2.session = (c.session.ask request).2 := rfl

@[simp] theorem session_flush (c : Chronicle) : c.flush.session = c.session.flush := rfl

@[simp] theorem session_apart (f : Session → Session) (c : Chronicle) :
    (c.apart f).session = f c.session := rfl

/-! ## 2. Driving -/

def tick (c : Chronicle) (schedule : Schedule) : Chronicle :=
  let now := max c.session.clock schedule.due
  ((c.ask (.tick now)).2.apart fun s => { s with clock := now }).flush

def drive : Nat → Chronicle → Option Chronicle
  | 0, _ => none
  | limit + 1, c =>
    match c.session.simulator.schedule? with
    | none => some c
    | some schedule => drive limit (c.tick schedule)

@[simp] theorem session_drive (limit : Nat) (c : Chronicle) :
    (c.drive limit).map session = c.session.drive limit := by
  induction limit generalizing c with
  | zero => rfl
  | succ limit ih =>
    rw [drive, Session.drive]
    cases c.session.simulator.schedule? with
    | none => rfl
    | some schedule => exact ih (c.tick schedule)

/-! ## 3. Debugger commands -/

def stepMany : Nat → Chronicle → Chronicle
  | 0, c => c
  | count + 1, c =>
    let (response, stepped) := c.ask .step
    let flushed := stepped.flush
    match response.complaint? with
    | some text => flushed.apart (·.complain text)
    | none =>
      if flushed.session.simulator.status = .paused then stepMany count flushed else flushed

def runToEnd (limit : Nat) (interval? : Option Nat) (c : Chronicle) : Option Chronicle :=
  let (response, begun) := c.ask (.run (interval?.getD c.session.interval) c.session.clock)
  match response.complaint? with
  | some text => some (begun.apart (·.complain text))
  | none => (begun.drive limit).map (apart reportStatus)

def provide (value : String) (c : Chronicle) : Chronicle :=
  let (response, provided) := c.ask (.provideInput value)
  match response.complaint? with
  | some text => provided.apart (·.complain text)
  | none => provided.flush

/-- Asks for a machine whose output is counted from the start. -/
def renew (request : Request) (c : Chronicle) : Chronicle := (c.ask request).2.apart rewind

def restart (c : Chronicle) : Chronicle :=
  match (c.ask .restart).1.complaint? with
  | some text => (c.ask .restart).2.apart (·.complain text)
  | none => (c.renew .restart).flush

def execute (limit : Nat) (c : Chronicle) : Command → Option Chronicle
  | .step count => some ((c.stepMany count).apart reportStatus)
  | .run interval? => c.runToEnd limit interval?
  | .input value => some (c.provide value)
  | .reset => some ((c.renew .reset).flush.apart reportStatus)
  | .restart => some (c.restart.apart reportStatus)
  | .registers =>
    some (c.apart fun s => s.tell (Report.registers s.console.minimal s.simulator.machine))
  | .memory first count =>
    some (c.apart fun s =>
      s.tell (Report.memory s.console.minimal s.simulator.machine first count))
  | .output => some (c.apart fun s => s.tell (Report.output s.simulator.machine))
  | .list => some (c.apart showListing)
  | .status => some (c.apart reportStatus)
  | .help => some (c.apart (·.tell (Command.helpText ++ "\n")))
  | .quit => some c

def obey (limit : Nat) (source : CommandSource) : List String → Chronicle → Option Chronicle
  | [], c => some (c.apart (awaitCommand source))
  | line :: rest, c =>
    let c := c.apart fun s => (s.awaitCommand source).commandRead source
    if isBlankLine line then obey limit source rest c
    else match Command.parse line with
      | .ok command =>
        if command = .quit then some c
        else (c.execute limit command).bind (obey limit source rest)
      | .error e => obey limit source rest (c.apart (·.complain e.message))

def runDebugged (limit : Nat) (source : CommandSource) (stdin : String) (c : Chronicle) :
    Option Chronicle :=
  c.obey limit source (source.lines stdin)

@[simp] theorem session_stepMany (count : Nat) (c : Chronicle) :
    (c.stepMany count).session = c.session.stepMany count := by
  induction count generalizing c with
  | zero => rfl
  | succ count ih =>
    rw [stepMany, Session.stepMany]
    simp only [ask_fst]
    cases (c.session.ask .step).1.complaint? with
    | some text => rfl
    | none =>
      dsimp only
      by_cases hpaused : (c.ask .step).2.flush.session.simulator.status = .paused
      · rw [if_pos hpaused]
        exact (ih _).trans (if_pos hpaused).symm
      · rw [if_neg hpaused]
        exact (if_neg hpaused).symm

@[simp] theorem session_runToEnd (limit : Nat) (interval? : Option Nat) (c : Chronicle) :
    (c.runToEnd limit interval?).map session = c.session.runToEnd limit interval? := by
  rw [runToEnd, Session.runToEnd]
  simp only [ask_fst]
  cases (c.session.ask _).1.complaint? with
  | some text => rfl
  | none =>
    dsimp only
    rw [← session_ask, ← session_drive, Option.map_map, Option.map_map]
    rfl

@[simp] theorem session_provide (value : String) (c : Chronicle) :
    (c.provide value).session = c.session.provide value := by
  rw [provide, Session.provide]
  simp only [ask_fst]
  cases (c.session.ask _).1.complaint? <;> rfl

@[simp] theorem session_restart (c : Chronicle) : c.restart.session = c.session.restart := by
  rw [restart, Session.restart]
  simp only [ask_fst]
  cases (c.session.ask .restart).1.complaint? <;> rfl

@[simp] theorem session_execute (limit : Nat) (c : Chronicle) (command : Command) :
    (c.execute limit command).map session = c.session.execute limit command := by
  cases command with
  | step count =>
    rw [execute, Session.execute, ← session_stepMany]
    rfl
  | run interval? => exact c.session_runToEnd limit interval?
  | input value => exact congrArg some (c.session_provide value)
  | restart =>
    rw [execute, Session.execute, ← session_restart]
    rfl
  | _ => rfl

/-- **The history of a debugged session**: without what is written down, it is the session. -/
theorem session_obey (limit : Nat) (source : CommandSource) (lines : List String)
    (c : Chronicle) : (c.obey limit source lines).map session =
      c.session.obey limit source lines := by
  induction lines generalizing c with
  | nil => rfl
  | cons line rest ih =>
    rw [obey, Session.obey_cons]
    split
    · exact ih _
    · cases Command.parse line with
      | error e => exact ih _
      | ok command =>
        dsimp only
        by_cases hquit : command = .quit
        · rw [if_pos hquit, if_pos hquit]
          rfl
        · have hexecute := session_execute limit
            (c.apart fun s => (s.awaitCommand source).commandRead source) command
          rw [session_apart] at hexecute
          rw [if_neg hquit, if_neg hquit, Option.map_bind, ← hexecute, Option.bind_map]
          congr 1
          funext c'
          exact ih c'

/-! ## 4. Unattended sessions -/

def give (c : Chronicle) (answer : Answer) : Chronicle :=
  let given := (c.apart (Session.hear answer)).ask (.provideInput answer.text)
  if given.1 = .done then given.2.flush
  else given.2.apart (·.complain (given.1.complaint?.getD ""))

def runAnswering (limit : Nat) (answers : List Answer) (c : Chronicle) :
    Option (Chronicle × List Answer) :=
  let begun := c.ask (.run c.session.interval c.session.clock)
  if begun.1 = .done then
    (begun.2.drive limit).bind fun stopped =>
      if stopped.session.simulator.status = .waitingForInput then
        match answers with
        | [] => some (stopped.apart giveUp, [])
        | answer :: rest => runAnswering limit rest (stopped.give answer)
      else some (stopped, answers)
  else some (begun.2.apart (·.complain (begun.1.complaint?.getD "")), answers)

def runUnattended (limit : Nat) (queued : List String) (stdin : String) (c : Chronicle) :
    Option (Chronicle × List Answer) :=
  (c.runAnswering limit (answers queued stdin)).map fun (c', rest) => (c'.apart reportHalt, rest)

@[simp] theorem session_give (c : Chronicle) (answer : Answer) :
    (c.give answer).session = c.session.give answer := by
  rw [give, give_eq]
  simp only [apply_ite session]
  rfl

/-- One turn of a chronicle is one turn of its session, if all that follows is. -/
theorem session_turn {limit : Nat} {answers : List Answer} (c : Chronicle)
    (hrest : ∀ answer rest, answers = answer :: rest → ∀ d : Chronicle,
      (d.runAnswering limit rest).map (Prod.map session id) = d.session.runAnswering limit rest) :
    (c.runAnswering limit answers).map (Prod.map session id) =
      c.session.runAnswering limit answers := by
  rw [runAnswering.eq_def, runAnswering_eq]
  dsimp only
  by_cases hdone : (c.ask (.run c.session.interval c.session.clock)).1 = .done
  · rw [if_pos hdone]
    refine Eq.trans ?_ (if_pos hdone).symm
    rw [← session_ask, ← session_drive, Option.map_bind, Option.bind_map]
    congr 1
    funext stopped
    simp only [Function.comp]
    split
    · cases answers with
      | nil => rfl
      | cons answer rest =>
        dsimp only
        rw [hrest answer rest rfl, session_give]
    · rfl
  · rw [if_neg hdone]
    exact (if_neg hdone).symm

/-- **The history of an unattended session**: without what is written down, it is the session, and
the same answers are left over. -/
theorem session_runAnswering (limit : Nat) (answers : List Answer) (c : Chronicle) :
    (c.runAnswering limit answers).map (Prod.map session id) =
      c.session.runAnswering limit answers := by
  induction answers generalizing c with
  | nil => exact c.session_turn nofun
  | cons answer rest ih =>
    refine c.session_turn fun _ _ hcons d => ?_
    obtain ⟨-, rfl⟩ := List.cons.inj hcons
    exact ih d

theorem session_runDebugged (limit : Nat) (source : CommandSource) (stdin : String)
    (c : Chronicle) :
    (c.runDebugged limit source stdin).map session = c.session.runDebugged limit source stdin :=
  session_obey limit source (source.lines stdin) c

theorem session_runUnattended (limit : Nat) (queued : List String) (stdin : String)
    (c : Chronicle) :
    (c.runUnattended limit queued stdin).map (Prod.map session id) =
      c.session.runUnattended limit queued stdin := by
  rw [runUnattended, Session.runUnattended, ← session_runAnswering, Option.map_map, Option.map_map]
  rfl

end Chronicle
end Session
end PredicatedCpu

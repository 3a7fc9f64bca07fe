/-
# The steps of a session

A session does three kinds of things: it puts a request to its simulator, it says something beside
the output, and it flushes what is new.  Everything else in it is the order of these steps.

* `Aside`: nothing changes but what was said beside the output, which is all that messages do;
* `execute_of_shows`: the commands that only show something;
* `Flushes`: the journal is drained, and the output records that are new are written;
* `obey_cons`, `give_eq`, `runAnswering_eq`: the loops, one turn written out.
-/
import PredicatedCpu.Session.Debugged

namespace PredicatedCpu

/-! ## 1. Messages -/

namespace Console

@[simp] theorem stdout_write (c : Console) (text : String) :
    (c.write text).stdout = c.stdout ++ text := rfl

@[simp] theorem minimal_write (c : Console) (text : String) :
    (c.write text).minimal = c.minimal := rfl

@[simp] theorem colour_write (c : Console) (text : String) :
    (c.write text).colour = c.colour := rfl

end Console

namespace Session

/-- Whether `t` differs from `s` in nothing but **what was said beside the output**. -/
structure Aside (s t : Session) : Prop where
  simulator : t.simulator = s.simulator
  trace : t.trace = s.trace
  interval : t.interval = s.interval
  printed : t.printed = s.printed
  clock : t.clock = s.clock
  stdout : t.console.stdout = s.console.stdout
  minimal : t.console.minimal = s.console.minimal
  colour : t.console.colour = s.console.colour

namespace Aside

theorem refl (s : Session) : s.Aside s := ⟨rfl, rfl, rfl, rfl, rfl, rfl, rfl, rfl⟩

theorem trans {s t u : Session} (h : s.Aside t) (h' : t.Aside u) : s.Aside u where
  simulator := h'.simulator.trans h.simulator
  trace := h'.trace.trans h.trace
  interval := h'.interval.trans h.interval
  printed := h'.printed.trans h.printed
  clock := h'.clock.trans h.clock
  stdout := h'.stdout.trans h.stdout
  minimal := h'.minimal.trans h.minimal
  colour := h'.colour.trans h.colour

theorem tell (s : Session) (text : String) : s.Aside (s.tell text) :=
  ⟨rfl, rfl, rfl, rfl, rfl, rfl, rfl, rfl⟩

theorem complain (s : Session) (text : String) : s.Aside (s.complain text) :=
  ⟨rfl, rfl, rfl, rfl, rfl, rfl, rfl, rfl⟩

/-- A message that only some consoles get. -/
theorem mention (s : Session) (text : String) :
    s.Aside { s with console := s.console.mention text } := by
  unfold Console.mention
  split
  · exact refl s
  · exact .tell s text

theorem startLine (s : Session) : s.Aside { s with console := s.console.startLine } := by
  unfold Console.startLine
  split
  · exact refl s
  · exact .tell s "\n"

theorem lineEntered (s : Session) : s.Aside { s with console := s.console.lineEntered } :=
  ⟨rfl, rfl, rfl, rfl, rfl, rfl, rfl, rfl⟩

theorem reportStatus (s : Session) : s.Aside s.reportStatus := .tell s _

theorem showListing (s : Session) : s.Aside s.showListing := by
  unfold Session.showListing
  cases s.simulator.program? with
  | none => exact .complain s _
  | some p => exact .tell s _

theorem reportHalt (s : Session) : s.Aside s.reportHalt := by
  unfold Session.reportHalt
  split
  · exact (startLine s).trans (.tell _ _)
  · exact refl s

theorem promptInput (s : Session) : s.Aside s.promptInput := (startLine s).trans (.tell _ _)

theorem giveUp (s : Session) : s.Aside s.giveUp := (promptInput s).trans (.tell _ _)

theorem awaitCommand (source : CommandSource) (s : Session) :
    s.Aside (s.awaitCommand source) := by
  cases source with
  | script text => exact refl s
  | terminal => exact (startLine s).trans (.mention _ _)

theorem commandRead (source : CommandSource) (s : Session) : s.Aside (s.commandRead source) := by
  cases source with
  | script text => exact refl s
  | terminal => exact lineEntered s

theorem reportEvent (s : Session) (event : Event) : s.Aside (s.reportEvent event) := by
  unfold Session.reportEvent
  cases event.level with
  | info =>
    dsimp only
    split
    · exact .mention s _
    · exact refl s
  | warning | error => exact .tell s _

/-- Whatever the journal holds, reporting it is talk. -/
theorem foldl_reportEvent (s : Session) (events : List Event) :
    s.Aside (events.foldl Session.reportEvent s) := by
  induction events generalizing s with
  | nil => exact refl s
  | cons event rest ih => exact (reportEvent s event).trans (ih _)

end Aside

end Session

/-- Whether a command only **shows** something. -/
def Command.shows : Command → Bool
  | .registers | .memory _ _ | .output | .list | .status | .help => true
  | .step _ | .run _ | .input _ | .reset | .restart | .quit => false

namespace Session

/-- **What shows something does nothing else.** -/
theorem execute_of_shows {command : Command} (h : command.shows = true) (s : Session) :
    ∃ t, s.Aside t ∧ ∀ limit, s.execute limit command = some t := by
  cases command with
  | registers | memory _ _ | output | help => exact ⟨_, .tell s _, fun _ => rfl⟩
  | list => exact ⟨_, .showListing s, fun _ => rfl⟩
  | status => exact ⟨_, .reportStatus s, fun _ => rfl⟩
  | step _ | run _ | input _ | reset | restart | quit => cases h

/-! ## 2. Flushing -/

/-- The lines of some output records. -/
def lines (records : List OutputRecord) : String := String.join (records.map Report.outputLine)

@[simp] theorem lines_nil : lines [] = "" := rfl

@[simp] theorem lines_append (first second : List OutputRecord) :
    lines (first ++ second) = lines first ++ lines second := by
  rw [lines, List.map_append, String.join_append]
  rfl

/-- The output records of a session that were not written yet. -/
def unwritten (s : Session) : List OutputRecord :=
  s.simulator.machine.output.toList.drop s.printed

/-- **What a flush does**: the journal is empty afterwards, the records that were not written are
on the output, and all are counted as written. -/
structure Flushes (s t : Session) : Prop where
  simulator : t.simulator = s.simulator.drain.2
  trace : t.trace = s.trace
  interval : t.interval = s.interval
  printed : t.printed = s.simulator.machine.output.size
  clock : t.clock = s.clock
  stdout : t.console.stdout = s.console.stdout ++ lines s.unwritten
  minimal : t.console.minimal = s.console.minimal
  colour : t.console.colour = s.console.colour

/-- Writing records adds their lines to the output, and changes the console in no other lasting
way. -/
theorem foldl_write (records : List OutputRecord) (c : Console) :
    (records.foldl (fun c record => c.write (Report.outputLine record)) c).stdout =
        c.stdout ++ lines records ∧
      (records.foldl (fun c record => c.write (Report.outputLine record)) c).minimal = c.minimal ∧
      (records.foldl (fun c record => c.write (Report.outputLine record)) c).colour =
        c.colour := by
  induction records generalizing c with
  | nil =>
    rw [lines_nil, String.append_empty]
    exact ⟨rfl, rfl, rfl⟩
  | cons record rest ih =>
    obtain ⟨hstdout, hminimal, hcolour⟩ := ih (c.write (Report.outputLine record))
    have hlines : lines (record :: rest) = Report.outputLine record ++ lines rest := by
      rw [lines, List.map_cons, String.join_cons, ← lines]
    rw [List.foldl_cons, hstdout, hminimal, hcolour, hlines, ← String.append_assoc,
      Console.stdout_write]
    exact ⟨rfl, c.minimal_write _, c.colour_write _⟩

theorem flushes_flush (s : Session) : s.Flushes s.flush := by
  have haside : { s with simulator := s.simulator.drain.2 }.Aside s.reportJournal :=
    .foldl_reportEvent _ _
  have hmachine : s.reportJournal.simulator.machine = s.simulator.machine := by
    rw [haside.simulator]
    rfl
  obtain ⟨hstdout, hminimal, hcolour⟩ := foldl_write s.unwritten s.reportJournal.console
  have hslice : (s.simulator.machine.output.extract s.printed
      s.simulator.machine.output.size).toList = s.unwritten := by
    rw [Array.toList_extract, List.extract_eq_take_drop, unwritten]
    exact List.take_of_length_le (by simp)
  have hfold : s.flush.console = s.unwritten.foldl
      (fun c record => c.write (Report.outputLine record)) s.reportJournal.console := by
    rw [flush, reportOutput, hmachine, haside.printed, ← Array.foldl_toList, hslice]
  constructor
  · exact haside.simulator
  · exact haside.trace
  · exact haside.interval
  · rw [flush, reportOutput, hmachine]
  · exact haside.clock
  · rw [hfold, hstdout, haside.stdout]
  · rw [hfold, hminimal, haside.minimal]
  · rw [hfold, hcolour, haside.colour]

/-! ## 3. The loops -/

/-- What becomes of the next line. -/
theorem obey_cons (limit : Nat) (source : CommandSource) (line : String) (rest : List String)
    (s : Session) :
    s.obey limit source (line :: rest) =
      let s := (s.awaitCommand source).commandRead source
      if isBlankLine line then obey limit source rest s
      else match Command.parse line with
        | .ok command =>
          if command = .quit then some s
          else (s.execute limit command).bind (obey limit source rest)
        | .error e => obey limit source rest (s.complain e.message) := by
  rw [obey]
  split
  · rfl
  · cases Command.parse line with
    | error e => rfl
    | ok command =>
      by_cases hquit : command = .quit
      · subst hquit
        rfl
      · cases command with
        | quit => exact absurd rfl hquit
        | _ =>
          dsimp only
          rw [if_neg hquit]
          cases execute limit _ _ <;> rfl

/-- Puts the question that an answer is for: nothing is said before one that was queued. -/
def hear (answer : Answer) (s : Session) : Session :=
  match answer with
  | .queued _ => s
  | .typed _ => { s.promptInput with console := s.promptInput.console.lineEntered }

theorem Aside.hear (answer : Answer) (s : Session) : s.Aside (s.hear answer) := by
  cases answer with
  | queued text => exact refl s
  | typed line => exact (promptInput s).trans (.lineEntered _)

/-- What becomes of an answer. -/
theorem give_eq (s : Session) (answer : Answer) :
    s.give answer =
      let given := (s.hear answer).ask (.provideInput answer.text)
      if given.1 = .done then given.2.flush
      else given.2.complain (given.1.complaint?.getD "") := by
  cases answer with
  | queued text =>
    rw [give, hear]
    rcases s.ask (.provideInput (Answer.queued text).text) with ⟨response, s'⟩
    cases response <;> rfl
  | typed line =>
    rw [give, hear]
    generalize { s.promptInput with console := s.promptInput.console.lineEntered } = asked
    rcases asked.ask (.provideInput (Answer.typed line).text) with ⟨response, s'⟩
    cases response <;> rfl

/-- What becomes of the answers in one turn: the program runs until it stops, and if it stopped to
wait, it is given the next answer. -/
theorem runAnswering_eq (limit : Nat) (answers : List Answer) (s : Session) :
    s.runAnswering limit answers =
      let begun := s.ask (.run s.interval s.clock)
      if begun.1 = .done then
        (begun.2.drive limit).bind fun stopped =>
          if stopped.simulator.status = .waitingForInput then
            match answers with
            | [] => some (stopped.giveUp, [])
            | answer :: rest => runAnswering limit rest (stopped.give answer)
          else some (stopped, answers)
      else some (begun.2.complain (begun.1.complaint?.getD ""), answers) := by
  rw [runAnswering.eq_def]
  rcases s.ask (.run s.interval s.clock) with ⟨response, begun⟩
  cases response with
  | done =>
    dsimp only
    rw [if_pos rfl]
    cases begun.drive limit <;> rfl
  | _ => rfl

end Session
end PredicatedCpu

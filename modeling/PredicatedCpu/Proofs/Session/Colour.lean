/-
# A minimal console has no colours

A program that reads what a minimal console writes does not ask whether there are colours.  They are
put into the messages all the same, and taken out again behind everything else: behind the columns,
and behind the question of where the cursor is, which decides about line feeds later on.  And some
messages have sequences in them without being coloured.

So two sessions are followed that differ in their colours and in nothing else.  Whatever they say is
the same once the colours are taken out, since what is coloured is clean; then the cursor is at the
same place too, and they still differ in nothing else.

* `Console.Twin`, `Twin`: two consoles, and two sessions, that differ in their colours only;
* `Console.plain_paint_append`: what is coloured looks the same to both;
* `Twin.ask`, `Twin.flush`, `Twin.tick`: the steps of a session;
* `lockstep_twin`: so they go in lockstep, through commands and through answers;
* `colour_unseen`: no colour is seen, and no escape.
-/
import PredicatedCpu.Proofs.Session.Lockstep
import PredicatedCpu.Proofs.Session.Wording

namespace PredicatedCpu

open Terminal (Clean)

/-! ## 1. Consoles -/

namespace Console

/-- Whether two consoles are **twins**: they are minimal, have said nothing with an escape in it,
and differ in nothing but whether there are colours. -/
inductive Twin : Console → Console → Prop
  | intro {c : Console} (colour : Bool) (minimal : c.minimal = true) (clean : Clean c.stderr) :
      Twin c { c with colour }

variable {c d : Console}

theorem Twin.symm (h : c.Twin d) : d.Twin c := by
  obtain ⟨colour, minimal, clean⟩ := h
  exact .intro (c := { c with colour }) c.colour minimal clean

theorem Twin.write (h : c.Twin d) (text : String) : (c.write text).Twin (d.write text) := by
  obtain ⟨colour, minimal, clean⟩ := h
  exact .intro (c := c.write text) colour minimal clean

/-- **Twins say the same** if it looks the same without its colours: the same is written, and the
cursor is moved to the same place. -/
theorem Twin.tell (h : c.Twin d) {text text' : String}
    (hsame : Terminal.plain text' = Terminal.plain text) : (c.tell text).Twin (d.tell text') := by
  obtain ⟨colour, minimal, clean⟩ := h
  -- The cursor goes by what is visible, not by what is written.
  have hvisible : Terminal.visible false text'.toList = Terminal.visible false text.toList := by
    rw [← Terminal.toList_plain, hsame, Terminal.toList_plain]
  have htold : { c with colour }.tell text' = { c.tell text with colour } := by
    simp only [Console.tell, moveCursor, lineStartAfter, minimal, if_true, hsame, hvisible]
  have hclean : Clean (c.tell text).stderr := by
    simp only [Console.tell, moveCursor, minimal, if_true]
    exact Terminal.clean_append.mpr ⟨clean, Terminal.clean_plain text⟩
  rw [htold]
  exact .intro colour minimal hclean

theorem Twin.mention (h : c.Twin d) (text text' : String) :
    (c.mention text).Twin (d.mention text') := by
  obtain ⟨colour, minimal, clean⟩ := h
  have hunsaid (d : Console) (hd : d.minimal = true) (text : String) : d.mention text = d :=
    if_pos hd
  rw [hunsaid c minimal, hunsaid { c with colour } minimal]
  exact .intro colour minimal clean

theorem Twin.startLine (h : c.Twin d) : c.startLine.Twin d.startLine := by
  have htold : (c.tell "\n").Twin (d.tell "\n") := h.tell rfl
  obtain ⟨colour, minimal, clean⟩ := h
  unfold Console.startLine
  dsimp only
  split
  · exact .intro colour minimal clean
  · exact htold

theorem Twin.lineEntered (h : c.Twin d) : c.lineEntered.Twin d.lineEntered := by
  obtain ⟨colour, minimal, clean⟩ := h
  exact .intro (c := c.lineEntered) colour minimal clean

/-- **What is coloured looks as if it were not**, with or without colours. -/
theorem plain_paint_append (c : Console) (colour : Colour) {text : String} (h : Clean text)
    (rest : String) :
    Terminal.plain (c.paint colour text ++ rest) = text ++ Terminal.plain rest := by
  unfold paint
  split
  · rw [Terminal.plain_append (Terminal.closed_paint colour text), Terminal.plain_paint colour h]
  · rw [Terminal.plain_append (Terminal.closed_of_clean h), Terminal.plain_of_clean h]

theorem plain_margin_append (c : Console) (colour : Colour) {word : String}
    (h : Clean (Text.alignRight 12 word)) (rest : String) :
    Terminal.plain (c.margin colour word ++ rest) =
      Text.alignRight 12 word ++ Terminal.plain rest :=
  c.plain_paint_append colour h rest

/-- An entry that is more than information is coloured in two pieces. -/
theorem exists_entry_eq {event : Event} (h : event.level ≠ .info) :
    ∃ colour word, Clean (Text.alignRight 12 word) ∧ ∀ c : Console, Report.entry c event =
      c.margin colour word ++ " " ++ c.paint colour event.message ++ "\n" := by
  unfold Report.entry
  cases hlevel : event.level with
  | info => exact absurd hlevel h
  | warning => exact ⟨.yellow, "Warning", by decide, fun _ => rfl⟩
  | error => exact ⟨.red, "Error", by decide, fun _ => rfl⟩

/-- **An entry that is legible** looks the same on every console. -/
theorem plain_entry (c d : Console) {event : Event} (hlevel : event.level ≠ .info)
    (h : event.Legible) :
    Terminal.plain (Report.entry d event) = Terminal.plain (Report.entry c event) := by
  have hgap : Terminal.Closed " ".toList := Terminal.closed_of_clean (by decide)
  obtain ⟨colour, word, hword, hentry⟩ := exists_entry_eq hlevel
  simp only [hentry, String.append_assoc, plain_margin_append _ _ hword,
    Terminal.plain_append hgap, plain_paint_append _ _ (h hlevel)]

/-- What is written to twins is the same. -/
theorem Twin.foldl_write (h : c.Twin d) (records : List OutputRecord) :
    (records.foldl (fun c record => c.write (Report.outputLine record)) c).Twin
      (records.foldl (fun c record => c.write (Report.outputLine record)) d) := by
  induction records generalizing c d with
  | nil => exact h
  | cons record rest ih =>
    rw [List.foldl_cons, List.foldl_cons]
    exact ih (h.write _)

end Console

/-! ## 2. Sessions -/

namespace Session

/-- Whether two sessions are **twins**: their consoles are, they differ in nothing else, and what
they have to report is legible. -/
inductive Twin : Session → Session → Prop
  | intro {s : Session} {d : Console} (console : s.console.Twin d)
      (legible : s.simulator.Legible) : Twin s { s with console := d }

namespace Twin

variable {s t : Session}

theorem symm (h : s.Twin t) : t.Twin s := by
  obtain ⟨console, legible⟩ := h
  exact .intro (s := { s with console := _ }) console.symm legible

theorem simulator (h : s.Twin t) : t.simulator = s.simulator := by
  obtain ⟨console, legible⟩ := h
  rfl

theorem interval (h : s.Twin t) : t.interval = s.interval := by
  obtain ⟨console, legible⟩ := h
  rfl

theorem clock (h : s.Twin t) : t.clock = s.clock := by
  obtain ⟨console, legible⟩ := h
  rfl

theorem console_minimal (h : s.Twin t) : t.console.minimal = s.console.minimal := by
  obtain ⟨⟨colour, minimal, clean⟩, legible⟩ := h
  rfl

/-- There is no escape in what twins have said. -/
theorem clean (h : s.Twin t) : Clean s.console.stderr := by
  obtain ⟨⟨_, _, hclean⟩, _⟩ := h
  exact hclean

/-- Twins have said the same, and written the same output. -/
theorem written (h : s.Twin t) :
    t.console.stderr = s.console.stderr ∧ t.console.stdout = s.console.stdout := by
  obtain ⟨⟨colour, minimal, clean⟩, legible⟩ := h
  exact ⟨rfl, rfl⟩

theorem tell (h : s.Twin t) {text text' : String}
    (hsame : Terminal.plain text' = Terminal.plain text) : (s.tell text).Twin (t.tell text') := by
  obtain ⟨console, legible⟩ := h
  exact .intro (s := s.tell text) (console.tell hsame) legible

/-- A complaint is coloured as a whole. -/
theorem complain (h : s.Twin t) {text : String} (hclean : Clean text) :
    (s.complain text).Twin (t.complain text) := by
  refine h.tell ?_
  rw [Console.plain_paint_append _ _ hclean, Console.plain_paint_append _ _ hclean]

theorem reportStatus (h : s.Twin t) : s.reportStatus.Twin t.reportStatus := by
  refine h.tell ?_
  rw [h.simulator]

theorem showListing (h : s.Twin t) : s.showListing.Twin t.showListing := by
  unfold Session.showListing
  rw [h.simulator]
  cases s.simulator.program? with
  | none => exact h.complain (by decide)
  | some p => exact h.tell rfl

theorem startLine (h : s.Twin t) :
    Twin { s with console := s.console.startLine } { t with console := t.console.startLine } := by
  obtain ⟨console, legible⟩ := h
  exact .intro (s := { s with console := s.console.startLine }) console.startLine legible

theorem lineEntered (h : s.Twin t) :
    Twin { s with console := s.console.lineEntered }
      { t with console := t.console.lineEntered } := by
  obtain ⟨console, legible⟩ := h
  exact .intro (s := { s with console := s.console.lineEntered }) console.lineEntered legible

theorem promptInput (h : s.Twin t) : s.promptInput.Twin t.promptInput := by
  have hword : Clean (Text.alignRight 12 "Input") := by decide
  refine h.startLine.tell ?_
  rw [Console.plain_margin_append _ _ hword, Console.plain_margin_append _ _ hword]

theorem giveUp (h : s.Twin t) : s.giveUp.Twin t.giveUp := by
  have htext : Clean "No more input. Stopping." := by decide
  refine h.promptInput.tell ?_
  rw [Console.plain_paint_append _ _ htext, Console.plain_paint_append _ _ htext]

theorem reportHalt (h : s.Twin t) : s.reportHalt.Twin t.reportHalt := by
  have hword : Clean (Text.alignRight 12 "Halted") := by decide
  have hstatus : t.simulator.status = s.simulator.status := by rw [h.simulator]
  unfold Session.reportHalt
  rw [hstatus]
  split
  · refine h.startLine.tell ?_
    rw [h.simulator]
    simp only [String.append_assoc, Console.plain_margin_append _ _ hword]
  · exact h

/-- A prompt for a command is left out. -/
theorem awaitCommand (h : s.Twin t) (source : CommandSource) :
    (s.awaitCommand source).Twin (t.awaitCommand source) := by
  cases source with
  | script text => exact h
  | terminal =>
    obtain ⟨console, legible⟩ := h
    exact .intro (s := s.promptCommand) (console.startLine.mention _ _) legible

theorem commandRead (h : s.Twin t) (source : CommandSource) :
    (s.commandRead source).Twin (t.commandRead source) := by
  cases source with
  | script text => exact h
  | terminal => exact h.lineEntered

/-! ## 3. The steps of a session -/

theorem reportEvent (h : s.Twin t) {event : Event} (hevent : event.Legible) :
    (s.reportEvent event).Twin (t.reportEvent event) := by
  have hurgent (hlevel : event.level ≠ .info) :
      (s.tell (Report.entry s.console event)).Twin (t.tell (Report.entry t.console event)) :=
    h.tell (Console.plain_entry _ _ hlevel hevent)
  unfold Session.reportEvent
  cases hlevel : event.level with
  | info =>
    obtain ⟨console, legible⟩ := h
    dsimp only
    split
    · exact .intro (s := { s with console := s.console.mention _ }) (console.mention _ _) legible
    · exact .intro console legible
  | warning | error => exact hurgent (by rw [hlevel]; decide)

theorem foldl_reportEvent (h : s.Twin t) {events : List Event}
    (hevents : ∀ event ∈ events, event.Legible) :
    (events.foldl Session.reportEvent s).Twin (events.foldl Session.reportEvent t) := by
  induction events generalizing s t with
  | nil => exact h
  | cons event rest ih =>
    rw [List.forall_mem_cons] at hevents
    exact ih (h.reportEvent hevents.1) hevents.2

theorem reportJournal (h : s.Twin t) : s.reportJournal.Twin t.reportJournal := by
  obtain ⟨console, legible⟩ := h
  exact foldl_reportEvent
    (.intro (s := { s with simulator := s.simulator.drain.2 }) console
      (Simulator.legible_drain _)) legible

theorem reportOutput (h : s.Twin t) : s.reportOutput.Twin t.reportOutput := by
  obtain ⟨console, legible⟩ := h
  refine .intro (s := s.reportOutput) ?_ legible
  unfold Session.reportOutput
  dsimp only
  rw [← Array.foldl_toList, ← Array.foldl_toList]
  exact console.foldl_write _

theorem flush (h : s.Twin t) : s.flush.Twin t.flush := h.reportJournal.reportOutput

/-- **Twins are answered the same**, and stay twins. -/
theorem ask (h : s.Twin t) (request : Request) (hrequest : request.Clean) :
    AnsweredAlike Clean Twin (s.ask request) (t.ask request) := by
  obtain ⟨console, legible⟩ := h
  obtain ⟨hanswer, hlegible⟩ := legible.respond hrequest
  exact ⟨rfl, hanswer, .intro (s := (s.ask request).2) console hlegible⟩

theorem withClock (h : s.Twin t) (now : Time) :
    Twin { s with clock := now } { t with clock := now } := by
  obtain ⟨console, legible⟩ := h
  exact .intro (s := { s with clock := now }) console legible

theorem tick (h : s.Twin t) (schedule : Schedule) : (s.tick schedule).Twin (t.tick schedule) := by
  unfold Session.tick
  dsimp only
  rw [h.clock]
  exact ((h.ask (.tick _) trivial).related.withClock _).flush

theorem rewind (h : s.Twin t) : s.rewind.Twin t.rewind := by
  obtain ⟨console, legible⟩ := h
  exact .intro (s := s.rewind) console legible

theorem hear (h : s.Twin t) (answer : Answer) : (s.hear answer).Twin (t.hear answer) := by
  cases answer with
  | queued text => exact h
  | typed line => exact h.promptInput.lineEntered

/-- The same request is made for a run. -/
theorem begins (h : s.Twin t) (interval? : Option Nat) :
    AnsweredAlike Clean Twin (s.ask (.run (interval?.getD s.interval) s.clock))
      (t.ask (.run (interval?.getD t.interval) t.clock)) := by
  rw [h.interval, h.clock]
  exact h.ask (.run _ _) trivial

/-- What only shows something looks the same. -/
theorem shows {command : Command} (hshows : command.shows = true) (h : s.Twin t) :
    Follows Twin (s.execute · command) (t.execute · command) := by
  cases command with
  | registers | memory _ _ | output =>
    refine .at_once (h.tell ?_)
    simp only [h.simulator, h.console_minimal]
  | help => exact .at_once (h.tell rfl)
  | list => exact .at_once h.showListing
  | status => exact .at_once h.reportStatus
  | step _ | run _ | input _ | reset | restart | quit => cases hshows

end Twin

/-- There is no text in a request that a session puts between two runs, but the value it gives. -/
theorem Puts.clean {request : Request} (h : Puts Clean request) : request.Clean := by
  cases h with
  | provideInput hclean => exact hclean
  | step | reset | restart => trivial

/-- **Twins stay twins in lockstep**, if what they read is clean. -/
theorem lockstep_twin : Lockstep Twin Twin Clean where
  symm := Twin.symm
  simulator := Twin.simulator
  ask hputs h := h.ask _ hputs.clean
  complain hclean h := h.complain hclean
  flush := Twin.flush
  rewind := Twin.rewind
  reportStatus := Twin.reportStatus
  reportHalt := Twin.reportHalt
  giveUp := Twin.giveUp
  hear answer h := h.hear answer
  awaitCommand source h := h.awaitCommand source
  commandRead source h := h.commandRead source
  shows := Twin.shows
  begins interval? h := h.begins interval?
  refused interval? h _ := (h.begins interval?).related
  scheduled h := by rw [h.simulator]
  tick h hs ht := by
    rw [h.simulator, hs] at ht
    obtain rfl := Option.some.inj ht
    exact h.tick _
  stops h _ := h
  silence := by decide
  reads hline hparsed := by
    have hread := Command.cleanlyRead_parse hline
    rwa [hparsed] at hread
  misreads hline hparsed := by
    have hread := Command.cleanlyRead_parse hline
    rwa [hparsed] at hread

/-! ## 4. Colours -/

theorem twin_start (p : Program) {options : Options} (h : options.minimal = true)
    (colour : Bool) : (start p options).Twin (start p { options with colour }) := by
  have hnothing : Clean "" := by decide
  exact .intro (s := start p options)
    (.intro (c := .fresh options.colour options.minimal) colour h hnothing)
    (Simulator.legible_drain _)

/-- **No colour is seen on a minimal console.**  Let a minimal session end, with a debugger or
without, in which there is no escape in what it reads.  Then there is none in what it has said.  It
ends as well if it has colours where it had none, or none where it had, and however it is driven to
its end, it has said the same and written the same output. -/
theorem colour_unseen (p : Program) (options : Options) (hminimal : options.minimal = true)
    (colour : Bool) (stdin : String) (hstdin : Clean stdin) :
    (∀ source limit t, source.Clean → (start p options).runDebugged limit source stdin = some t →
      Clean t.console.stderr ∧
      (∃ limit' t', (start p { options with colour }).runDebugged limit' source stdin = some t') ∧
      ∀ limit' t', (start p { options with colour }).runDebugged limit' source stdin = some t' →
        t'.console.stderr = t.console.stderr ∧ t'.console.stdout = t.console.stdout) ∧
    ∀ queued limit t rest, (∀ text ∈ queued, Clean text) →
      (start p options).runUnattended limit queued stdin = some (t, rest) →
      Clean t.console.stderr ∧
      (∃ limit' ended,
        (start p { options with colour }).runUnattended limit' queued stdin = some ended) ∧
      ∀ limit' t' rest',
        (start p { options with colour }).runUnattended limit' queued stdin = some (t', rest') →
          t'.console.stderr = t.console.stderr ∧ t'.console.stdout = t.console.stdout := by
  have hstart := twin_start p hminimal colour
  constructor
  · intro source limit t hsource hended
    have hlines : ∀ line ∈ source.lines stdin, Clean line :=
      fun _ => CommandSource.clean_of_mem_lines hsource hstdin
    obtain ⟨⟨limit', t', hended'⟩, hsame⟩ := lockstep_twin.obey_same_end hlines hstart hended
    exact ⟨(hsame limit' t' hended').clean, ⟨limit', t', hended'⟩,
      fun limit' t' hended' => (hsame limit' t' hended').written⟩
  · intro queued limit t rest hqueued hended
    have hanswers : ∀ answer ∈ answers queued stdin, Clean answer.text :=
      fun _ => clean_of_mem_answers hqueued hstdin
    obtain ⟨⟨limit', ended, hended'⟩, hsame⟩ :=
      lockstep_twin.runUnattended_same_end hanswers hstart hended
    exact ⟨(hsame limit' ended hended').related.clean, ⟨limit', ended, hended'⟩,
      fun limit' t' rest' hended' => (hsame limit' (t', rest') hended').related.written⟩

/-- A program that sends back what it is given, again and again. -/
def sendingOn : Program :=
  ⟨[⟨0x01F0, .memory⟩, ⟨0x11F1, .memory⟩, ⟨0xC000, .branch⟩], .empty⟩

/-- What is coloured of its sessions, two complaints, a warning and a prompt, is said without the
colours that were asked for. -/
theorem colour_unseen_sendingOn :
    (Clean "fly;input 6" ∧ ∃ t limit' t',
      (start sendingOn ⟨true, true, true, 0⟩).runDebugged 9 (.script "fly;input 6") "" = some t ∧
      (start sendingOn ⟨true, true, false, 0⟩).runDebugged limit' (.script "fly;input 6") "" =
        some t' ∧
      Clean t.console.stderr ∧
      t'.console.stderr = "Not a command: `fly`\nMachine is not waiting for input\n" ∧
        t'.console.stdout = "") ∧
    Clean "six" ∧ ∃ t rest limit' t' rest',
      (start sendingOn ⟨true, true, true, 0⟩).runUnattended 9 ["six"] "" = some (t, rest) ∧
      (start sendingOn ⟨true, true, false, 0⟩).runUnattended limit' ["six"] "" =
        some (t', rest') ∧
      Clean t.console.stderr ∧
      t'.console.stderr = "     Warning Input `six` is not a valid number, using 0.\n" ++
        "       Input No more input. Stopping.\n" ∧
        t'.console.stdout = "OUT 0x1F1: 0\n" := by
  have hstdin : Clean "" := by decide
  have hscript : Clean "fly;input 6" := by decide
  have hqueued : ∀ text ∈ ["six"], Clean text := by decide
  have hunseen := colour_unseen sendingOn ⟨true, true, true, 0⟩ rfl false "" hstdin
  refine ⟨⟨hscript, ?_⟩, hqueued "six" List.mem_cons_self, ?_⟩
  · have hwritten : ((start sendingOn ⟨true, true, true, 0⟩).runDebugged 9
        (.script "fly;input 6") "").map (fun t => (t.console.stderr, t.console.stdout)) =
          some ("Not a command: `fly`\nMachine is not waiting for input\n", "") := by
      decide +kernel
    obtain ⟨t, hended, hwritten⟩ := Option.map_eq_some_iff.mp hwritten
    obtain ⟨hstderr, hstdout⟩ := Prod.mk.inj hwritten
    obtain ⟨hclean, ⟨limit', t', hended'⟩, hsame⟩ :=
      hunseen.1 (.script "fly;input 6") 9 t hscript hended
    obtain ⟨hstderr', hstdout'⟩ := hsame limit' t' hended'
    exact ⟨t, limit', t', hended, hended', hclean, hstderr'.trans hstderr,
      hstdout'.trans hstdout⟩
  · have hwritten : ((start sendingOn ⟨true, true, true, 0⟩).runUnattended 9 ["six"] "").map
        (fun ended => (ended.1.console.stderr, ended.1.console.stdout)) =
          some ("     Warning Input `six` is not a valid number, using 0.\n" ++
            "       Input No more input. Stopping.\n", "OUT 0x1F1: 0\n") := by
      decide +kernel
    obtain ⟨⟨t, rest⟩, hended, hwritten⟩ := Option.map_eq_some_iff.mp hwritten
    obtain ⟨hstderr, hstdout⟩ := Prod.mk.inj hwritten
    obtain ⟨hclean, ⟨limit', ⟨t', rest'⟩, hended'⟩, hsame⟩ :=
      hunseen.2 ["six"] 9 t rest hqueued hended
    obtain ⟨hstderr', hstdout'⟩ := hsame limit' t' rest' hended'
    exact ⟨t, rest, limit', t', rest', hended, hended', hclean, hstderr'.trans hstderr,
      hstdout'.trans hstdout⟩

end Session
end PredicatedCpu

/-
# The wording of messages

A message that is shown in a colour is taken between two sequences as it is.  If a sequence were in
it already, that one would be mixed up with the two around it, and the message would look different
without its colour from how it would have looked had it never been coloured.  So it matters what
messages are made of.

Most of it is fixed, or a numeral, or a name of the machine's, and there is no escape in any of it.
The rest are quotations.  A message quotes a text that was given as input and could not be read, or
a part of a command that could not be obeyed, and then it is as clean as what it quotes.

* `Fault.clean_message`, `Refusal.clean_message`: messages without quotations;
* `Simulator.Legible.respond`: what is said of an answer, and what is left in the journal;
* `Command.cleanlyRead_parse`: a command, or what is wrong with it;
* `CommandSource.clean_of_mem_lines`, `clean_of_mem_answers`: the lines and answers of a session.
-/
import PredicatedCpu.Proofs.Assembly.Canonical
import PredicatedCpu.Proofs.Simulator.Journal
import PredicatedCpu.Proofs.Terminal.Visible
import PredicatedCpu.Proofs.Text.Words
import PredicatedCpu.Session.Debugged

namespace PredicatedCpu

open Terminal (escape Clean clean_append)

/-! ## 1. Names and numerals -/

theorem Plain.clean {text : String} (h : Plain text) : Clean text :=
  fun hmem => absurd (h.2 escape hmem) (by decide)

theorem digitChar_ne_escape : ∀ digit < 16, digit.digitChar ≠ escape := by decide

theorem escape_notMem_toDigits {radix : Nat} (hradix : 1 < radix) (hle : radix ≤ 16)
    (value : Nat) : escape ∉ Nat.toDigits radix value := by
  intro hmem
  obtain ⟨digit, hlt, hdigit⟩ := Text.exists_of_mem_toDigits hradix hmem
  exact digitChar_ne_escape digit (by omega) hdigit.symm

theorem clean_decimal (value : Nat) : Clean (Text.decimal value) := by
  rw [Clean, Text.toList_decimal]
  exact escape_notMem_toDigits (by decide) (by decide) value

theorem clean_lowerHex (width value : Nat) : Clean (Text.lowerHex width value) := by
  rw [Text.lowerHex, Text.zeroPad, clean_append, Text.filling, Clean, Clean, String.toList_ofList,
    String.toList_ofList]
  refine ⟨fun hmem => ?_, escape_notMem_toDigits (by decide) (by decide) value⟩
  exact absurd (List.eq_of_mem_replicate hmem) (by decide)

theorem Tag.clean_name (tag : Tag) : Clean tag.name := by
  cases tag <;> decide

/-! ## 2. Messages without quotations -/

/-- What is put between two clean texts is all that has to be looked at. -/
theorem clean_between {before text after : String} (hbefore : Clean before) (h : Clean text)
    (hafter : Clean after) : Clean (before ++ text ++ after) :=
  clean_append.mpr ⟨clean_append.mpr ⟨hbefore, h⟩, hafter⟩

theorem DecodeError.clean_message (e : DecodeError) : Clean e.message := by
  cases e with
  | noInstruction | readOnlyPredicate => decide
  | unknownOpcode code => exact clean_append.mpr ⟨by decide, clean_lowerHex 1 code⟩
  | mismatch opcode tag =>
    have hopcode := (plain_mnemonic opcode).clean
    exact clean_append.mpr
      ⟨clean_between (by decide) hopcode (by decide), tag.clean_name⟩
  | unknownCondition code => exact clean_append.mpr ⟨by decide, clean_decimal code⟩

theorem Fault.clean_message (f : Fault) : Clean f.message := by
  have hword : Clean ("Invalid instruction " ++ wordText f.word ++ " (") :=
    clean_between (by decide) (plain_wordText f.word).clean (by decide)
  have htag := clean_between hword f.tag.clean_name (by decide : Clean ") at ")
  have horigin :=
    clean_between htag (plain_addressText f.origin).clean (by decide : Clean ": ")
  exact clean_append.mpr ⟨horigin, f.cause.clean_message⟩

theorem Refusal.clean_message (refusal : Refusal) : Clean refusal.message := by
  cases refusal <;> decide

theorem clean_missingDeviceText (address : Word) : Clean (missingDeviceText address) :=
  clean_between (by decide) (plain_addressText address.toNat).clean (by decide)

/-! ## 3. Pieces of a clean text -/

/-- What is cut out of a clean text is clean. -/
theorem clean_ofList {text : String} (h : Clean text) {piece : List Char}
    (hpiece : ∀ c ∈ piece, c ∈ text.toList) : Clean (String.ofList piece) := by
  rw [Clean, String.toList_ofList]
  exact fun hmem => h (hpiece escape hmem)

/-! ## 4. The journal -/

/-- Whether an entry of the journal is **legible**: what is said of it is clean, or it is only
information. -/
def Event.Legible (event : Event) : Prop := event.level ≠ .info → Clean event.message

namespace Event

theorem legible_of_info {event : Event} (h : event.level = .info) : event.Legible :=
  fun hlevel => absurd h hlevel

theorem legible_missingDevice (address : Word) : (missingDevice address).Legible :=
  fun _ => clean_missingDeviceText address

theorem legible_faulted (fault : Fault) : (faulted fault).Legible := fun _ => fault.clean_message

/-- A text that could not be read is quoted. -/
theorem legible_unreadableInput {text : String} (h : Clean text) :
    (unreadableInput text).Legible := by
  have hquoted := clean_ofList h fun _ => Text.mem_of_mem_trim
  exact fun _ => clean_between (by decide) hquoted (by decide)

end Event

/-- Whether a request is **clean**: there is no text in it but what is given as input, and that is
clean. -/
def Request.Clean : Request → Prop
  | .provideInput text => Terminal.Clean text
  | .loadSource _ | .loadParts _ _ => False
  | _ => True

/-- Whether an answer is **clean**: what is said of it is, if anything is said. -/
def Response.Clean (response : Response) : Prop :=
  ∀ text, response.complaint? = some text → Terminal.Clean text

namespace Response

theorem clean_of_silent {response : Response} (h : response.complaint? = none) :
    response.Clean := by
  intro text htext
  rw [h] at htext
  cases htext

theorem clean_refused (refusal : Refusal) : (refused refusal).Clean := by
  rintro _ ⟨⟩
  exact refusal.clean_message

theorem clean_faulted (fault : Fault) : (faulted fault).Clean := by
  rintro _ ⟨⟩
  exact fault.clean_message

end Response

namespace Simulator

variable {s t : Simulator} {request : Request}

/-- Whether a simulator is **legible**: all entries of its journal are. -/
def Legible (s : Simulator) : Prop := ∀ event ∈ s.journal.toList, event.Legible

theorem legible_of_journal_eq (h : s.Legible) (hsame : t.journal = s.journal) : t.Legible := by
  rwa [Legible, hsame]

theorem legible_of_journal_append (h : s.Legible) {left : List Event}
    (hleft : ∀ event ∈ left, event.Legible) (hgrown : t.journal = s.journal ++ left.toArray) :
    t.Legible := by
  rw [Legible, hgrown, Array.toList_append]
  exact List.forall_mem_append.mpr ⟨h, hleft⟩

theorem Legible.load (h : s.Legible) (p : Program) : (s.load p).Legible :=
  legible_of_journal_append h (by simpa using Event.legible_of_info rfl) (journal_load p s)

theorem Legible.reset (h : s.Legible) : s.reset.Legible :=
  legible_of_journal_append h (by simpa using Event.legible_of_info rfl) s.journal_reset

/-- A journal that was taken away is empty. -/
theorem legible_drain (s : Simulator) : s.drain.2.Legible :=
  fun _ hevent => absurd hevent (by simp [drain])

/-- What an instruction leaves is information, and perhaps a warning. -/
theorem legible_eventsOf (origin : Nat) (effect : Effect) :
    ∀ event ∈ eventsOf origin effect, event.Legible := by
  intro event hevent
  rcases List.mem_cons.mp hevent with rfl | hevent
  · exact Event.legible_of_info rfl
  · obtain ⟨address, -, rfl⟩ := List.mem_map.mp hevent
    exact Event.legible_missingDevice address

theorem legible_inputEvents (dest : Register) {text : String} (h : Clean text) :
    ∀ event ∈ inputEvents dest text, event.Legible := by
  have htaken (value : Word) : (Event.inputTaken dest value).Legible := Event.legible_of_info rfl
  unfold inputEvents
  split
  · simpa using htaken _
  · simpa using ⟨Event.legible_unreadableInput h, htaken 0⟩

theorem Legible.advance (h : s.Legible) : s.advance.1.Clean ∧ s.advance.2.Legible := by
  unfold Simulator.advance
  rcases s.machine.step with ⟨fault | effect, m⟩
  · refine ⟨Response.clean_faulted fault, legible_of_journal_append h ?_ (journal_record _ _)⟩
    simpa using Event.legible_faulted fault
  · simp only [foldl_record]
    exact ⟨Response.clean_of_silent rfl,
      legible_of_journal_append h (legible_eventsOf _ effect) rfl⟩

theorem Legible.step (h : s.Legible) : s.step.1.Clean ∧ s.step.2.Legible := by
  cases hready : s.stepRefusal? with
  | some refusal =>
    rw [step_of_refusal hready]
    exact ⟨Response.clean_refused refusal, h⟩
  | none =>
    rw [step_of_ready hready]
    exact h.advance

theorem Legible.tick (h : s.Legible) (now : Time) :
    (s.tick now).1.Clean ∧ (s.tick now).2.Legible := by
  unfold Simulator.tick
  split
  · exact ⟨Response.clean_of_silent rfl, h⟩
  · rename_i schedule _
    split
    · exact ⟨Response.clean_of_silent rfl, h⟩
    · -- The journal is the same, whatever the schedule is.
      have hmoved : Legible
          { s with schedule? := some ⟨schedule.interval, now + schedule.interval⟩ } := h
      obtain ⟨hanswer, hstepped⟩ := hmoved.step
      split
      · rename_i effect t hstep
        rw [hstep] at hstepped
        exact ⟨Response.clean_of_silent rfl, hstepped⟩
      · rename_i response t _ hstep
        rw [hstep] at hanswer hstepped
        exact ⟨hanswer, hstepped⟩

theorem Legible.run (h : s.Legible) (milliseconds : Nat) (now : Time) :
    (s.run milliseconds now).1.Clean ∧ (s.run milliseconds now).2.Legible := by
  refine ⟨?_, legible_of_journal_eq h (s.journal_run milliseconds now)⟩
  unfold Simulator.run
  split
  · exact Response.clean_refused _
  · exact Response.clean_of_silent rfl

/-- **A clean request** gets a clean answer and leaves a legible journal. -/
theorem Legible.respond (h : s.Legible) (hrequest : request.Clean) :
    (s.respond request).1.Clean ∧ (s.respond request).2.Legible := by
  cases request with
  | loadSource _ | loadParts _ _ => exact hrequest.elim
  | step => exact h.step
  | tick now => exact h.tick now
  | run milliseconds now => exact h.run milliseconds now
  | stop => exact ⟨Response.clean_of_silent rfl, legible_of_journal_eq h s.journal_stop⟩
  | setInterval milliseconds now =>
    rw [Simulator.respond, setInterval]
    split
    · exact ⟨Response.clean_of_silent rfl, h⟩
    · exact (legible_of_journal_eq h s.journal_stop).run milliseconds now
  | reset => exact ⟨Response.clean_of_silent rfl, h.reset⟩
  | restart =>
    rw [Simulator.respond, Simulator.restart]
    split
    · exact ⟨Response.clean_refused _, h⟩
    · exact ⟨Response.clean_of_silent rfl, h.reset.load _⟩
  | provideInput text =>
    rw [Simulator.respond]
    cases hpending : s.machine.pending with
    | none =>
      rw [provideInput, hpending]
      exact ⟨Response.clean_refused _, h⟩
    | some pending =>
      rw [provideInput_of_pending hpending]
      exact ⟨Response.clean_of_silent rfl,
        legible_of_journal_append h (legible_inputEvents pending.dest hrequest) rfl⟩
  | drain => exact ⟨Response.clean_of_silent rfl, legible_drain s⟩

end Simulator

/-! ## 5. Commands -/

/-- Whether a command is **clean**: there is no text in it but a value, and that is clean. -/
def Command.Clean : Command → Prop
  | .input value => Terminal.Clean value
  | _ => True

/-- Whether nothing comes of reading a command but a clean command or a clean message. -/
def Command.CleanlyRead : Except CommandError Command → Prop
  | .ok command => command.Clean
  | .error e => Terminal.Clean e.message

namespace CommandError

variable {quoted : String}

theorem clean_unknown (h : Clean quoted) : Clean (unknown quoted).message :=
  clean_between (by decide) h (by decide)

theorem clean_tooMany (h : Clean quoted) : Clean (tooMany quoted).message :=
  clean_between (by decide) h (by decide)

theorem clean_missing {command : String} (hcommand : Clean command) (h : Clean quoted) :
    Clean (missing command quoted).message := by
  have hargument := clean_between (by decide : Clean "Missing argument `") h
    (by decide : Clean "` for `")
  exact clean_between hargument hcommand (by decide)

theorem clean_invalid {command : String} (hcommand : Clean command) (h : Clean quoted) :
    Clean (invalid command quoted).message := by
  have hargument := clean_between (by decide : Clean "Invalid argument `") h
    (by decide : Clean "` for `")
  exact clean_between hargument hcommand (by decide)

end CommandError

namespace Command

open CommandError

variable {arguments : List String}

theorem error_of_stepCount {argument : String} {e : CommandError}
    (h : stepCount argument = .error e) : e = .invalid "step" argument := by
  unfold stepCount at h
  split at h <;> cases h
  rfl

theorem error_of_milliseconds {argument : String} {e : CommandError}
    (h : milliseconds argument = .error e) : e = .invalid "run" argument := by
  unfold milliseconds at h
  split at h <;> cases h
  rfl

theorem error_of_memoryNumber {argument : String} {e : CommandError}
    (h : memoryNumber argument = .error e) : e = .invalid "memory" argument := by
  unfold memoryNumber at h
  split at h
  · split at h <;> cases h
    rfl
  · cases h
    rfl

/-- An argument that is read by itself is quoted if it cannot be read. -/
theorem cleanlyRead_bind {read : Except CommandError Nat} {name argument : String}
    (hname : Terminal.Clean name) (hargument : Terminal.Clean argument)
    (herror : ∀ e, read = .error e → e = .invalid name argument)
    {next : Nat → Except CommandError Command} (hnext : ∀ value, CleanlyRead (next value)) :
    CleanlyRead (read >>= next) := by
  cases read with
  | error e =>
    obtain rfl := herror e rfl
    exact clean_invalid hname hargument
  | ok value => exact hnext value

theorem cleanlyRead_bare {name : String} (hname : Terminal.Clean name) {command : Command}
    (hcommand : command.Clean) (arguments : List String) :
    CleanlyRead (bare name command arguments) := by
  cases arguments with
  | nil => exact hcommand
  | cons first others => exact clean_tooMany hname

theorem cleanlyRead_parseStep (h : ∀ argument ∈ arguments, Terminal.Clean argument) :
    CleanlyRead (parseStep arguments) := by
  unfold parseStep
  split
  · trivial
  · exact cleanlyRead_bind (by decide) (h _ List.mem_cons_self)
      (fun _ => error_of_stepCount) fun _ => trivial
  · exact clean_tooMany (by decide)

theorem cleanlyRead_parseRun (h : ∀ argument ∈ arguments, Terminal.Clean argument) :
    CleanlyRead (parseRun arguments) := by
  unfold parseRun
  split
  · trivial
  · exact cleanlyRead_bind (by decide) (h _ List.mem_cons_self)
      (fun _ => error_of_milliseconds) fun _ => trivial
  · exact clean_tooMany (by decide)

theorem cleanlyRead_parseInput (h : ∀ argument ∈ arguments, Terminal.Clean argument) :
    CleanlyRead (parseInput arguments) := by
  unfold parseInput
  split
  · exact clean_missing (by decide) (by decide)
  · exact h _ List.mem_cons_self
  · exact clean_tooMany (by decide)

theorem cleanlyRead_parseMemory (h : ∀ argument ∈ arguments, Terminal.Clean argument) :
    CleanlyRead (parseMemory arguments) := by
  have hname : Terminal.Clean "memory" := by decide
  unfold parseMemory
  split
  · exact clean_missing hname (by decide)
  · exact cleanlyRead_bind hname (h _ List.mem_cons_self) (fun _ => error_of_memoryNumber)
      fun _ => trivial
  · rename_i first count
    have hcount : count ∈ [first, count] := List.mem_cons_of_mem first List.mem_cons_self
    refine cleanlyRead_bind hname (h _ List.mem_cons_self) (fun _ => error_of_memoryNumber)
      fun _ => ?_
    exact cleanlyRead_bind hname (h _ hcount) (fun _ => error_of_memoryNumber) fun _ => trivial
  · exact clean_tooMany hname

theorem cleanlyRead_ofWords {word : String} (hword : Terminal.Clean word)
    (h : ∀ argument ∈ arguments, Terminal.Clean argument) :
    CleanlyRead (ofWords word arguments) := by
  unfold ofWords
  split
  case h_1 | h_2 => exact cleanlyRead_parseStep h
  case h_3 | h_4 | h_5 | h_6 => exact cleanlyRead_parseRun h
  case h_7 | h_8 => exact cleanlyRead_parseInput h
  case h_11 | h_12 | h_13 => exact cleanlyRead_parseMemory h
  case h_21 | h_22 | h_23 | h_24 | h_25 => trivial
  case h_26 => exact clean_unknown hword
  -- The commands that take no arguments.
  all_goals exact cleanlyRead_bare (by decide) (by trivial) arguments

/-- **A clean line** is a clean command, or what is said of it is clean. -/
theorem cleanlyRead_parse {line : String} (h : Terminal.Clean line) :
    CleanlyRead (parse line) := by
  have hwords : ∀ word ∈ (Text.words line.toList).map String.ofList, Terminal.Clean word := by
    intro word hword
    obtain ⟨piece, hpiece, rfl⟩ := List.mem_map.mp hword
    exact clean_ofList h fun _ => Text.mem_of_mem_words hpiece
  unfold parse
  split
  · exact clean_unknown (by decide)
  · rename_i word arguments hline
    rw [hline, List.forall_mem_cons] at hwords
    exact cleanlyRead_ofWords hwords.1 hwords.2

end Command

/-! ## 6. Lines and answers -/

namespace Session

/-- Whether the text of a script is clean. -/
def CommandSource.Clean : CommandSource → Prop
  | .script text => Terminal.Clean text
  | .terminal => True

/-- **The lines of a clean input** are clean. -/
theorem clean_of_mem_inputLines {stdin line : String} (h : Clean stdin)
    (hline : line ∈ inputLines stdin) : Clean line := by
  obtain ⟨piece, hpiece, rfl⟩ := List.mem_map.mp hline
  have hwhole : piece ∈ stdin.toList.splitOn '\n' := by
    split at hpiece
    · exact List.dropLast_subset _ hpiece
    · exact hpiece
  exact clean_ofList h fun _ hc => Text.mem_of_mem_splitOnP hwhole (Text.mem_of_mem_trimEnd hc)

theorem CommandSource.clean_of_mem_lines {source : CommandSource} (hsource : source.Clean)
    {stdin line : String} (hstdin : Terminal.Clean stdin) (hline : line ∈ source.lines stdin) :
    Terminal.Clean line := by
  cases source with
  | terminal => exact clean_of_mem_inputLines hstdin hline
  | script text =>
    obtain ⟨trimmed, htrimmed, rfl⟩ := List.mem_map.mp hline
    obtain ⟨piece, hpiece, rfl⟩ := List.mem_map.mp (List.mem_filter.mp htrimmed).1
    exact clean_ofList hsource fun _ hc =>
      Text.mem_of_mem_splitOnP hpiece (Text.mem_of_mem_trim hc)

theorem clean_of_mem_answers {queued : List String} (hqueued : ∀ text ∈ queued, Clean text)
    {stdin : String} (hstdin : Clean stdin) {answer : Answer}
    (hanswer : answer ∈ answers queued stdin) : Clean answer.text := by
  rcases List.mem_append.mp hanswer with hanswer | hanswer
  · obtain ⟨text, htext, rfl⟩ := List.mem_map.mp hanswer
    exact hqueued text htext
  · obtain ⟨line, hline, rfl⟩ := List.mem_map.mp hanswer
    exact clean_of_mem_inputLines hstdin hline

end Session
end PredicatedCpu

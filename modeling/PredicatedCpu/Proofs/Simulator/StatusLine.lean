/-
# The status line tells the truth

The status of a simulator is read off its parts whenever somebody asks, and cannot be out of date.
The status line can: it is kept as it was written, by nine requests, and stays while others change
the parts that it tells of.  It is written before the status is known, it names addresses that are
gone by then, and some requests change a part without a word: a refused one, a stop without a run, a
tick that comes too early.

What keeps the two together is that every request that changes the status also writes, and that no
request moves the program counter and keeps a line that names it.

* `Simulator.Tells`: what a line says of the simulator that it is true of;
* `truthful_advance`: an instruction leaves a line that is true, whatever line it finds;
* `Truthful.respond`: so does every other request, if the one it finds is true;
* `StatusLine.take_text`: the first letters tell one line from another; `StatusLine.text_eq_iff`: a
  line without an address is told by its text;
* `statusLine_agrees`: what can be read in a line, after any requests.
-/
import PredicatedCpu.Proofs.Simulator.Status

namespace PredicatedCpu

/-! ## 1. What a line says -/

namespace Simulator

/-- **What a line says** of a simulator.  A line that names an address names the one behind the
program counter, or in front of it if the machine is halted: the program counter had moved on when
the instruction was executed that halted it. -/
def Tells (s : Simulator) : StatusLine → Prop
  | .nothingLoaded | .reset => s.status = .idle
  | .ready => s.status = .ready
  | .running => s.status = .running
  | .paused => s.status = .ready ∨ s.status = .paused
  | .arrived pc => (s.status = .running ∨ s.status = .paused) ∧ pc = s.machine.pc.val
  | .waitingForInput => s.status = .waitingForInput
  | .halted origin => s.status = .halted ∧ origin = (s.machine.pc - 1).val
  | .faulted fault => s.status = .halted ∧ fault.origin = (s.machine.pc - 1).val

/-- Whether the status line of a simulator is **true** of it. -/
def Truthful (s : Simulator) : Prop := s.Tells s.statusLine

/-- A status is what is described by it. -/
theorem status_eq_of_described {s : Simulator} {status : Status} (h : s.Described status) :
    s.status = status := by
  cases status with
  | idle => simp [Simulator.status, show s.loaded = false from h]
  | halted => simp [Simulator.status, h.1, h.2]
  | waitingForInput => simp [Simulator.status, h.1, h.2.1, h.2.2]
  | running =>
    obtain ⟨hloaded, hhalted, hwaiting⟩ := stepRefusal?_eq_none_iff.mp h.1
    simp [Simulator.status, hloaded, hhalted, hwaiting, h.2]
  | paused =>
    obtain ⟨hloaded, hhalted, hwaiting⟩ := stepRefusal?_eq_none_iff.mp h.1
    simp [Simulator.status, hloaded, hhalted, hwaiting, h.2.1, h.2.2]
  | ready =>
    obtain ⟨hloaded, hhalted, hwaiting⟩ := stepRefusal?_eq_none_iff.mp h.1
    simp [Simulator.status, hloaded, hhalted, hwaiting, h.2.1, h.2.2]

/-- Where a step can be executed and none is scheduled, the status is one of two. -/
theorem status_of_unscheduled {s : Simulator} (hready : s.stepRefusal? = none)
    (hschedule : s.schedule? = none) : s.status = .ready ∨ s.status = .paused := by
  have hnone : s.schedule?.isSome = false := by rw [hschedule, Option.isSome_none]
  rcases Nat.eq_zero_or_pos s.steps with hsteps | hsteps
  · exact .inl (status_eq_of_described ⟨hready, hnone, hsteps⟩)
  · exact .inr (status_eq_of_described ⟨hready, hnone, hsteps⟩)

end Simulator

/-! ## 2. Instructions -/

/-- Only the instruction to halt has this outcome. -/
theorem Operation.perform_of_halted {op : Operation} {m : Machine}
    (h : (op.perform m).1 = .halted) : (op.perform m).2 = m.halt := by
  cases op with
  | load address =>
    simp only [Operation.perform, Operation.performLoad] at h
    split at h
    · split at h <;> cases h
    · cases h
  | store address =>
    simp only [Operation.perform, Operation.performStore] at h
    split at h <;> cases h
  | halt => rfl
  | branch _ | alu _ _ _ _ | compare _ _ | setPredicate _ _ => cases h

/-- **A step that halts the machine** moves on, and does nothing else. -/
theorem Machine.step_of_halted {m m' : Machine} {effect : Effect} (h : m.step = (.ok effect, m'))
    (hhalted : effect.outcome = .halted) : m' = m.advance.halt := by
  obtain ⟨-, hexecute⟩ := Machine.step_eq_ok_iff.mp h
  unfold Instruction.execute at hexecute
  split at hexecute
  · have houtcome : (effect.instruction.operation.perform m.advance).1 = .halted := by
      rw [hexecute, hhalted]
    have hperform := Operation.perform_of_halted houtcome
    rwa [hexecute] at hperform
  · rw [hhalted] at hexecute
    cases hexecute

/-- In front of the next address is this one, also where memory ends. -/
theorem Address.add_one_sub_one (a : Address) : a + 1 - 1 = a := by
  apply Fin.ext
  rw [Fin.sub_def, Fin.add_def]
  simp only [Fin.val_one]
  omega

namespace Simulator

/-- **An instruction leaves a true line**, whatever the line was before.  The cases are those of the
step: a fault, an instruction that halts, one that asks for input, and any other. -/
theorem truthful_advance {s : Simulator} (hready : s.stepRefusal? = none) :
    s.advance.2.Truthful := by
  obtain ⟨hloaded, hhalted, hwaiting⟩ := stepRefusal?_eq_none_iff.mp hready
  have hloaded' : s.advance.2.loaded = true := s.loaded_advance.trans hloaded
  have hmachine := s.machine_advance
  rcases hstep : s.machine.step with ⟨fault | effect, m⟩
  · obtain ⟨-, horigin, -, -, rfl⟩ := Machine.step_eq_error_iff.mp hstep
    have hline : s.advance.2.statusLine = .faulted fault := by
      unfold advance
      rw [hstep]
    rw [hstep] at hmachine
    rw [Truthful, hline]
    refine ⟨status_eq_of_described ⟨hloaded', by rw [hmachine]; rfl⟩, ?_⟩
    rw [hmachine, horigin]
    exact congrArg Fin.val (Address.add_one_sub_one s.machine.pc).symm
  · have hline : s.advance.2.statusLine = lineAfter s.machine.pc.val effect m := by
      unfold advance
      rw [hstep]
    have hhalts := Machine.halted_of_step hstep
    have hwaits := Machine.waiting_of_step hstep hwaiting
    rw [hstep] at hmachine
    rw [Truthful, hline, lineAfter]
    by_cases houtcome : effect.outcome = .halted
    · have hhalting : effect.halted = true := beq_iff_eq.mpr houtcome
      rw [if_pos hhalting]
      refine ⟨status_eq_of_described ⟨hloaded', by rw [hmachine, hhalts]; exact .inr houtcome⟩, ?_⟩
      rw [hmachine, Machine.step_of_halted hstep houtcome]
      exact congrArg Fin.val (Address.add_one_sub_one s.machine.pc).symm
    · have hgoes : ¬ effect.halted = true := fun hhalting => houtcome (beq_iff_eq.mp hhalting)
      have hhalted' : s.advance.2.machine.halted = false := by
        rw [hmachine, ← Bool.not_eq_true, hhalts, hhalted]
        exact fun h => h.elim nofun houtcome
      rw [if_neg hgoes]
      by_cases hsuspended : effect.suspended = true
      · rw [if_pos hsuspended]
        exact status_eq_of_described ⟨hloaded', hhalted', by rw [hmachine, hwaits, hsuspended]⟩
      · have hready' : s.advance.2.stepRefusal? = none := by
          refine stepRefusal?_eq_none_iff.mpr ⟨hloaded', hhalted', ?_⟩
          rw [hmachine, hwaits, ← Bool.not_eq_true]
          exact hsuspended
        rw [if_neg hsuspended]
        refine ⟨?_, by rw [hmachine]⟩
        cases hschedule : s.advance.2.schedule? with
        | some schedule =>
          exact .inl (status_eq_of_described ⟨hready', by rw [hschedule, Option.isSome_some]⟩)
        | none =>
          have hsteps : 0 < s.advance.2.steps := by
            rw [steps_advance]
            exact Nat.succ_pos _
          exact .inr (status_eq_of_described
            ⟨hready', by rw [hschedule, Option.isSome_none], hsteps⟩)

/-! ## 3. Requests -/

/-- A line is about the status and the program counter, and nothing else. -/
theorem Truthful.congr {s t : Simulator} (h : s.Truthful) (hline : t.statusLine = s.statusLine)
    (hstatus : t.status = s.status) (hmachine : t.machine = s.machine) : t.Truthful := by
  unfold Truthful at h ⊢
  rw [hline]
  unfold Tells at h ⊢
  rw [hstatus, hmachine]
  exact h

theorem truthful_load (p : Program) (s : Simulator) : (s.load p).Truthful :=
  (rfl : (s.load p).status = .ready)

theorem truthful_reset (s : Simulator) : s.reset.Truthful := (rfl : s.reset.status = .idle)

theorem Truthful.stop {s : Simulator} (h : s.Truthful) (hcoherent : s.Coherent) :
    s.stop.Truthful := by
  cases hschedule : s.schedule? with
  | none => rwa [stop_of_unscheduled hschedule]
  | some schedule =>
    have hstop : s.stop = { s with schedule? := none, statusLine := .paused } := by
      rw [Simulator.stop, hschedule]
    rw [hstop]
    exact status_of_unscheduled (hcoherent.ready_of_schedule hschedule) rfl

theorem Truthful.run {s : Simulator} (h : s.Truthful) (milliseconds : Nat) (now : Time) :
    (s.run milliseconds now).2.Truthful := by
  unfold Simulator.run
  cases hrefusal : s.runRefusal? with
  | some refusal => exact h
  | none =>
    have hready : s.stepRefusal? = none := (runRefusal?_eq_none_iff.mp hrefusal).2
    refine status_eq_of_described (?_ : Described _ .running)
    exact ⟨hready, rfl⟩

theorem Truthful.provideInput {s : Simulator} (h : s.Truthful) (hcoherent : s.Coherent)
    (text : String) : (s.provideInput text).2.Truthful := by
  cases hpending : s.machine.pending with
  | none =>
    rw [Simulator.provideInput, hpending]
    exact h
  | some pending =>
    have hwaiting : s.machine.waiting = true := by
      rw [Machine.waiting, hpending]
      rfl
    have hhalted : s.machine.halted = false := by
      rw [← Bool.not_eq_true]
      exact fun hhalted => hcoherent.exclusive ⟨hhalted, hwaiting⟩
    rw [provideInput_of_pending hpending]
    exact status_of_unscheduled
      (stepRefusal?_eq_none_iff.mpr ⟨hcoherent.loaded (.inr hwaiting), hhalted, rfl⟩)
      (hcoherent.schedule?_of_waiting hwaiting)

/-- **Every request leaves a true line** where it finds one. -/
theorem Truthful.respond {s : Simulator} (h : s.Truthful) (hcoherent : s.Coherent)
    (request : Request) : (s.respond request).2.Truthful := by
  cases request with
  | loadSource source =>
    rw [Simulator.respond, loadSource]
    split
    · exact truthful_load _ s
    · exact h
  | loadParts words tags =>
    rw [Simulator.respond, loadParts]
    split
    · exact truthful_load _ s
    · exact h
  | step =>
    rw [Simulator.respond]
    cases hready : s.stepRefusal? with
    | some refusal => rwa [step_of_refusal hready]
    | none =>
      rw [step_of_ready hready]
      exact truthful_advance hready
  | run milliseconds now => exact h.run milliseconds now
  | setInterval milliseconds now =>
    rw [Simulator.respond, Simulator.setInterval]
    split
    · exact h
    · exact (h.stop hcoherent).run milliseconds now
  | tick now =>
    rw [Simulator.respond]
    rcases hcoherent.tick_cases now with hstill | ⟨schedule, hschedule, htick⟩
    · rwa [hstill]
    · rw [htick]
      exact truthful_advance (hcoherent.ready_of_schedule hschedule)
  | stop => exact h.stop hcoherent
  | reset => exact truthful_reset s
  | restart =>
    rw [Simulator.respond, restart]
    split
    · exact h
    · exact truthful_load _ _
  | provideInput text => exact h.provideInput hcoherent text
  | drain => exact h.congr rfl rfl rfl

/-- **The line is true whatever was asked.** -/
theorem Reachable.truthful {s : Simulator} (h : s.Reachable) : s.Truthful := by
  obtain ⟨requests, rfl⟩ := h
  have hboth := afterAll_induction (motive := fun s => s.Coherent ∧ s.Truthful)
    (s := Simulator.initial) ⟨.initial, rfl⟩
    (fun s request hs => ⟨hs.1.respond request, hs.2.respond hs.1 request⟩) requests
  exact hboth.2

end Simulator

/-! ## 4. Reading a line -/

namespace StatusLine

/-- The first letters of a line. -/
def initials : StatusLine → List Char
  | nothingLoaded => ['N', 'o', ' ']
  | ready => ['R', 'e', 'a']
  | running => ['R', 'u', 'n']
  | paused => ['P', 'a', 'u']
  | reset => ['R', 'e', 's']
  | arrived _ => ['P', 'C', ' ']
  | waitingForInput => ['W', 'a', 'i']
  | halted _ | faulted _ => ['H', 'a', 'l']

/-- **Three letters are enough** to tell a line, but for the cause of a halt. -/
theorem take_text (line : StatusLine) : line.text.toList.take 3 = line.initials := by
  cases line with
  | arrived pc =>
    rw [text, String.toList_append]
    rfl
  | halted origin =>
    rw [text, String.toList_append]
    rfl
  | faulted fault =>
    rw [text, String.toList_append]
    rfl
  | nothingLoaded | ready | running | paused | reset | waitingForInput => decide

/-- A line has the first letters of whatever it begins with. -/
theorem initials_of_prefix {line : StatusLine} {opening : String} (hlong : 3 ≤ opening.length)
    (h : opening.toList <+: line.text.toList) : line.initials = opening.toList.take 3 := by
  obtain ⟨rest, hrest⟩ := h
  rw [← take_text, ← hrest, List.take_append_of_le_length]
  rwa [String.length_toList]

/-- Whether a line is **fixed**: it reads the same whenever it is shown. -/
def Fixed : StatusLine → Prop
  | arrived _ | halted _ | faulted _ => False
  | _ => True

/-- **A fixed line** is told by its text. -/
theorem text_eq_iff (fixed : StatusLine) (h : fixed.Fixed) {line : StatusLine} :
    line.text = fixed.text ↔ line = fixed := by
  refine ⟨fun htext => ?_, congrArg text⟩
  have hinitials : line.initials = fixed.initials := by rw [← take_text, htext, take_text]
  cases fixed with
  | arrived _ | halted _ | faulted _ => cases h
  | nothingLoaded | ready | running | paused | reset | waitingForInput =>
    cases line <;> first | rfl | cases hinitials

/-- A line that begins like a halt tells of one. -/
theorem begins_halted_iff {line : StatusLine} :
    "Halted".toList <+: line.text.toList ↔ line.initials = ['H', 'a', 'l'] := by
  refine ⟨fun hbegins => initials_of_prefix (by decide) hbegins, fun hhalted => ?_⟩
  cases line with
  | halted origin =>
    rw [text, String.toList_append]
    exact ⟨_, rfl⟩
  | faulted fault =>
    rw [text, String.toList_append]
    exact ⟨_, rfl⟩
  | _ => cases hhalted

/-- A line that begins like an address that was reached names one. -/
theorem exists_of_begins_arrived {line : StatusLine}
    (h : "PC at 0x".toList <+: line.text.toList) : ∃ pc, line = .arrived pc := by
  have hinitials := initials_of_prefix (by decide) h
  cases line with
  | arrived pc => exact ⟨pc, rfl⟩
  | _ => cases hinitials

end StatusLine

namespace Simulator

namespace Tells

variable {s : Simulator} {line : StatusLine}

theorem halted_iff (h : s.Tells line) : line.initials = ['H', 'a', 'l'] ↔ s.status = .halted := by
  cases line <;> grind [Tells, StatusLine.initials]

theorem waitingForInput_iff (h : s.Tells line) :
    line = .waitingForInput ↔ s.status = .waitingForInput := by
  cases line <;> grind [Tells]

theorem idle_iff (h : s.Tells line) :
    line = .nothingLoaded ∨ line = .reset ↔ s.status = .idle := by
  cases line <;> grind [Tells]

/-- **A line that tells of a halt** names the address in front of the program counter. -/
theorem origin (h : s.Tells line) (hhalted : s.status = .halted) :
    line = .halted (s.machine.pc - 1).val ∨
      ∃ fault : Fault, fault.origin = (s.machine.pc - 1).val ∧ line = .faulted fault := by
  rw [← h.halted_iff] at hhalted
  cases line with
  | halted origin => exact .inl (congrArg _ h.2)
  | faulted fault => exact .inr ⟨fault, h.2, rfl⟩
  | _ => cases hhalted

end Tells

/-- Whether the status line of a simulator, as it reads, **agrees with the status**. -/
structure LineAgrees (s : Simulator) : Prop where
  /-- It tells of a halt exactly if there was one. -/
  halted : "Halted".toList <+: s.statusLine.text.toList ↔ s.status = .halted
  /-- Then it names the address in front of the program counter, by itself or in what it says of a
  fault. -/
  origin : s.status = .halted →
    s.statusLine.text = "Halted at " ++ addressText (s.machine.pc - 1).val ∨
      ∃ (word : Word) (tag : Tag) (cause : DecodeError), s.statusLine.text = "Halted: " ++
        ("Invalid instruction " ++ wordText word ++ " (" ++ tag.name ++ ") at " ++
          addressText (s.machine.pc - 1).val ++ ": " ++ cause.message)
  waitingForInput : s.statusLine.text = "Waiting for input" ↔ s.status = .waitingForInput
  idle : s.statusLine.text = "No program loaded" ∨ s.statusLine.text = "Reset" ↔ s.status = .idle
  running : s.statusLine.text = "Running" → s.status = .running
  ready : s.statusLine.text = "Ready" → s.status = .ready
  /-- An address by itself is the one that the program counter has reached. -/
  arrived : "PC at 0x".toList <+: s.statusLine.text.toList →
    (s.status = .running ∨ s.status = .paused) ∧
      s.statusLine.text = "PC at " ++ addressText s.machine.pc.val
  paused : s.statusLine.text = "Paused" → s.status = .ready ∨ s.status = .paused

/-- **The line agrees with the status.**  Whatever was asked of a simulator, the text that it shows
and the status that is read off its parts tell the same.  A halt, a wait and an empty machine can be
seen in the one exactly if they are seen in the other; the other lines are only shown in the
statuses that they are meant for; and an address that is named is where the machine is, or where the
instruction was that halted it. -/
theorem statusLine_agrees {s : Simulator} (h : s.Reachable) : s.LineAgrees := by
  have htells : s.Tells s.statusLine := h.truthful
  have htold (fixed : StatusLine) (hfixed : fixed.Fixed)
      (hreads : s.statusLine.text = fixed.text) : s.Tells fixed :=
    (StatusLine.text_eq_iff fixed hfixed).mp hreads ▸ htells
  constructor
  · rw [StatusLine.begins_halted_iff, htells.halted_iff]
  · intro hhalted
    rcases htells.origin hhalted with hline | ⟨fault, horigin, hline⟩
    · rw [hline]
      exact .inl rfl
    · rw [hline, ← horigin]
      exact .inr ⟨fault.word, fault.tag, fault.cause, rfl⟩
  · rw [← htells.waitingForInput_iff]
    exact StatusLine.text_eq_iff .waitingForInput trivial
  · rw [← htells.idle_iff]
    exact or_congr (StatusLine.text_eq_iff .nothingLoaded trivial)
      (StatusLine.text_eq_iff .reset trivial)
  · exact htold .running trivial
  · exact htold .ready trivial
  · intro hbegins
    obtain ⟨pc, hline⟩ := StatusLine.exists_of_begins_arrived hbegins
    rw [hline] at htells ⊢
    obtain ⟨hstatus, hpc⟩ := htells
    exact ⟨hstatus, by rw [StatusLine.text, hpc]⟩
  · exact htold .paused trivial

/-- A run that goes on behind the last instruction of its program. -/
def runningOver : Simulator :=
  initial.afterAll [.loadParts [0x2001] [.immediateAlu], .run 1 0, .tick 0, .tick 1000000]

/-- The program counter has gone past the word that is no instruction, and the line names it. -/
theorem statusLine_agrees_runningOver :
    runningOver.Reachable ∧ runningOver.machine.pc = 2 ∧
      runningOver.statusLine.text = "Halted: Invalid instruction 0x0000 (ERROR) at 0x001: " ++
        "no valid instruction at this address" ∧
      runningOver.status = .halted := by
  have hreachable : runningOver.Reachable := ⟨_, rfl⟩
  have hbegins : "Halted".toList <+: runningOver.statusLine.text.toList := by decide +kernel
  refine ⟨hreachable, ?_, ?_, (statusLine_agrees hreachable).halted.mp hbegins⟩
  · decide +kernel
  · decide +kernel

end Simulator
end PredicatedCpu

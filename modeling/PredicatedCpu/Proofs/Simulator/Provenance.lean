/-
# Where a program comes from

A program can be assembled from its source, or put together from words and tags that were stored
apart.  The words by themselves are ambiguous, so that a tag that was lost or moved on the way would
show only when its word is executed; and a restart loads a program once more, from what is
remembered.

The slots are all that gets into a machine.  They are the same on both ways, and the only thing that
the second way cannot restore is the symbols, for which no request asks.

* `ofParts_words_tags`: words and tags that were taken apart fit together again;
* `Simulator.remembering`: a simulator that remembers another program;
* `respond_remembering`: a program with the same slots is as good as the one that was loaded;
* `loads_alike`: so a simulator cannot tell where its program came from.
-/
import PredicatedCpu.Proofs.Assembly.Acceptance
import PredicatedCpu.Proofs.Simulator.Restart

namespace PredicatedCpu

/-! ## 1. Words and tags -/

namespace Program

/-- **What was taken apart fits together again**, but for the symbols. -/
theorem ofParts_words_tags {p : Program} (h : p.size ≤ memorySize) :
    ofParts p.words p.tags = .ok ⟨p.slots, .empty⟩ := by
  have hlength : p.words.length = p.tags.length := by
    rw [words, tags, List.length_map, List.length_map]
  have hfits : ¬ memorySize < p.words.length := by
    rw [words, List.length_map]
    exact Nat.not_lt.mpr h
  have hslots : List.zipWith Slot.mk p.words p.tags = p.slots := by
    rw [words, tags, List.zipWith_map, List.zipWith_self]
    exact List.map_id p.slots
  rw [ofParts, if_neg (not_not_intro hlength), if_neg hfits, hslots]

end Program

theorem size_of_assemble {source : String} {p : Program} (h : assemble source = .ok p) :
    p.size ≤ memorySize := by
  obtain ⟨is, -, hslots, -, hlength⟩ := exists_instructions_of_assemble h
  rwa [Program.size, hslots, List.length_map]

namespace Simulator

/-! ## 2. Another program to remember -/

/-- A simulator that **remembers another program**.  It has another past in this one respect. -/
def remembering (q : Program) (s : Simulator) : Simulator := { s with program? := some q }

theorem remembering_eq_withPast (q : Program) (s : Simulator) :
    s.remembering q = s.withPast (fun _ => some q) #[] := by
  rw [withPast, Array.empty_append]
  rfl

/-- Only the slots of a program get into a machine. -/
theorem load_of_slots {p q : Program} (h : q.slots = p.slots) (s : Simulator) :
    s.load q = (s.load p).remembering q := by
  obtain ⟨slots, symbols⟩ := q
  obtain rfl : slots = p.slots := h
  rfl

/-- **Another program with the same slots is as good** for every request that brings none: a restart
loads the same words and tags, and no other request asks for it. -/
theorem respond_remembering {s : Simulator} {p q : Program} (hslots : q.slots = p.slots)
    (hprogram : s.program? = some p) {request : Request} (h : request.program? = none) :
    (s.remembering q).respond request =
      ((s.respond request).1, (s.respond request).2.remembering q) := by
  cases request with
  | loadSource source =>
    simp only [Request.program?] at h
    simp only [respond, loadSource]
    cases hassemble : assemble source with
    | ok p' =>
      rw [hassemble] at h
      cases h
    | error diagnostics => rfl
  | loadParts words tags =>
    simp only [Request.program?] at h
    simp only [respond, loadParts]
    cases hparts : Program.ofParts words tags with
    | ok p' =>
      rw [hparts] at h
      cases h
    | error error => rfl
  | restart =>
    have hremembers : (s.remembering q).program? = some q := rfl
    rw [respond, respond, restart_of_program? hremembers, restart_of_program? hprogram]
    exact congrArg (Prod.mk Response.done) (load_of_slots hslots s.reset)
  | drain => rfl
  | step | run _ _ | setInterval _ _ | tick _ | stop | reset | provideInput _ =>
    rw [remembering_eq_withPast, remembering_eq_withPast]
    exact respond_withPast _ _ s rfl

/-- **So it is over many requests.**  The induction is on the requests; none of them makes the
simulator forget the program with these slots. -/
theorem afterAll_remembering {s : Simulator} {p q : Program} (hslots : q.slots = p.slots)
    (hprogram : s.program? = some p) {requests : List Request}
    (h : ∀ request ∈ requests, request.program? = none) :
    (s.remembering q).responses requests = s.responses requests ∧
      (s.remembering q).afterAll requests = (s.afterAll requests).remembering q := by
  induction requests generalizing s with
  | nil => exact ⟨rfl, rfl⟩
  | cons request rest ih =>
    rw [List.forall_mem_cons] at h
    have hstill : (s.respond request).2.program? = some p := by
      rw [program?_respond_of_none h.1, hprogram]
    obtain ⟨hresponses, hafter⟩ := ih hstill h.2
    simp only [responses, afterAll_cons, respond_remembering hslots hprogram h.1]
    exact ⟨congrArg _ hresponses, hafter⟩

/-! ## 3. Two ways to load -/

/-- **A simulator cannot tell where its program came from.**  Let a source be assembled, and let a
simulator be given the source, or the words and the tags of its program apart.  Both loads are met.
Whatever is asked from then on, let it only bring no other program, is answered alike, a restart
among it; and what becomes of the simulators is the same in the machine, the schedule, the steps
that were counted, the status line and the journal, so that both have the same status.  The one
remembers the program as it was assembled, and the other remembers it without its symbols. -/
theorem loads_alike {source : String} {p : Program} (h : assemble source = .ok p) (s : Simulator) :
    let assembled := s.respond (.loadSource source)
    let composed := s.respond (.loadParts p.words p.tags)
    assembled.1 = .done ∧ composed.1 = .done ∧
    ∀ requests : List Request, (∀ request ∈ requests, request.program? = none) →
      composed.2.responses requests = assembled.2.responses requests ∧
      (composed.2.afterAll requests).status = (assembled.2.afterAll requests).status ∧
      (assembled.2.afterAll requests).program? = some p ∧
      composed.2.afterAll requests =
        { assembled.2.afterAll requests with program? := some ⟨p.slots, .empty⟩ } := by
  have hslots : (⟨p.slots, .empty⟩ : Program).slots = p.slots := rfl
  have hbrought : (Request.loadSource source).program? = some p := congrArg Except.toOption h
  have hparts : (Request.loadParts p.words p.tags).program? = some ⟨p.slots, .empty⟩ :=
    congrArg Except.toOption (Program.ofParts_words_tags (size_of_assemble h))
  have hcomposed : s.respond (.loadParts p.words p.tags) =
      (.done, (s.load p).remembering ⟨p.slots, .empty⟩) := by
    rw [respond_of_program? hparts]
    exact congrArg (Prod.mk Response.done) (load_of_slots hslots s)
  rw [respond_of_program? hbrought, hcomposed]
  refine ⟨rfl, rfl, fun requests hbrings => ?_⟩
  have hloaded : (s.load p).program? = some p := rfl
  obtain ⟨hresponses, hafter⟩ := afterAll_remembering hslots hloaded hbrings
  refine ⟨hresponses, ?_, ?_, hafter⟩
  · rw [hafter]
    rfl
  · have hnone : lastLoaded? requests = none := by
      rw [lastLoaded?, List.filterMap_eq_nil_iff.mpr hbrings, List.getLast?_nil]
    rw [program?_afterAll, hnone, Option.none_or, hloaded]

/-- A source whose two instructions have the same word, and mean different things by it. -/
def ambiguousSource : String := "twice: add r1, r1, #2\nadd r1, r1, r2\nb twice"

/-- The program of `ambiguousSource`. -/
def ambiguousProgram : Program :=
  ⟨[⟨0x204A, .immediateAlu⟩, ⟨0x204A, .registerAlu⟩, ⟨0xC000, .branch⟩], ⟨[("TWICE", 0)]⟩⟩

/-- A run of it, with a restart on the way. -/
def restarting : List Request :=
  [.run 1 0, .tick 0, .tick 1000000, .drain, .reset, .step, .restart, .step, .step]

/-- The tags that were stored apart keep the two readings of the word apart. -/
theorem loads_alike_ambiguous :
    assemble ambiguousSource = .ok ambiguousProgram ∧
      (∀ request ∈ restarting, request.program? = none) ∧
      let assembled := (initial.respond (.loadSource ambiguousSource)).2
      let composed := (initial.respond (.loadParts ambiguousProgram.words ambiguousProgram.tags)).2
      (assembled.responses restarting).drop 7 =
          [.executed ⟨⟨.always, .alu .add 1 1 (.immediate 2)⟩, .computed 1 2⟩,
            .executed ⟨⟨.always, .alu .add 1 1 (.register 2)⟩, .computed 1 2⟩] ∧
        composed.responses restarting = assembled.responses restarting ∧
        composed.afterAll restarting =
          { assembled.afterAll restarting with
            program? := some ⟨ambiguousProgram.slots, .empty⟩ } := by
  have hassemble : assemble ambiguousSource = .ok ambiguousProgram := rfl
  have hbrings : ∀ request ∈ restarting, request.program? = none := by decide
  have hexecuted : ((initial.respond (.loadSource ambiguousSource)).2.responses restarting).drop 7 =
      [.executed ⟨⟨.always, .alu .add 1 1 (.immediate 2)⟩, .computed 1 2⟩,
        .executed ⟨⟨.always, .alu .add 1 1 (.register 2)⟩, .computed 1 2⟩] := by decide +kernel
  obtain ⟨-, -, hlater⟩ := loads_alike hassemble initial
  obtain ⟨hresponses, -, -, hafter⟩ := hlater restarting hbrings
  exact ⟨hassemble, hbrings, hexecuted, hresponses, hafter⟩

end Simulator
end PredicatedCpu

/-
# A restart leaves nothing behind

The program that a restart loads is remembered, not found in the machine: what the program did to
its own words is of no account, and neither is a load that failed, a reset, or a restart before.  It
is the last one that was loaded.  All the rest of a simulator is new, but for the journal, which
nobody reads until its entries are taken.

So a simulator that is restarted goes the way of one that was never used before.

* `Request.program?`, `lastLoaded?`: the program that is loaded last, from the requests alone;
* `program?_afterAll`: it is the one that is remembered;
* `restart_renews`: a restart makes a new simulator of any old one.
-/
import PredicatedCpu.Proofs.Simulator.Past

namespace PredicatedCpu

/-! ## 1. The program that is remembered -/

/-- The program that a request **brings**, if it brings one.  A restart brings none: what it loads
was there before. -/
def Request.program? : Request → Option Program
  | .loadSource source => (assemble source).toOption
  | .loadParts words tags => (Program.ofParts words tags).toOption
  | .step | .run _ _ | .setInterval _ _ | .tick _ | .stop | .reset | .restart | .provideInput _
  | .drain => none

/-- The program that is **loaded last** on a list of requests, if any is. -/
def lastLoaded? (requests : List Request) : Option Program :=
  (requests.filterMap Request.program?).getLast?

theorem lastLoaded?_cons (request : Request) (rest : List Request) :
    lastLoaded? (request :: rest) = (lastLoaded? rest).or request.program? := by
  unfold lastLoaded?
  cases hprogram : request.program? with
  | none => rw [List.filterMap_cons_none hprogram, Option.or_none]
  | some p => rw [List.filterMap_cons_some hprogram, List.getLast?_cons, Option.or_some]

namespace Simulator

/-- A request that brings a program is met, and the program is loaded. -/
theorem respond_of_program? {request : Request} {p : Program} (h : request.program? = some p)
    (s : Simulator) : s.respond request = (.done, s.load p) := by
  cases request with
  | loadSource source =>
    simp only [Request.program?] at h
    simp only [respond, loadSource]
    cases hassemble : assemble source with
    | ok q =>
      rw [hassemble] at h
      obtain rfl := Option.some.inj h
      rfl
    | error diagnostics =>
      rw [hassemble] at h
      cases h
  | loadParts words tags =>
    simp only [Request.program?] at h
    simp only [respond, loadParts]
    cases hparts : Program.ofParts words tags with
    | ok q =>
      rw [hparts] at h
      obtain rfl := Option.some.inj h
      rfl
    | error error =>
      rw [hparts] at h
      cases h
  | step | run _ _ | setInterval _ _ | tick _ | stop | reset | restart | provideInput _ | drain =>
    cases h

/-- One that brings none lets the old one be remembered, a load that fails included. -/
theorem program?_respond_of_none {request : Request} (h : request.program? = none)
    (s : Simulator) : (s.respond request).2.program? = s.program? := by
  cases request with
  | loadSource source =>
    simp only [Request.program?] at h
    simp only [respond, loadSource]
    cases hassemble : assemble source with
    | ok q =>
      rw [hassemble] at h
      cases h
    | error diagnostics => rfl
  | loadParts words tags =>
    simp only [Request.program?] at h
    simp only [respond, loadParts]
    cases hparts : Program.ofParts words tags with
    | ok q =>
      rw [hparts] at h
      cases h
    | error error => rfl
  | restart =>
    simp only [respond, restart]
    cases hprogram : s.program? with
    | none => exact hprogram
    | some p => rfl
  | drain => rfl
  | step | run _ _ | setInterval _ _ | tick _ | stop | reset | provideInput _ =>
    exact program?_of_asksForPast rfl s

theorem program?_respond (s : Simulator) (request : Request) :
    (s.respond request).2.program? = request.program?.or s.program? := by
  cases h : request.program? with
  | none => exact program?_respond_of_none h s
  | some p =>
    rw [respond_of_program? h]
    rfl

/-- **What is remembered is what was loaded last**, whatever was asked besides.  The induction is on
the requests, and the later ones decide. -/
theorem program?_afterAll (s : Simulator) (requests : List Request) :
    (s.afterAll requests).program? = (lastLoaded? requests).or s.program? := by
  induction requests generalizing s with
  | nil => rfl
  | cons request rest ih =>
    rw [afterAll_cons, ih, program?_respond, lastLoaded?_cons, Option.or_assoc]

/-! ## 2. Restarting -/

theorem restart_of_program? {s : Simulator} {p : Program} (h : s.program? = some p) :
    s.restart = (.done, s.reset.load p) := by
  rw [restart, h]

/-- **A machine that is emptied and loaded** belongs to a new simulator, with entries from
before. -/
theorem reset_load (s : Simulator) (p : Program) :
    s.reset.load p = (initial.load p).withEarlier (s.journal.push .reset) := by
  simp only [load, reset, record, withEarlier, initial, Array.append_push, Array.append_empty]

/-- **A restart makes a new simulator of any old one.**  Whatever was asked, let a program have been
loaded at some time, and let `p` be the last one.  Then a restart is met, and what there is after it
is a simulator that was never used, with `p` loaded into it: ready, without a schedule, with nothing
counted, sent or awaited.  Only the journal is the old one, with two entries more.  Nothing that is
asked from then on tells the two simulators apart but the first draining, and what becomes of them
differs in the entries that nobody has taken. -/
theorem restart_renews {requests : List Request} {p : Program}
    (h : lastLoaded? requests = some p) :
    let s := initial.afterAll requests
    let fresh := initial.load p
    let t := s.restart.2
    let earlier := s.journal.push .reset
    s.restart.1 = .done ∧
    t = { fresh with journal := s.journal ++ #[.reset, .loaded p.size] } ∧
    [Event.reset, .loaded p.size].map (fun event => (event.level, event.message)) =
      [(.info, "Machine reset"), (.info, "Loaded " ++ Text.decimal p.size ++ " instructions")] ∧
    (t.status = .ready ∧ t.statusLine.text = "Ready" ∧ t.machine = .ofProgram p ∧
      t.machine.output = #[] ∧ t.machine.pending = none ∧ t.schedule? = none ∧ t.steps = 0 ∧
      t.program? = some p) ∧
    ∀ later,
      t.responses later = recalling earlier.toList (fresh.responses later) ∧
      t.afterAll later =
        (fresh.afterAll later).withEarlier (if .drain ∈ later then #[] else earlier) := by
  intro s fresh t earlier
  have hprogram : s.program? = some p := by
    rw [program?_afterAll, h, Option.some_or]
  have hrestart : s.restart = (.done, fresh.withEarlier earlier) := by
    rw [restart_of_program? hprogram, reset_load]
  have ht : t = fresh.withEarlier earlier := congrArg Prod.snd hrestart
  have hjournal : earlier ++ fresh.journal = s.journal ++ #[.reset, .loaded p.size] :=
    Array.ext' (by simp [earlier, fresh, load, record, initial])
  refine ⟨congrArg Prod.fst hrestart, ?_, rfl, ?_, fun later => ?_⟩
  · rw [ht, withEarlier, hjournal]
  · rw [ht]
    exact ⟨rfl, rfl, rfl, rfl, rfl, rfl, rfl, rfl⟩
  · rw [ht]
    exact ⟨responses_withEarlier earlier fresh later, afterAll_withEarlier earlier fresh later⟩

/-- A program that adds to its own first instruction, and faults behind itself. -/
def addingToItself : Program :=
  ⟨[⟨0x0000, .memory⟩, ⟨0x2001, .immediateAlu⟩, ⟨0x1000, .memory⟩], .empty⟩

/-- Another program before, a run of this one up to its fault, two loads that fail, and a reset. -/
def longUse : List Request :=
  [.loadSource "hlt", .run 1 0, .loadParts addingToItself.words addingToItself.tags, .step, .step,
    .run 3 0, .tick 0, .tick 3000000, .loadParts [0xF000] [], .loadSource "nop", .drain, .reset]

/-- The program was changed by its own run and ended by a fault; it is loaded as it was. -/
theorem restart_renews_longUse :
    lastLoaded? longUse = some addingToItself ∧
      ((initial.afterAll (longUse.take 8)).machine.word 0 = 1 ∧
        (initial.afterAll (longUse.take 8)).machine.halted = true) ∧
      (initial.afterAll longUse).restart.1 = .done ∧
      (initial.afterAll longUse).restart.2 =
        { initial.load addingToItself with journal := #[.reset, .reset, .loaded 3] } ∧
      (initial.afterAll longUse).restart.2.machine.word 0 = 0 := by
  have hlast : lastLoaded? longUse = some addingToItself := by decide +kernel
  have hchanged : (initial.afterAll (longUse.take 8)).machine.word 0 = 1 := by decide +kernel
  have hhalted : (initial.afterAll (longUse.take 8)).machine.halted = true := by decide +kernel
  have hjournal : (initial.afterAll longUse).journal = #[.reset] := by decide +kernel
  obtain ⟨hdone, hrenewed, -, ⟨-, -, hmachine, -⟩, -⟩ := restart_renews hlast
  rw [hjournal] at hrenewed
  refine ⟨hlast, ⟨hchanged, hhalted⟩, hdone, hrenewed, ?_⟩
  rw [hmachine]
  decide +kernel

end Simulator
end PredicatedCpu

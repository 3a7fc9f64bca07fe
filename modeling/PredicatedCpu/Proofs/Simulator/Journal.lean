/-
# The journal is complete

The entries of the journal are taken away by whoever wants to read them, at any time and in any
portions.  A simulator that asked its journal about anything, or that lost an entry between two
portions, would behave differently for being watched.  It does neither: with or without somebody
who drains the journal every request is answered the same and does the same, and what was drained,
together with what is left, is what would stand in the journal if nobody had.

So it is enough to know the journal of a simulator that is never drained.  Every request adds a part
to it, and the part tells of the answer: one trace for an instruction, with a warning behind it if
it read where nothing can be read, one error for a fault, and nothing for a request that was not met
or that only decides when to execute.

* `Machine.ReadsNothingAt`: the loads that are worth a warning;
* `Traced`: what the part that a request adds has to do with its answer;
* `grown_respond`, `journal_of_setsPace`: one request;
* `journal_afterAll`: many requests, none of which drains;
* `afterAll_undrained`, `exchanges_undrained`: draining changes nothing but the journal;
* `journal_complete`: all of this.
-/
import PredicatedCpu.Proofs.Simulator.Lifetime
import PredicatedCpu.Proofs.Simulator.Past
import PredicatedCpu.Proofs.Simulator.Refusal

namespace PredicatedCpu

/-! ## 1. Loads that read nothing -/

/-- Whether the next instruction **reads nothing**: it is a load from this address, which belongs to
the window but is not the input address, and its predicate holds. -/
def Machine.ReadsNothingAt (m : Machine) (address : Word) : Prop :=
  ∃ i, m.Fetches m.pc i ∧ i.operation = .load address ∧
    i.predicate.holds m.predicates = true ∧ 0x1F1 ≤ address.toNat ∧ address.toNat ≤ 0x1FF

/-- Only loads have this outcome, and only in the window. -/
theorem Operation.perform_eq_nothingToRead {op : Operation} {m : Machine} {address : Word} :
    (op.perform m).1 = .nothingToRead address ↔
      op = .load address ∧ address.isWindow = true ∧ address.toNat ≠ inputAddress := by
  cases op with
  | load a =>
    simp only [Operation.perform, Operation.performLoad, Operation.load.injEq]
    split
    · rename_i hwindow
      split
      · rename_i hinput
        refine iff_of_false (fun h => by cases h) ?_
        rintro ⟨rfl, -, hother⟩
        exact hother hinput
      · rename_i hother
        constructor
        · intro h
          obtain rfl : a = address := Outcome.nothingToRead.inj h
          exact ⟨rfl, hwindow, hother⟩
        · rintro ⟨rfl, -, -⟩
          rfl
    · rename_i hbelow
      refine iff_of_false (fun h => by cases h) ?_
      rintro ⟨rfl, hwindow, -⟩
      exact hbelow hwindow
  | store a =>
    simp only [Operation.perform, Operation.performStore]
    split <;> exact iff_of_false (fun h => by cases h) (fun h => by cases h.1)
  | branch _ | alu _ _ _ _ | compare _ _ | setPredicate _ _ | halt =>
    exact iff_of_false (fun h => by cases h) (fun h => by cases h.1)

theorem Instruction.execute_eq_nothingToRead {i : Instruction} {m : Machine} {address : Word} :
    (i.execute m).1 = .nothingToRead address ↔
      i.predicate.holds m.predicates = true ∧ i.operation = .load address ∧
        address.isWindow = true ∧ address.toNat ≠ inputAddress := by
  unfold Instruction.execute
  split
  · rename_i hholds
    rw [Operation.perform_eq_nothingToRead]
    exact (and_iff_right hholds).symm
  · rename_i hholds
    exact iff_of_false (fun h => by cases h) (fun h => hholds h.1)

/-- An effect has no address that was read in vain but the one that its outcome names. -/
theorem Effect.missingDevice?_eq_some_iff {effect : Effect} {address : Word} :
    effect.missingDevice? = some address ↔ effect.outcome = .nothingToRead address := by
  obtain ⟨instruction, outcome⟩ := effect
  cases outcome <;> simp [Effect.missingDevice?]

/-- What is fetched fits in its word. -/
theorem Machine.Fetches.fits {m : Machine} {a : Address} {i : Instruction} (h : m.Fetches a i) :
    i.Fits :=
  Operation.fits_of_ofField (decode_eq_ok_iff.mp h).2.2.2

/-- **A warning is due** exactly if the instruction reads nothing. -/
theorem Machine.missingDevice?_of_step {m m' : Machine} {effect : Effect}
    (h : m.step = (.ok effect, m')) (address : Word) :
    effect.missingDevice? = some address ↔ m.ReadsNothingAt address := by
  obtain ⟨hfetches, hexecute⟩ := Machine.step_eq_ok_iff.mp h
  have houtcome : (effect.instruction.execute m.advance).1 = effect.outcome := by rw [hexecute]
  rw [Effect.missingDevice?_eq_some_iff, ← houtcome, Instruction.execute_eq_nothingToRead,
    Word.isWindow, decide_eq_true_iff]
  simp only [windowBase, inputAddress, Machine.predicates_advance]
  constructor
  · rintro ⟨hholds, hop, hwindow, hother⟩
    have hfits : effect.instruction.operation.Fits := Machine.Fetches.fits hfetches
    rw [hop] at hfits
    have hlt : address.toNat < 512 := hfits
    exact ⟨effect.instruction, hfetches, hop, hholds, by omega, by omega⟩
  · rintro ⟨i, hi, hop, hholds, hlow, -⟩
    obtain rfl : effect.instruction = i := Except.ok.inj (hfetches.symm.trans hi)
    exact ⟨hholds, hop, by omega, by omega⟩

/-! ## 2. One request -/

/-- What the entries that a request left **tell of its answer**, on the machine before it. -/
structure Traced (m : Machine) (response : Response) (left : List Event) : Prop where
  /-- An instruction that was executed leaves one trace, which begins with the address that it was
  fetched from, and a warning if it read nothing. -/
  executed : ∀ effect, response = .executed effect →
    ∃ trace warnings, left = trace :: warnings ∧
      trace.level = .info ∧ (addressText m.pc.val).toList <+: trace.message.toList ∧
      ((∃ address warning, m.ReadsNothingAt address ∧ warnings = [warning] ∧
          warning.level = .warning) ∨
        (∀ address, ¬ m.ReadsNothingAt address) ∧ warnings = [])
  /-- A fault leaves one error. -/
  faulted : ∀ fault, response = .faulted fault → ∃ entry, left = [entry] ∧ entry.level = .error
  /-- What was refused, or was not due, leaves nothing. -/
  unmet : response.isRefusal = true ∨ response = .notDue → left = []

namespace Traced

variable {m : Machine}

/-- Nothing is enough, if nothing was executed. -/
theorem nothing {response : Response} (h : response.isExecution = false) :
    Traced m response [] := by
  obtain ⟨unexecuted, faultless⟩ := Response.isExecution_eq_false_iff.mp h
  exact ⟨fun effect heffect => absurd heffect (unexecuted effect),
    fun fault hfault => absurd hfault (faultless fault), fun _ => rfl⟩

/-- What was met without a step may leave anything. -/
theorem done (left : List Event) : Traced m .done left :=
  ⟨fun _ h => (nomatch h), fun _ h => (nomatch h), fun h => h.elim nofun nofun⟩

theorem ofExecuted {m' : Machine} {effect : Effect} (h : m.step = (.ok effect, m')) :
    Traced m (.executed effect) (Simulator.eventsOf m.pc.val effect) := by
  refine ⟨fun other _ => ?_, fun _ h => (nomatch h), fun h => h.elim nofun nofun⟩
  refine ⟨.executed m.pc.val effect, effect.missingDevice?.toList.map .missingDevice, rfl, rfl,
    ?_, ?_⟩
  · rw [Event.message, String.toList_append, String.toList_append, List.append_assoc]
    exact List.prefix_append _ _
  · have hreads := Machine.missingDevice?_of_step h
    cases hmissing : effect.missingDevice? with
    | some address => exact .inl ⟨address, _, (hreads address).mp hmissing, rfl, rfl⟩
    | none =>
      refine .inr ⟨fun address haddress => ?_, rfl⟩
      rw [(hreads address).mpr haddress] at hmissing
      cases hmissing

theorem ofFaulted (fault : Fault) : Traced m (.faulted fault) [.faulted fault] :=
  ⟨fun _ h => (nomatch h), fun _ _ => ⟨_, rfl, rfl⟩, fun h => h.elim nofun nofun⟩

end Traced

/-- Whether a request only **sets the pace**: it decides when the machine executes. -/
def Request.setsPace : Request → Bool
  | .run _ _ | .setInterval _ _ | .stop => true
  | _ => false

namespace Simulator

/-- Whether the journal of a simulator has **grown** by entries that tell of an answer. -/
def Grown (s : Simulator) (response : Response) (t : Simulator) (left : List Event) : Prop :=
  t.journal = s.journal ++ left.toArray ∧ Traced s.machine response left

variable {s t : Simulator}

theorem Grown.nothing {response : Response} (h : response.isExecution = false)
    (hsame : t.journal = s.journal) : s.Grown response t [] :=
  ⟨hsame.trans (Array.append_empty).symm, .nothing h⟩

theorem journal_record (s : Simulator) (event : Event) :
    (s.record event).journal = s.journal ++ [event].toArray :=
  Array.push_eq_append

theorem journal_load (p : Program) (s : Simulator) :
    (s.load p).journal = s.journal ++ [.loaded p.size].toArray :=
  journal_record _ _

theorem journal_reset (s : Simulator) : s.reset.journal = s.journal ++ [.reset].toArray :=
  journal_record _ _

theorem journal_stop (s : Simulator) : s.stop.journal = s.journal := by
  unfold stop
  split <;> rfl

theorem journal_run (s : Simulator) (milliseconds : Nat) (now : Time) :
    (s.run milliseconds now).2.journal = s.journal := by
  unfold run
  split <;> rfl

/-- **What only sets the pace** leaves the journal as it is. -/
theorem journal_of_setsPace {request : Request} (h : request.setsPace = true) (s : Simulator) :
    (s.respond request).2.journal = s.journal := by
  cases request with
  | run milliseconds now => exact s.journal_run milliseconds now
  | setInterval milliseconds now =>
    rw [respond, setInterval]
    split
    · rfl
    · rw [journal_run, journal_stop]
  | stop => exact s.journal_stop
  | loadSource _ | loadParts _ _ | step | tick _ | reset | restart | provideInput _ | drain =>
    cases h

/-- Nothing is executed by it. -/
theorem isExecution_of_setsPace {request : Request} (h : request.setsPace = true) (s : Simulator) :
    (s.respond request).1.isExecution = false := by
  rw [← Bool.not_eq_true]
  intro hexecution
  rcases request_of_isExecution hexecution with rfl | ⟨now, rfl⟩ <;> cases h

theorem grown_advance (s : Simulator) : ∃ left, s.Grown s.advance.1 s.advance.2 left := by
  unfold advance
  rcases hstep : s.machine.step with ⟨fault | effect, m⟩
  · exact ⟨[.faulted fault], journal_record _ _, .ofFaulted fault⟩
  · refine ⟨eventsOf s.machine.pc.val effect, ?_, .ofExecuted hstep⟩
    simp only [foldl_record]
    rfl

theorem grown_step (s : Simulator) : ∃ left, s.Grown s.step.1 s.step.2 left := by
  cases hready : s.stepRefusal? with
  | some refusal =>
    rw [step_of_refusal hready]
    exact ⟨[], .nothing rfl rfl⟩
  | none =>
    rw [step_of_ready hready]
    exact s.grown_advance

/-- A tick that is due leaves what its step leaves, whatever becomes of the schedule. -/
theorem grown_tick (s : Simulator) (now : Time) :
    ∃ left, s.Grown (s.tick now).1 (s.tick now).2 left := by
  unfold tick
  split
  · exact ⟨[], .nothing rfl rfl⟩
  · rename_i schedule _
    split
    · exact ⟨[], .nothing rfl rfl⟩
    · obtain ⟨left, hleft⟩ := grown_step
        { s with schedule? := some ⟨schedule.interval, now + schedule.interval⟩ }
      refine ⟨left, ?_⟩
      split
      · rename_i effect t hstep
        rw [hstep] at hleft
        exact hleft
      · rename_i response t _ hstep
        rw [hstep] at hleft
        exact hleft

/-- **A request adds to the journal**, unless it takes the entries, and what it adds tells of its
answer. -/
theorem grown_respond (s : Simulator) {request : Request} (h : request ≠ .drain) :
    ∃ left, s.Grown (s.respond request).1 (s.respond request).2 left := by
  cases hpace : request.setsPace with
  | true => exact ⟨[], .nothing (isExecution_of_setsPace hpace s) (journal_of_setsPace hpace s)⟩
  | false =>
    cases request with
    | loadSource source =>
      simp only [respond, loadSource]
      split
      · exact ⟨_, journal_load _ s, .done _⟩
      · exact ⟨[], .nothing rfl rfl⟩
    | loadParts words tags =>
      simp only [respond, loadParts]
      split
      · exact ⟨_, journal_load _ s, .done _⟩
      · exact ⟨[], .nothing rfl rfl⟩
    | step => exact s.grown_step
    | tick now => exact s.grown_tick now
    | reset => exact ⟨[.reset], s.journal_reset, .done _⟩
    | restart =>
      simp only [respond, restart]
      split
      · exact ⟨[], .nothing rfl rfl⟩
      · rename_i p _
        refine ⟨[.reset, .loaded p.size], ?_, .done _⟩
        rw [journal_load, journal_reset, Array.append_assoc]
        rfl
    | provideInput text =>
      rw [respond]
      cases hpending : s.machine.pending with
      | none =>
        rw [provideInput, hpending]
        exact ⟨[], .nothing rfl rfl⟩
      | some pending =>
        rw [provideInput_of_pending hpending]
        exact ⟨_, rfl, .done _⟩
    | drain => exact absurd rfl h
    | run _ _ | setInterval _ _ | stop => cases hpace

/-! ## 3. Many requests -/

/-- **The entries that a request leaves**: those that stand in the journal after it, behind those
that stood there before. -/
def entriesLeft (s : Simulator) (request : Request) : List Event :=
  (s.respond request).2.journal.toList.drop s.journal.size

/-- The entries that requests leave, one part after the other. -/
def log : Simulator → List Request → List Event
  | _, [] => []
  | s, request :: rest => s.entriesLeft request ++ (s.respond request).2.log rest

/-- **What a request leaves** stands in the journal behind the rest, and tells of its answer. -/
theorem journal_respond (s : Simulator) {request : Request} (h : request ≠ .drain) :
    (s.respond request).2.journal.toList = s.journal.toList ++ s.entriesLeft request ∧
      Traced s.machine (s.respond request).1 (s.entriesLeft request) := by
  obtain ⟨left, hjournal, htraced⟩ := s.grown_respond h
  have hleft : s.entriesLeft request = left := by
    rw [entriesLeft, hjournal, Array.toList_append, ← Array.length_toList, List.drop_left]
  rw [hleft, hjournal, Array.toList_append]
  exact ⟨rfl, htraced⟩

theorem entriesLeft_of_setsPace {request : Request} (h : request.setsPace = true)
    (s : Simulator) : s.entriesLeft request = [] := by
  rw [entriesLeft, journal_of_setsPace h, ← Array.length_toList, List.drop_length]

/-- **A journal that nobody drains** holds everything that the requests left. -/
theorem journal_afterAll (s : Simulator) {requests : List Request} (h : .drain ∉ requests) :
    (s.afterAll requests).journal.toList = s.journal.toList ++ s.log requests := by
  induction requests generalizing s with
  | nil => exact (List.append_nil _).symm
  | cons request rest ih =>
    rw [List.mem_cons, not_or] at h
    rw [afterAll_cons, ih _ h.2, (s.journal_respond (Ne.symm h.1)).1, log, List.append_assoc]

end Simulator

/-! ## 4. Draining -/

/-- The requests that do not drain. -/
def undrained (requests : List Request) : List Request := requests.filter (· ≠ .drain)

/-- The entries that an answer hands out. -/
def Response.taken : Response → List Event
  | .drained events => events
  | _ => []

theorem Response.taken_of_ne {response : Response} (h : ∀ events, response ≠ .drained events) :
    response.taken = [] := by
  cases response with
  | drained events => exact absurd rfl (h events)
  | _ => rfl

theorem undrained_drain (rest : List Request) : undrained (.drain :: rest) = undrained rest :=
  List.filter_cons_of_neg (by simp)

theorem undrained_cons {request : Request} (h : request ≠ .drain) (rest : List Request) :
    undrained (request :: rest) = request :: undrained rest :=
  List.filter_cons_of_pos (by simpa using h)

theorem not_mem_undrained (requests : List Request) : .drain ∉ undrained requests := by
  simp [undrained]

namespace Simulator

/-- A simulator before draining is one after it, with entries from before. -/
theorem eq_withEarlier_drain (s : Simulator) :
    s = (s.respond .drain).2.withEarlier s.journal := by
  simp [respond, drain, withEarlier]

theorem withEarlier_withEarlier (before after : Array Event) (s : Simulator) :
    (s.withEarlier after).withEarlier before = s.withEarlier (before ++ after) := by
  simp only [withEarlier, Array.append_assoc]

theorem exchanges_withEarlier (events : Array Event) (s : Simulator) {requests : List Request}
    (h : .drain ∉ requests) : (s.withEarlier events).exchanges requests = s.exchanges requests := by
  induction requests generalizing s with
  | nil => rfl
  | cons request rest ih =>
    rw [List.mem_cons, not_or] at h
    rw [exchanges_cons, respond_withEarlier events s (Ne.symm h.1), ih _ h.2, exchanges_cons]

/-- **Draining changes nothing but the journal**, and the entries that it takes would stand in front
of those that are left.  The induction is on the requests; where one of them drains, the rest is put
to a simulator with entries from before. -/
theorem afterAll_undrained (s : Simulator) (requests : List Request) :
    s.afterAll (undrained requests) =
      (s.afterAll requests).withEarlier
        ((s.responses requests).flatMap Response.taken).toArray := by
  induction requests generalizing s with
  | nil => exact (withEarlier_empty s).symm
  | cons request rest ih =>
    by_cases hdrain : request = .drain
    · subst hdrain
      have htaken : (s.respond .drain).1.taken.toArray = s.journal := rfl
      calc s.afterAll (undrained (.drain :: rest))
          = ((s.respond .drain).2.withEarlier s.journal).afterAll (undrained rest) := by
            rw [undrained_drain, ← eq_withEarlier_drain]
        _ = ((s.respond .drain).2.afterAll (undrained rest)).withEarlier s.journal := by
            rw [afterAll_withEarlier, if_neg (not_mem_undrained rest)]
        _ = _ := by
            rw [ih, withEarlier_withEarlier, afterAll_cons, responses, List.flatMap_cons,
              ← List.append_toArray, htaken]
    · have htaken : (s.respond request).1.taken = [] :=
        Response.taken_of_ne fun events h => hdrain (request_of_drained h)
      rw [undrained_cons hdrain, afterAll_cons, ih, afterAll_cons, responses, List.flatMap_cons,
        htaken, List.nil_append]

/-- **Draining changes no answer.** -/
theorem exchanges_undrained (s : Simulator) (requests : List Request) :
    s.exchanges (undrained requests) =
      (s.exchanges requests).filter fun exchange => exchange.1 ≠ .drain := by
  induction requests generalizing s with
  | nil => rfl
  | cons request rest ih =>
    by_cases hdrain : request = .drain
    · subst hdrain
      rw [undrained_drain, exchanges_cons, List.filter_cons_of_neg (by simp), ← ih]
      calc s.exchanges (undrained rest)
          = ((s.respond .drain).2.withEarlier s.journal).exchanges (undrained rest) := by
            rw [← eq_withEarlier_drain]
        _ = (s.respond .drain).2.exchanges (undrained rest) :=
            exchanges_withEarlier _ _ (not_mem_undrained rest)
    · rw [undrained_cons hdrain, exchanges_cons, exchanges_cons,
        List.filter_cons_of_pos (by simpa using hdrain), ih]

/-- **The journal is complete, and draining it is transparent.**  Whatever is asked of a simulator,
with drainings anywhere in between: the other requests are answered as they are without the
drainings, and the machine, the status and the status line come to the same.  The entries that were
taken, and behind them those that are left, are the journal of the simulator that is not drained.
There each request has its part, and the part tells of the answer. -/
theorem journal_complete (s : Simulator) (requests : List Request) :
    (s.exchanges (undrained requests) =
      (s.exchanges requests).filter fun exchange => exchange.1 ≠ .drain) ∧
    ((s.afterAll (undrained requests)).machine = (s.afterAll requests).machine ∧
      (s.afterAll (undrained requests)).status = (s.afterAll requests).status ∧
      (s.afterAll (undrained requests)).statusLine = (s.afterAll requests).statusLine) ∧
    (s.responses requests).flatMap Response.taken ++ (s.afterAll requests).journal.toList =
      (s.afterAll (undrained requests)).journal.toList ∧
    (s.afterAll (undrained requests)).journal.toList =
      s.journal.toList ++ s.log (undrained requests) ∧
    ∀ (t : Simulator) (request : Request), request ≠ .drain →
      Traced t.machine (t.respond request).1 (t.entriesLeft request) ∧
        (request.setsPace = true → t.entriesLeft request = []) := by
  have hsame := s.afterAll_undrained requests
  refine ⟨s.exchanges_undrained requests, ?_, ?_,
    s.journal_afterAll (not_mem_undrained requests), fun t request h =>
      ⟨(t.journal_respond h).2, fun hpace => entriesLeft_of_setsPace hpace t⟩⟩
  · rw [hsame]
    exact ⟨rfl, rfl, rfl⟩
  · rw [hsame, withEarlier, Array.toList_append]

end Simulator
end PredicatedCpu

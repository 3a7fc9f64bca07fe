/-
# Two sessions in lockstep

A session with commands or answers to go through is a long walk, and what is asked of two of them is
often the same: that they differ, all the way, in nothing but a certain respect.  How they go is not
told by that respect.  It is enough that each kind of step keeps what is known of the two, and that
wherever the way parts, at an answer of the simulator, at its status, or at a line that is read, it
parts for both.

During a run less may be known of them than between two runs, so there are two relations.  And some
differences stay hidden only as long as the texts that are read and said are of a certain kind.

* `Follows`: a walk with a limit that comes to the same end as another; `Follows.bind`,
  `Follows.same_end`;
* `Lockstep`: what has to be known of each kind of step;
* `Lockstep.drive`, `Lockstep.execute`: runs and commands;
* `Lockstep.obey`, `Lockstep.runUnattended`: whole sessions, and the ends that they come to.
-/
import PredicatedCpu.Proofs.Session.Steps

namespace PredicatedCpu
namespace Session

/-! ## 1. Walks with a limit -/

/-- Whether a walk **follows** another one: if the other ends, so does this one with the same limit
or a higher one, and the two ends are related. -/
def Follows {α : Type} (Related : α → α → Prop) (first second : Nat → Option α) : Prop :=
  ∀ limit a, first limit = some a → ∀ limit', limit ≤ limit' →
    ∃ b, second limit' = some b ∧ Related a b

namespace Follows

variable {α β : Type} {Related : α → α → Prop} {Related' : β → β → Prop}
  {first second : Nat → Option α}

/-- What needs no limit. -/
theorem at_once {a b : α} (h : Related a b) :
    Follows Related (fun _ => some a) fun _ => some b := by
  rintro limit _ ⟨⟩ limit' -
  exact ⟨b, rfl, h⟩

/-- **One walk after another.** -/
theorem bind {next next' : Nat → α → Option β} (h : Follows Related first second)
    (hnext : ∀ a b, Related a b → Follows Related' (next · a) (next' · b)) :
    Follows Related' (fun limit => (first limit).bind (next limit))
      fun limit => (second limit).bind (next' limit) := by
  intro limit c hended limit' hle
  obtain ⟨a, ha, hc⟩ := Option.bind_eq_some_iff.mp hended
  obtain ⟨b, hb, hrelated⟩ := h limit a ha limit' hle
  obtain ⟨d, hd, hends⟩ := hnext a b hrelated limit c hc limit' hle
  exact ⟨d, Option.bind_eq_some_iff.mpr ⟨b, hb, hd⟩, hends⟩

/-- A walk and what is done at its end. -/
theorem map {f g : α → β} (h : Follows Related first second)
    (hlast : ∀ a b, Related a b → Related' (f a) (g b)) :
    Follows Related' (fun limit => (first limit).map f) fun limit => (second limit).map g := by
  intro limit c hended limit' hle
  obtain ⟨a, ha, rfl⟩ := Option.map_eq_some_iff.mp hended
  obtain ⟨b, hb, hrelated⟩ := h limit a ha limit' hle
  exact ⟨g b, Option.map_eq_some_iff.mpr ⟨b, hb, rfl⟩, hlast a b hrelated⟩

/-- With one limit for both, walks that follow each other end together or not at all. -/
theorem rel (h : Follows Related first second) (h' : Follows Related second first) (limit : Nat) :
    Option.Rel Related (first limit) (second limit) := by
  cases ha : first limit with
  | some a =>
    obtain ⟨b, hb, hrelated⟩ := h limit a ha limit (Nat.le_refl limit)
    rw [hb]
    exact .some hrelated
  | none =>
    cases hb : second limit with
    | none => exact .none
    | some b =>
      obtain ⟨a, ha', -⟩ := h' limit b hb limit (Nat.le_refl limit)
      cases ha.symm.trans ha'

/-- **Walks that follow each other come to the same end**, whatever limits they are given: the one
with the higher limit follows the other. -/
theorem same_end (h : Follows Related first second) (h' : Follows Related second first)
    (hsymm : ∀ a b, Related a b → Related b a) {limit : Nat} {a : α}
    (ha : first limit = some a) :
    (∃ limit' b, second limit' = some b) ∧
      ∀ limit' b, second limit' = some b → Related a b := by
  constructor
  · obtain ⟨b, hb, -⟩ := h limit a ha limit (Nat.le_refl limit)
    exact ⟨limit, b, hb⟩
  · intro limit' b hb
    rcases Nat.le_total limit limit' with hle | hle
    · obtain ⟨c, hc, hrelated⟩ := h limit a ha limit' hle
      obtain rfl := Option.some.inj (hc.symm.trans hb)
      exact hrelated
    · obtain ⟨c, hc, hrelated⟩ := h' limit' b hb limit hle
      obtain rfl := Option.some.inj (hc.symm.trans ha)
      exact hsymm b c hrelated

end Follows

/-! ## 2. The steps -/

/-- Whether a session puts a request to its simulator **between two runs**, with a text that is
sayable if there is one in it. -/
inductive Puts (Sayable : String → Prop) : Request → Prop
  | step : Puts Sayable .step
  | provideInput {text : String} : Sayable text → Puts Sayable (.provideInput text)
  | reset : Puts Sayable .reset
  | restart : Puts Sayable .restart

/-- Whether two sessions were **answered the same**: if there is a complaint, it is sayable. -/
structure AnsweredAlike (Sayable : String → Prop) (Related : Session → Session → Prop)
    (answered answered' : Response × Session) : Prop where
  response : answered'.1 = answered.1
  sayable : ∀ text, answered.1.complaint? = some text → Sayable text
  related : Related answered.2 answered'.2

/-- It is sayable too if nothing is said for want of a complaint. -/
theorem AnsweredAlike.sayable_getD {Sayable : String → Prop} {Related : Session → Session → Prop}
    {answered answered' : Response × Session} (h : AnsweredAlike Sayable Related answered answered')
    (hsilence : Sayable "") : Sayable (answered.1.complaint?.getD "") := by
  cases hcomplaint : answered.1.complaint? with
  | some text => exact h.sayable text hcomplaint
  | none => exact hsilence

/-- Whether two sessions have **ended together**: they are related, and the same answers are left
over. -/
structure EndedTogether (Related : Session → Session → Prop)
    (ended ended' : Session × List Answer) : Prop where
  related : Related ended.1 ended'.1
  left : ended'.2 = ended.2

/-- Whether two sessions can be followed **in lockstep**.  They are related in one way between two
runs, and in another way during a run, and whatever a session does keeps them so, as long as the
texts in it are sayable. -/
structure Lockstep (Resting Running : Session → Session → Prop) (Sayable : String → Prop) :
    Prop where
  symm {s t : Session} : Resting s t → Resting t s
  /-- Between two runs nothing of the simulators is different. -/
  simulator {s t : Session} : Resting s t → t.simulator = s.simulator
  ask {s t : Session} {request : Request} : Puts Sayable request → Resting s t →
    AnsweredAlike Sayable Resting (s.ask request) (t.ask request)
  complain {s t : Session} {text : String} : Sayable text → Resting s t →
    Resting (s.complain text) (t.complain text)
  flush {s t : Session} : Resting s t → Resting s.flush t.flush
  rewind {s t : Session} : Resting s t → Resting s.rewind t.rewind
  reportStatus {s t : Session} : Resting s t → Resting s.reportStatus t.reportStatus
  reportHalt {s t : Session} : Resting s t → Resting s.reportHalt t.reportHalt
  giveUp {s t : Session} : Resting s t → Resting s.giveUp t.giveUp
  hear {s t : Session} (answer : Answer) : Resting s t → Resting (s.hear answer) (t.hear answer)
  awaitCommand {s t : Session} (source : CommandSource) : Resting s t →
    Resting (s.awaitCommand source) (t.awaitCommand source)
  commandRead {s t : Session} (source : CommandSource) : Resting s t →
    Resting (s.commandRead source) (t.commandRead source)
  shows {s t : Session} {command : Command} : command.shows = true → Resting s t →
    Follows Resting (s.execute · command) (t.execute · command)
  /-- A run is begun by both or by neither, each with its own interval. -/
  begins {s t : Session} (interval? : Option Nat) : Resting s t →
    AnsweredAlike Sayable Running (s.ask (.run (interval?.getD s.interval) s.clock))
      (t.ask (.run (interval?.getD t.interval) t.clock))
  /-- If it is begun by neither, they rest as before. -/
  refused {s t : Session} (interval? : Option Nat) : Resting s t →
    (s.ask (.run (interval?.getD s.interval) s.clock)).1 ≠ .done →
      Resting (s.ask (.run (interval?.getD s.interval) s.clock)).2
        (t.ask (.run (interval?.getD t.interval) t.clock)).2
  scheduled {s t : Session} : Running s t →
    t.simulator.schedule?.isSome = s.simulator.schedule?.isSome
  tick {s t : Session} {schedule schedule' : Schedule} : Running s t →
    s.simulator.schedule? = some schedule → t.simulator.schedule? = some schedule' →
      Running (s.tick schedule) (t.tick schedule')
  stops {s t : Session} : Running s t → s.simulator.schedule? = none → Resting s t
  /-- It is said if a request is refused without a complaint. -/
  silence : Sayable ""
  /-- What is read from a line is as sayable as the line, be it a value or no command at all. -/
  reads {line value : String} : Sayable line → Command.parse line = .ok (.input value) →
    Sayable value
  misreads {line : String} {e : CommandError} : Sayable line → Command.parse line = .error e →
    Sayable e.message

namespace Lockstep

variable {Resting Running : Session → Session → Prop} {Sayable : String → Prop} {s t : Session}
  (walk : Lockstep Resting Running Sayable)

include walk

/-! ## 3. Runs and commands -/

/-- **A run that is begun in both ends in both.**  The induction is on the limit. -/
theorem drive (h : Running s t) : Follows Resting (s.drive ·) (t.drive ·) := by
  intro limit s' hended limit' hle
  induction limit generalizing s t limit' with
  | zero => cases hended
  | succ limit ih =>
    obtain ⟨more, rfl⟩ : ∃ more, limit' = more + 1 := ⟨limit' - 1, by omega⟩
    have hsome := walk.scheduled h
    dsimp only at hended ⊢
    rw [Session.drive] at hended ⊢
    -- Both ask for the schedule, and neither has one without the other.
    cases hs : s.simulator.schedule? with
    | none =>
      rw [hs] at hended hsome
      obtain rfl := Option.some.inj hended
      rw [Option.isNone_iff_eq_none.mp (Option.isSome_eq_false_iff.mp hsome)]
      exact ⟨t, rfl, walk.stops h hs⟩
    | some schedule =>
      rw [hs] at hended hsome
      obtain ⟨schedule', ht⟩ := Option.isSome_iff_exists.mp hsome
      rw [ht]
      exact ih (walk.tick h hs ht) hended more (by omega)

/-- Either both complain, or both go on. -/
theorem complain_or {asked asked' : Response × Session} {next : Session → Session}
    (h : AnsweredAlike Sayable Resting asked asked')
    (hnext : ∀ s t, Resting s t → Resting (next s) (next t)) :
    Resting
      (match asked.1.complaint? with
        | some text => asked.2.complain text
        | none => next asked.2)
      (match asked'.1.complaint? with
        | some text => asked'.2.complain text
        | none => next asked'.2) := by
  rw [h.response]
  cases hcomplaint : asked.1.complaint? with
  | some text => exact walk.complain (h.sayable text hcomplaint) h.related
  | none => exact hnext _ _ h.related

theorem stepMany (count : Nat) (h : Resting s t) :
    Resting (s.stepMany count) (t.stepMany count) := by
  induction count generalizing s t with
  | zero => exact h
  | succ count ih =>
    have hasked := walk.ask .step h
    have hflushed := walk.flush hasked.related
    rw [Session.stepMany, Session.stepMany]
    dsimp only
    rw [hasked.response]
    cases hcomplaint : (s.ask .step).1.complaint? with
    | some text => exact walk.complain (hasked.sayable text hcomplaint) hflushed
    | none =>
      dsimp only
      rw [walk.simulator hflushed]
      split
      · exact ih hflushed
      · exact hflushed

theorem runToEnd (interval? : Option Nat) (h : Resting s t) :
    Follows Resting (s.runToEnd · interval?) (t.runToEnd · interval?) := by
  have hbegun := walk.begins interval? h
  have hrefused := walk.refused interval? h
  unfold Session.runToEnd
  dsimp only
  rw [hbegun.response]
  cases hcomplaint : (s.ask (.run (interval?.getD s.interval) s.clock)).1.complaint? with
  | some text =>
    have hnot : (s.ask (.run (interval?.getD s.interval) s.clock)).1 ≠ .done := by
      intro hdone
      rw [hdone] at hcomplaint
      cases hcomplaint
    exact .at_once (walk.complain (hbegun.sayable text hcomplaint) (hrefused hnot))
  | none => exact (walk.drive hbegun.related).map fun _ _ => walk.reportStatus

theorem provide {value : String} (hvalue : Sayable value) (h : Resting s t) :
    Resting (s.provide value) (t.provide value) :=
  walk.complain_or (walk.ask (.provideInput hvalue) h) fun _ _ => walk.flush

theorem restart (h : Resting s t) : Resting s.restart t.restart :=
  walk.complain_or (walk.ask .restart h) fun _ _ hrestarted => walk.flush (walk.rewind hrestarted)

/-- **Every command** is executed in lockstep, if the value in it is sayable. -/
theorem execute {command : Command} (hvalue : ∀ value, command = .input value → Sayable value)
    (h : Resting s t) : Follows Resting (s.execute · command) (t.execute · command) := by
  cases command with
  | step count => exact .at_once (walk.reportStatus (walk.stepMany count h))
  | run interval? => exact walk.runToEnd interval? h
  | input value => exact .at_once (walk.provide (hvalue value rfl) h)
  | reset =>
    have hreset := walk.flush (walk.rewind (walk.ask .reset h).related)
    exact .at_once (walk.reportStatus hreset)
  | restart => exact .at_once (walk.reportStatus (walk.restart h))
  | registers | memory _ _ | output | list | status | help => exact walk.shows rfl h
  | quit => exact .at_once h

/-! ## 4. Sessions with a debugger -/

/-- **Commands are obeyed in lockstep.**  The induction is on the lines. -/
theorem obey (source : CommandSource) {lines : List String}
    (hlines : ∀ line ∈ lines, Sayable line) (h : Resting s t) :
    Follows Resting (s.obey · source lines) (t.obey · source lines) := by
  induction lines generalizing s t with
  | nil => exact .at_once (walk.awaitCommand source h)
  | cons line rest ih =>
    rw [List.forall_mem_cons] at hlines
    have hread := walk.commandRead source (walk.awaitCommand source h)
    simp only [obey_cons]
    by_cases hblank : isBlankLine line
    · simp only [if_pos hblank]
      exact ih hlines.2 hread
    · simp only [if_neg hblank]
      cases hparsed : Command.parse line with
      | error e => exact ih hlines.2 (walk.complain (walk.misreads hlines.1 hparsed) hread)
      | ok command =>
        have hvalue : ∀ value, command = .input value → Sayable value := by
          rintro value rfl
          exact walk.reads hlines.1 hparsed
        by_cases hquit : command = .quit
        · simp only [if_pos hquit]
          exact .at_once hread
        · simp only [if_neg hquit]
          exact (walk.execute hvalue hread).bind fun _ _ => ih hlines.2

/-- So if one session obeys its commands to the end, the other does, and however it is driven
there, it comes to the same end. -/
theorem obey_same_end {source : CommandSource} {lines : List String}
    (hlines : ∀ line ∈ lines, Sayable line) (h : Resting s t) {limit : Nat} {s' : Session}
    (hended : s.obey limit source lines = some s') :
    (∃ limit' t', t.obey limit' source lines = some t') ∧
      ∀ limit' t', t.obey limit' source lines = some t' → Resting s' t' :=
  (walk.obey source hlines h).same_end (walk.obey source hlines (walk.symm h))
    (fun _ _ => walk.symm) hended

/-! ## 5. Sessions without one -/

theorem give {answer : Answer} (htext : Sayable answer.text) (h : Resting s t) :
    Resting (s.give answer) (t.give answer) := by
  have hgiven := walk.ask (.provideInput htext) (walk.hear answer h)
  rw [give_eq, give_eq]
  dsimp only
  rw [hgiven.response]
  split
  · exact walk.flush hgiven.related
  · exact walk.complain (hgiven.sayable_getD walk.silence) hgiven.related

/-- **One turn** is taken in lockstep if all that follows is.  It stands alone since a turn goes by
the answers, and the run in it by the limit. -/
theorem turn {answers : List Answer} (hanswers : ∀ answer ∈ answers, Sayable answer.text)
    (hrest : ∀ answer others, answers = answer :: others → ∀ s t : Session, Resting s t →
      Follows (EndedTogether Resting) (s.runAnswering · others) (t.runAnswering · others))
    (h : Resting s t) :
    Follows (EndedTogether Resting) (s.runAnswering · answers) (t.runAnswering · answers) := by
  have hbegun := walk.begins none h
  simp only [Option.getD_none] at hbegun
  simp only [runAnswering_eq _ answers]
  rw [hbegun.response]
  by_cases hdone : (s.ask (.run s.interval s.clock)).1 = .done
  · simp only [if_pos hdone]
    refine (walk.drive hbegun.related).bind fun stopped stopped' hstopped => ?_
    rw [walk.simulator hstopped]
    by_cases hwaits : stopped.simulator.status = .waitingForInput
    · simp only [if_pos hwaits]
      cases answers with
      | nil => exact .at_once ⟨walk.giveUp hstopped, rfl⟩
      | cons answer others =>
        exact hrest answer others rfl _ _ (walk.give (hanswers _ List.mem_cons_self) hstopped)
    · simp only [if_neg hwaits]
      exact .at_once ⟨hstopped, rfl⟩
  · simp only [if_neg hdone]
    have hrefused := walk.refused none h hdone
    exact .at_once ⟨walk.complain (hbegun.sayable_getD walk.silence) hrefused, rfl⟩

/-- **Answers are taken in lockstep.**  The induction is on the answers. -/
theorem runAnswering {answers : List Answer} (hanswers : ∀ answer ∈ answers, Sayable answer.text)
    (h : Resting s t) :
    Follows (EndedTogether Resting) (s.runAnswering · answers) (t.runAnswering · answers) := by
  induction answers generalizing s t with
  | nil => exact walk.turn hanswers nofun h
  | cons answer others ih =>
    refine walk.turn hanswers (fun _ _ hcons s t hrelated => ?_) h
    obtain ⟨-, rfl⟩ := List.cons.inj hcons
    exact ih (List.forall_mem_cons.mp hanswers).2 hrelated

theorem runUnattended {queued : List String} {stdin : String}
    (hanswers : ∀ answer ∈ answers queued stdin, Sayable answer.text) (h : Resting s t) :
    Follows (EndedTogether Resting) (s.runUnattended · queued stdin)
      (t.runUnattended · queued stdin) :=
  (walk.runAnswering hanswers h).map fun _ _ hended =>
    ⟨walk.reportHalt hended.related, hended.left⟩

/-- So if one session ends, the other does, and however it is driven there, it comes to the same
end. -/
theorem runUnattended_same_end {queued : List String} {stdin : String}
    (hanswers : ∀ answer ∈ answers queued stdin, Sayable answer.text) (h : Resting s t)
    {limit : Nat} {ended : Session × List Answer}
    (hended : s.runUnattended limit queued stdin = some ended) :
    (∃ limit' ended', t.runUnattended limit' queued stdin = some ended') ∧
      ∀ limit' ended', t.runUnattended limit' queued stdin = some ended' →
        EndedTogether Resting ended ended' :=
  (walk.runUnattended hanswers h).same_end (walk.runUnattended hanswers (walk.symm h))
    (fun _ _ htogether => ⟨walk.symm htogether.related, htogether.left.symm⟩) hended

end Lockstep
end Session
end PredicatedCpu

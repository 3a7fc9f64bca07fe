/-
# Feeding a machine

What a program makes of a list of inputs, without a simulator and without time: the machine is
stepped until it halts, and each load that waits is given the next text.  If there is none left,
that is the end too.

* `Machine.feed`: this, for a number of turns;
* `Machine.Feeds`: where it ends, and which texts are left over, however many turns it takes;
* `Feeds.unique`: there is one end at most.
-/
import PredicatedCpu.Machine.Execute
import PredicatedCpu.Machine.InputValue

namespace PredicatedCpu
namespace Machine

/-- Steps a machine until it halts, and gives it the texts it waits for, as long as there are some.
The texts that were not needed are left over. -/
def feed : Nat → List String → Machine → Option (Machine × List String)
  | 0, _, _ => none
  | fuel + 1, texts, m =>
    if m.halted then some (m, texts)
    else match m.pending with
      | none => feed fuel texts m.step.2
      | some pending =>
        match texts with
        | [] => some (m, [])
        | text :: rest => feed fuel rest (m.resume pending ((inputValue? text).getD 0))

/-- One turn. -/
theorem feed_succ (fuel : Nat) (texts : List String) (m : Machine) :
    m.feed (fuel + 1) texts =
      if m.halted then some (m, texts)
      else match m.pending with
        | none => m.step.2.feed fuel texts
        | some pending =>
          match texts with
          | [] => some (m, [])
          | text :: rest => (m.resume pending ((inputValue? text).getD 0)).feed fuel rest := rfl

/-- Whether a machine that is fed with `texts` **ends as** `m'`, with `rest` left over. -/
def Feeds (m : Machine) (texts : List String) (m' : Machine) (rest : List String) : Prop :=
  ∃ fuel, m.feed fuel texts = some (m', rest)

namespace Feeds

variable {m m' : Machine} {texts rest : List String}

/-- A halted machine needs no text. -/
theorem of_halted (h : m.halted = true) : m.Feeds texts m texts :=
  ⟨1, if_pos h⟩

/-- A machine that waits for a text that is not there stays as it is. -/
theorem of_waiting {pending : PendingInput} (hgoes : m.halted = false)
    (hwaits : m.pending = some pending) : m.Feeds [] m [] := by
  refine ⟨1, ?_⟩
  rw [feed_succ, hgoes, hwaits]
  rfl

/-- A machine that can go on is stepped. -/
theorem step (h : m.step.2.Feeds texts m' rest) (hgoes : m.halted = false)
    (hwaits : m.pending = none) : m.Feeds texts m' rest := by
  obtain ⟨fuel, hfeed⟩ := h
  refine ⟨fuel + 1, ?_⟩
  rw [feed_succ, hgoes, hwaits]
  exact hfeed

/-- A machine that waits is given the next text. -/
theorem answer {pending : PendingInput} {text : String}
    (h : (m.resume pending ((inputValue? text).getD 0)).Feeds texts m' rest)
    (hgoes : m.halted = false) (hwaits : m.pending = some pending) :
    m.Feeds (text :: texts) m' rest := by
  obtain ⟨fuel, hfeed⟩ := h
  refine ⟨fuel + 1, ?_⟩
  rw [feed_succ, hgoes, hwaits]
  exact hfeed

end Feeds

/-- More turns than are needed change nothing. -/
theorem feed_add {fuel : Nat} {m : Machine} {texts : List String} {fed : Machine × List String}
    (h : m.feed fuel texts = some fed) (extra : Nat) : m.feed (fuel + extra) texts = some fed := by
  induction fuel generalizing m texts with
  | zero => cases h
  | succ fuel ih =>
    rw [Nat.succ_add, feed_succ]
    rw [feed_succ] at h
    cases hhalted : m.halted with
    | true =>
      rw [hhalted] at h
      exact h
    | false =>
      rw [hhalted] at h
      cases hwaits : m.pending with
      | none =>
        rw [hwaits] at h
        exact ih h
      | some pending =>
        rw [hwaits] at h
        cases texts with
        | nil => exact h
        | cons text rest => exact ih h

/-- **There is one end at most.** -/
theorem Feeds.unique {m m₁ m₂ : Machine} {texts rest₁ rest₂ : List String}
    (h₁ : m.Feeds texts m₁ rest₁) (h₂ : m.Feeds texts m₂ rest₂) : m₁ = m₂ ∧ rest₁ = rest₂ := by
  obtain ⟨fuel₁, hfeed₁⟩ := h₁
  obtain ⟨fuel₂, hfeed₂⟩ := h₂
  have hlong₁ := feed_add hfeed₁ fuel₂
  have hlong₂ := feed_add hfeed₂ fuel₁
  rw [Nat.add_comm, hlong₁] at hlong₂
  exact Prod.mk.inj (Option.some.inj hlong₂)

/-- **At the end** the machine is halted, or it waits and nothing is left over. -/
theorem Feeds.ends {m m' : Machine} {texts rest : List String} (h : m.Feeds texts m' rest) :
    m'.halted = true ∨ m'.halted = false ∧ m'.waiting = true ∧ rest = [] := by
  obtain ⟨fuel, hfeed⟩ := h
  induction fuel generalizing m texts with
  | zero => cases hfeed
  | succ fuel ih =>
    rw [feed_succ] at hfeed
    split at hfeed
    · rename_i hhalted
      obtain ⟨rfl, rfl⟩ := Prod.mk.inj (Option.some.inj hfeed)
      exact .inl hhalted
    · rename_i hgoes
      cases hwaits : m.pending with
      | none =>
        rw [hwaits] at hfeed
        exact ih hfeed
      | some pending =>
        rw [hwaits] at hfeed
        cases texts with
        | nil =>
          obtain ⟨rfl, rfl⟩ := Prod.mk.inj (Option.some.inj hfeed)
          refine .inr ⟨by simpa using hgoes, ?_, rfl⟩
          rw [waiting, hwaits]
          rfl
        | cons text rest => exact ih hfeed

end Machine
end PredicatedCpu

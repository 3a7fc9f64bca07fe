/-
# Requests

All that can be asked of a simulator, as one type.  What happens to a simulator over its life
is a list of requests, and everything that holds "whatever is asked of it" is a statement
about such lists.
-/
import PredicatedCpu.Simulator.Basic

namespace PredicatedCpu

/-- A request to a simulator.  Where it depends on time, the moment is part of it. -/
inductive Request where
  | loadSource (source : String)
  | loadParts (words : List Word) (tags : List Tag)
  | step
  | run (milliseconds : Nat) (now : Time)
  | setInterval (milliseconds : Nat) (now : Time)
  | tick (now : Time)
  | stop
  | reset
  | restart
  | provideInput (text : String)
  | drain
  deriving DecidableEq, Repr

namespace Simulator

/-- The answer to a request, and the simulator after it. -/
def respond (s : Simulator) : Request → Response × Simulator
  | .loadSource source => s.loadSource source
  | .loadParts words tags => s.loadParts words tags
  | .step => s.step
  | .run milliseconds now => s.run milliseconds now
  | .setInterval milliseconds now => s.setInterval milliseconds now
  | .tick now => s.tick now
  | .stop => (.done, s.stop)
  | .reset => (.done, s.reset)
  | .restart => s.restart
  | .provideInput text => s.provideInput text
  | .drain => (.drained s.drain.1, s.drain.2)

/-- The simulator after a list of requests. -/
def afterAll (s : Simulator) (requests : List Request) : Simulator :=
  requests.foldl (fun s request => (s.respond request).2) s

/-- The answers to a list of requests. -/
def responses (s : Simulator) : List Request → List Response
  | [] => []
  | request :: rest => (s.respond request).1 :: (s.respond request).2.responses rest

@[simp] theorem afterAll_nil (s : Simulator) : s.afterAll [] = s := rfl

@[simp] theorem afterAll_cons (s : Simulator) (request : Request) (rest : List Request) :
    s.afterAll (request :: rest) = (s.respond request).2.afterAll rest := rfl

/-- Requests may be put in two batches. -/
@[simp] theorem afterAll_append (s : Simulator) (before after : List Request) :
    s.afterAll (before ++ after) = (s.afterAll before).afterAll after := by
  simp [afterAll]

/-- What every request keeps is kept whatever is asked. -/
theorem afterAll_induction {motive : Simulator → Prop} {s : Simulator} (start : motive s)
    (keeps : ∀ (s : Simulator) (request : Request), motive s → motive (s.respond request).2)
    (requests : List Request) : motive (s.afterAll requests) := by
  induction requests generalizing s with
  | nil => exact start
  | cons request rest ih => exact ih (keeps s request start)

end Simulator
end PredicatedCpu

/-
# Stores to the window

The machine keeps a record of every store to the window, and loses them all when it is replaced.
What was stored over several lives of the machine is therefore read off the requests: each of them
executes at most one instruction, and whether that is a store to the window shows in the machine
before it.

* `Machine.windowStore?`: the record that the next instruction is going to leave;
* `Simulator.windowStores`: the records of all instructions executed on a list of requests;
* `output_of_staying`, `output_of_replaced`: what one request does to the records that the machine
  keeps;
* `output_since_load`: so the machine keeps those that were left since it was loaded.
-/
import PredicatedCpu.Proofs.Simulator.Lifetime

namespace PredicatedCpu

/-! ## 1. One instruction -/

/-- The record that an operation leaves: only a store to the window leaves one. -/
def Operation.sent? (m : Machine) : Operation → Option OutputRecord
  | .store address => if address.isWindow then some ⟨address, m.register .transfer⟩ else none
  | _ => none

/-- The record that an instruction leaves: none if its predicate does not hold. -/
def Instruction.sent? (i : Instruction) (m : Machine) : Option OutputRecord :=
  if i.predicate.holds m.predicates then i.operation.sent? m else none

/-- **The store to the window** that the instruction at the program counter is, if it is one and
its predicate holds: the address it names and the word in the register that stores send. -/
def Machine.windowStore? (m : Machine) : Option OutputRecord :=
  match decode (m.word m.pc) (m.tag m.pc) with
  | .ok instruction => instruction.sent? m
  | .error _ => none

theorem Operation.perform_output (op : Operation) (m : Machine) :
    (op.perform m).2.output.toList = m.output.toList ++ (op.sent? m).toList := by
  cases op with
  | load address =>
    simp only [Operation.perform, Operation.performLoad]
    split
    · split <;> exact (List.append_nil _).symm
    · exact (List.append_nil _).symm
  | store address =>
    simp only [Operation.perform, Operation.performStore, Operation.sent?]
    split
    · exact Array.toList_push
    · exact (List.append_nil _).symm
  | _ => exact (List.append_nil _).symm

theorem Instruction.execute_output (i : Instruction) (m : Machine) :
    (i.execute m).2.output.toList = m.output.toList ++ (i.sent? m).toList := by
  unfold Instruction.execute Instruction.sent?
  split
  · exact i.operation.perform_output m
  · exact (List.append_nil _).symm

/-- That the program counter has moved on makes no difference to what is sent. -/
theorem Instruction.sent?_advance (i : Instruction) (m : Machine) :
    i.sent? m.advance = i.sent? m := by
  obtain ⟨predicate, op⟩ := i
  cases op <;> rfl

namespace Machine

/-- **A step leaves a record exactly if it stores to the window**, and keeps all earlier ones. -/
theorem output_step (m : Machine) :
    m.step.2.output.toList = m.output.toList ++ m.windowStore?.toList := by
  rcases hstep : m.step with ⟨fault | effect, m'⟩
  · obtain ⟨hdecode, -, -, -, rfl⟩ := step_eq_error_iff.mp hstep
    rw [windowStore?, hdecode]
    exact (List.append_nil _).symm
  · obtain ⟨hdecode, hexecute⟩ := step_eq_ok_iff.mp hstep
    have houtput := effect.instruction.execute_output m.advance
    rw [hexecute, Instruction.sent?_advance] at houtput
    rw [windowStore?, hdecode]
    exact houtput

end Machine

namespace Simulator

/-! ## 2. One request -/

/-- The record that is left on a request, if an instruction is executed on it that leaves one. -/
def windowStore? (s : Simulator) (request : Request) : Option OutputRecord :=
  if (s.respond request).1.isExecution then s.machine.windowStore? else none

/-- What happens to the records when something happens to the machine. -/
theorem Move.output {s : Simulator} {response : Response} {m : Machine} (h : s.Move response m) :
    m.output.toList = s.machine.output.toList ++
      (if response.isExecution then s.machine.windowStore? else none).toList := by
  cases h with
  | still unexecuted faultless =>
    rw [Response.isExecution_eq_false_iff.mpr ⟨unexecuted, faultless⟩]
    exact (List.append_nil _).symm
  | executed _ step | faulted _ step =>
    have houtput := s.machine.output_step
    rw [step] at houtput
    exact houtput
  | resumed => exact (List.append_nil _).symm

/-- **As long as the machine stays**, a request adds a record or none. -/
theorem output_of_staying {s : Simulator} {request : Request}
    (h : request.replaces (s.respond request).1 = false) :
    (s.respond request).2.machine.output.toList =
      s.machine.output.toList ++ (s.windowStore? request).toList :=
  (move_of_staying h).output

/-- **When the machine is replaced** the records are gone. -/
theorem output_of_replaced {s : Simulator} {request : Request}
    (h : request.replaces (s.respond request).1 = true) :
    (s.respond request).2.machine.output = #[] := by
  rcases machine_of_replaced h with hblank | ⟨p, hloaded⟩
  · rw [hblank]
    rfl
  · rw [hloaded]
    rfl

/-- Only a step or a tick leaves a record. -/
theorem windowStore?_of_unexecuted {s : Simulator} {request : Request}
    (h : (s.respond request).1.isExecution = false) : s.windowStore? request = none := by
  rw [windowStore?, h]
  rfl

/-! ## 3. Many requests -/

/-- **The stores to the window** that are executed on a list of requests, in their order. -/
def windowStores : Simulator → List Request → List OutputRecord
  | _, [] => []
  | s, request :: rest =>
    (s.windowStore? request).toList ++ (s.respond request).2.windowStores rest

/-- The second batch begins where the first one ends. -/
theorem windowStores_append (s : Simulator) (before after : List Request) :
    s.windowStores (before ++ after) =
      s.windowStores before ++ (s.afterAll before).windowStores after := by
  induction before generalizing s with
  | nil => rfl
  | cons request rest ih =>
    rw [List.cons_append, windowStores, windowStores, ih, afterAll_cons, List.append_assoc]

theorem windowStores_concat (s : Simulator) (requests : List Request) (request : Request) :
    s.windowStores (requests ++ [request]) =
      s.windowStores requests ++ ((s.afterAll requests).windowStore? request).toList := by
  rw [windowStores_append]
  simp only [windowStores, List.append_nil]

/-- The records that a machine keeps are those it had, and after them those that were left as long
as it stays. -/
theorem output_afterAll {s : Simulator} {requests : List Request} (hstays : s.Stays requests) :
    (s.afterAll requests).machine.output.toList =
      s.machine.output.toList ++ s.windowStores requests := by
  induction requests generalizing s with
  | nil => exact (List.append_nil _).symm
  | cons request rest ih =>
    obtain ⟨hfirst, hrest⟩ := stays_cons.mp hstays
    rw [afterAll_cons, ih hrest, output_of_staying hfirst, windowStores, List.append_assoc]

/-- **The machine keeps what was stored to the window since it was loaded**, in the order in which
it was stored, and nothing else. -/
theorem output_since_load (p : Program) (s : Simulator) {requests : List Request}
    (hstays : (s.load p).Stays requests) :
    ((s.load p).afterAll requests).machine.output.toList = (s.load p).windowStores requests :=
  output_afterAll hstays

end Simulator
end PredicatedCpu

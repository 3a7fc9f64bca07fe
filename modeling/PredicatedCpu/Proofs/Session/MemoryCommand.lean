/-
# Numbers for the memory command

The memory command takes numbers up to the last address, and reads them as it reads input values.
Those wrap round, for a value is cut to a word before anyone asks how large it is; so besides the
numbers up to the last address the command takes every number that comes to one of them modulo
`2 ^ 16`, and shows the memory there.

* `Command.memoryNumberOf`: what a number for the memory command ought to be taken for;
* `Command.WrapsIntoMemory`: the numbers for which it is taken for something else;
* `Command.parse_memory_eq_iff`: and these are all.
-/
import PredicatedCpu.Proofs.Machine.InputValue
import PredicatedCpu.Session.Command

namespace PredicatedCpu
namespace Command

/-! ## 1. One number -/

/-- What a word that denotes `value` ought to be taken for: the number itself if there is such an
address, and a complaint of the word otherwise. -/
def memoryNumberOf (argument : String) (value : Int) : Except CommandError Nat :=
  if 0 ≤ value ∧ value ≤ 511 then .ok value.toNat else .error (.invalid "memory" argument)

/-- Whether a number **wraps** into memory: there is no such address, but there is one modulo
`2 ^ 16`, and the number has not more than 63 bits. -/
def WrapsIntoMemory (value : Int) : Prop :=
  ¬ (0 ≤ value ∧ value ≤ 511) ∧ value.natAbs < 2 ^ 63 ∧ value % 65536 ≤ 511

/-- What it is taken for. -/
theorem memoryNumber_of_signedDenotes {argument : String} {value : Int}
    (h : Text.SignedDenotes argument.toList value) :
    memoryNumber argument =
      if value.natAbs < 2 ^ 63 ∧ value % 65536 ≤ 511 then .ok (value % 65536).toNat
      else .error (.invalid "memory" argument) := by
  have htrim : Text.SignedDenotes (Text.trim argument.toList) value := by rwa [h.trim]
  have hword : (BitVec.ofInt 16 value).toNat = (value % 65536).toNat := BitVec.toNat_ofInt ..
  rw [memoryNumber, inputValue?_of_signedDenotes htrim]
  by_cases hsize : value.natAbs < 2 ^ 63
  · rw [if_pos hsize]
    change (if (BitVec.ofInt 16 value).toNat < memorySize then
      Except.ok (BitVec.ofInt 16 value).toNat else _) = _
    have hbound : (value % 65536).toNat < memorySize ↔ value % 65536 ≤ 511 := by
      unfold memorySize
      omega
    rw [hword]
    by_cases hlow : value % 65536 ≤ 511
    · rw [if_pos (hbound.mpr hlow), if_pos ⟨hsize, hlow⟩]
    · rw [if_neg (mt hbound.mp hlow), if_neg fun hfits => hlow hfits.2]
  · rw [if_neg hsize, if_neg fun hfits => hsize hfits.1]

/-- A number that does not wrap is taken for itself, or complained of. -/
theorem memoryNumber_of_not_wraps {argument : String} {value : Int}
    (h : Text.SignedDenotes argument.toList value) (hwraps : ¬ WrapsIntoMemory value) :
    memoryNumber argument = memoryNumberOf argument value := by
  rw [memoryNumber_of_signedDenotes h, memoryNumberOf]
  by_cases hinside : 0 ≤ value ∧ value ≤ 511
  · have hsame : value % 65536 = value := by omega
    have hfits : value.natAbs < 2 ^ 63 ∧ value % 65536 ≤ 511 := by omega
    rw [if_pos hinside, if_pos hfits, hsame]
  · rw [if_neg hinside, if_neg fun hfits => hwraps ⟨hinside, hfits⟩]

/-- **A number is taken for itself** or complained of, unless it wraps, and whatever is made of it
afterwards shows the difference. -/
theorem map_memoryNumber {argument : String} {value : Int}
    (h : Text.SignedDenotes argument.toList value) (f : Nat → Command) :
    ((memoryNumber argument).map f = (memoryNumberOf argument value).map f ↔
        ¬ WrapsIntoMemory value) ∧
      (WrapsIntoMemory value → (memoryNumber argument).map f = .ok (f (value % 65536).toNat)) := by
  by_cases hwraps : WrapsIntoMemory value
  · have hof : memoryNumberOf argument value = .error (.invalid "memory" argument) :=
      if_neg hwraps.1
    rw [memoryNumber_of_signedDenotes h, if_pos hwraps.2, hof]
    exact ⟨iff_of_false (by nofun) fun hnot => hnot hwraps, fun _ => rfl⟩
  · rw [memoryNumber_of_not_wraps h hwraps]
    exact ⟨iff_of_true rfl hwraps, fun hwraps' => absurd hwraps' hwraps⟩

/-! ## 2. The command -/

/-- The names of the memory command. -/
def memoryNames : List String := ["memory", "mem", "m"]

theorem ofWords_memory {name : String} (h : Text.lower name ∈ memoryNames)
    (arguments : List String) : ofWords name arguments = parseMemory arguments := by
  simp only [memoryNames, List.mem_cons, List.not_mem_nil, or_false] at h
  unfold ofWords
  rcases h with h | h | h <;> rw [h] <;> rfl

/-- The memory command with one number. -/
theorem parseMemory_singleton (first : String) :
    parseMemory [first] = (memoryNumber first).map fun a => .memory a 1 := by
  simp only [parseMemory]
  cases memoryNumber first <;> rfl

/-- With two numbers, the first of which is an address. -/
theorem parseMemory_pair {first : String} {a : Nat} (h : memoryNumber first = .ok a)
    (count : String) :
    parseMemory [first, count] = (memoryNumber count).map fun n => .memory a (max n 1) := by
  simp only [parseMemory, h]
  cases memoryNumber count <;> rfl

/-- A line is the memory command if it begins with one of its names. -/
theorem parse_memory_line {line name : String} {arguments : List String}
    (hname : Text.lower name ∈ memoryNames)
    (hline : (Text.words line.toList).map String.ofList = name :: arguments) :
    parse line = parseMemory arguments := by
  rw [parse, hline]
  exact ofWords_memory hname arguments

/-- **The memory command takes numbers for themselves or complains of them, unless they wrap.**  A
word that denotes a number is either taken for just this number, if there is such an address, or
complained of as it stands, and this goes for the count that may follow as well; there is no other
exception than the numbers that wrap into memory, and those are taken for what they wrap to. -/
theorem parse_memory_eq_iff {name first : String} {a : Int}
    (hname : Text.lower name ∈ memoryNames) (hfirst : Text.SignedDenotes first.toList a) :
    (∀ line : String, (Text.words line.toList).map String.ofList = [name, first] →
      (parse line = (memoryNumberOf first a).map (fun a => .memory a 1) ↔ ¬ WrapsIntoMemory a) ∧
        (WrapsIntoMemory a → parse line = .ok (.memory (a % 65536).toNat 1))) ∧
    (0 ≤ a ∧ a ≤ 511 → ∀ (line count : String) (n : Int), Text.SignedDenotes count.toList n →
      (Text.words line.toList).map String.ofList = [name, first, count] →
        (parse line = (memoryNumberOf count n).map (fun n => .memory a.toNat (max n 1)) ↔
          ¬ WrapsIntoMemory n) ∧
        (WrapsIntoMemory n → parse line = .ok (.memory a.toNat (max (n % 65536).toNat 1)))) := by
  constructor
  · intro line hline
    rw [parse_memory_line hname hline, parseMemory_singleton]
    exact map_memoryNumber hfirst _
  · intro hinside line count n hcount hline
    have haddress : memoryNumber first = .ok a.toNat := by
      rw [memoryNumber_of_not_wraps hfirst fun hwraps => hwraps.1 hinside]
      exact if_pos hinside
    rw [parse_memory_line hname hline, parseMemory_pair haddress]
    exact map_memoryNumber hcount _

/-- An address that is one, and a count that wraps: three words are shown from the last address
on. -/
theorem parse_memory_eq_iff_negative :
    parse " MEM 0x1FF -65533" = .ok (.memory 511 3) ∧
      parse " MEM 0x1FF -65533" ≠
        (memoryNumberOf "-65533" (-65533)).map (fun n => .memory 511 (max n 1)) ∧
      parse "memory 0b101" = (memoryNumberOf "0b101" 5).map (fun a => .memory a 1) := by
  have hmem : Text.lower "MEM" ∈ memoryNames := by decide
  have hmemory : Text.lower "memory" ∈ memoryNames := by decide
  have hlast : Text.SignedDenotes "0x1FF".toList 511 :=
    .inl ⟨511, Text.numeral?_eq_some_iff.mp (by decide), rfl⟩
  have hfive : Text.SignedDenotes "0b101".toList 5 :=
    .inl ⟨5, Text.numeral?_eq_some_iff.mp (by decide), rfl⟩
  have hcount : Text.SignedDenotes "-65533".toList (-65533) :=
    .inr ⟨"65533".toList, 65533, by decide, Text.numeral?_eq_some_iff.mp (by decide), rfl⟩
  have hwraps : WrapsIntoMemory (-65533) := by
    unfold WrapsIntoMemory
    decide
  obtain ⟨hiff, htaken⟩ := (parse_memory_eq_iff hmem hlast).2 (by decide) " MEM 0x1FF -65533" _ _
    hcount (by decide)
  refine ⟨htaken hwraps, fun h => hiff.mp h hwraps, ?_⟩
  refine ((parse_memory_eq_iff hmemory hfive).1 _ (by decide)).1.mpr ?_
  unfold WrapsIntoMemory
  decide

/-- There is no address `65536`, and the memory command takes it for the first one. -/
theorem parse_memory_65536 :
    Text.SignedDenotes "65536".toList 65536 ∧ parse "memory 65536" = .ok (.memory 0 1) ∧
      parse "memory 65536" ≠ (memoryNumberOf "65536" 65536).map (fun a => .memory a 1) := by
  have hparse : parse "memory 65536" = .ok (.memory 0 1) := by decide
  refine ⟨.inl ⟨65536, Text.numeral?_eq_some_iff.mp (by decide), rfl⟩, hparse, ?_⟩
  rw [hparse]
  nofun

end Command
end PredicatedCpu

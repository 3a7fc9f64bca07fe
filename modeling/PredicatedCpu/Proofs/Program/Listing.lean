/-
# Listings can be read back

A listing is meant for people.  It mixes two kinds of lines, labels and slots; its columns are as
wide as their contents happen to be; and where a word is no instruction it shows question marks,
which are the same for every such word.  So it is not plain that two programs with one listing are
one program, and of their symbols it is not even true: of several labels for an address only the
first is shown.

The slots are all there.  The second word of a slot's line is the word in memory and the third one
is its tag, whatever follows, and the line of a label has one word only.  That holds as long as no
label has a blank or a line feed in it, which is so for every program there is: the assembler takes
identifiers only, and words and tags that were stored apart come without labels.

* `Slot.lineText`, `Slot.ofLine?`: the line of a slot, and the slot of a line;
* `Listed`: the lines that are due to slots and their labels;
* `exists_listed`: a listing has just these lines, and their slots are the slots of the program;
* `listing_tells_slots`: the same for the programs that there are.
-/
import PredicatedCpu.Program.Listing
import PredicatedCpu.Proofs.Assembly.Casing
import PredicatedCpu.Proofs.Assembly.Grammar
import PredicatedCpu.Proofs.SymbolTable
import PredicatedCpu.Proofs.Text.Words

namespace PredicatedCpu

open Text (IsWord)

/-! ## 1. Columns -/

/-- A word and the blanks behind it are **cut off together**. -/
theorem Text.words_append_gap {cs gap : List Char} (hne : cs ≠ [])
    (hsolid : ∀ c ∈ cs, isBlank c = false) (hgap : gap ≠ [])
    (hblank : ∀ c ∈ gap, isBlank c = true) (back : List Char) :
    words (cs ++ (gap ++ back)) = cs :: words back := by
  cases gap with
  | nil => exact absurd rfl hgap
  | cons c gap =>
    rw [List.forall_mem_cons] at hblank
    rw [List.cons_append, words_append_cons _ _ hblank.1, words_of_solid hne hsolid,
      words_append_left hblank.2, List.singleton_append]

namespace Tag

theorem ofName?_name (tag : Tag) : ofName? tag.name = some tag := by
  cases tag <;> rfl

theorem name_ne_nil (tag : Tag) : tag.name.toList ≠ [] := by
  cases tag <;> decide

theorem not_blank_name (tag : Tag) : ∀ c ∈ tag.name.toList, Text.isBlank c = false := by
  have hall : tag.name.toList.all (fun c => !Text.isBlank c) = true := by cases tag <;> decide
  simpa using hall

end Tag

/-! ## 2. The line of a slot -/

namespace Slot

/-- The line of a slot, without what ends it. -/
def lineText (slot : Slot) (address : Nat) : String :=
  "  " ++ addressText address ++ "  " ++ Text.hex 4 slot.word.toNat ++ "  " ++
    Text.alignLeft 6 slot.tag.name ++ "  " ++ slot.text

theorem line_eq (slot : Slot) (address : Nat) :
    slot.line address = slot.lineText address ++ "\n" :=
  rfl

/-- The slot that a line shows: its word is the second of the words on the line, its tag the
third. -/
def ofLine? (line : List Char) : Option Slot :=
  match Text.words line with
  | _ :: word :: tag :: _ =>
    match Text.ofDigits? 16 word, Tag.ofName? (String.ofList tag) with
    | some value, some tag => some ⟨Word.ofNat value, tag⟩
    | _, _ => none
  | _ => none

/-- **The words on the line of a slot.** -/
theorem words_lineText (slot : Slot) (address : Nat) :
    Text.words (slot.lineText address).toList =
      (addressText address).toList :: (Text.hex 4 slot.word.toNat).toList ::
        slot.tag.name.toList :: Text.words slot.text.toList := by
  have hgap : ∀ c ∈ [' ', ' '], Text.isBlank c = true := List.all_eq_true.mp (by decide)
  have hfilling : ∀ c ∈ (Text.filling ' ' 6 slot.tag.name).toList ++ [' ', ' '],
      Text.isBlank c = true := by
    intro c hc
    rw [List.mem_append, Text.filling, String.toList_ofList] at hc
    rcases hc with hc | hc
    · rw [List.eq_of_mem_replicate hc]
      decide
    · exact hgap c hc
  have haddress := plain_addressText address
  have hhex := plain_hex 4 slot.word.toNat
  have hline : (slot.lineText address).toList = [' ', ' '] ++ ((addressText address).toList ++
      ([' ', ' '] ++ ((Text.hex 4 slot.word.toNat).toList ++ ([' ', ' '] ++
        (slot.tag.name.toList ++ (((Text.filling ' ' 6 slot.tag.name).toList ++ [' ', ' ']) ++
          slot.text.toList)))))) := by
    simp only [lineText, Text.alignLeft, String.toList_append, List.append_assoc]
    rfl
  rw [hline, Text.words_append_left hgap,
    Text.words_append_gap haddress.1 haddress.not_blank (by simp) hgap,
    Text.words_append_gap hhex.1 hhex.not_blank (by simp) hgap,
    Text.words_append_gap slot.tag.name_ne_nil slot.tag.not_blank_name (by simp) hfilling]

/-- **The line of a slot shows this slot**, at whatever address it stands. -/
theorem ofLine?_lineText (slot : Slot) (address : Nat) :
    ofLine? (slot.lineText address).toList = some slot := by
  have hword : Word.ofNat slot.word.toNat = slot.word := by simp [Word.ofNat]
  rw [ofLine?, words_lineText]
  simp only [Text.ofDigits?_hex, String.ofList_toList, Tag.ofName?_name, hword]

/-- A line with one word on it shows no slot. -/
theorem ofLine?_of_solid {line : List Char} (hne : line ≠ [])
    (hsolid : ∀ c ∈ line, Text.isBlank c = false) : ofLine? line = none := by
  rw [ofLine?, Text.words_of_solid hne hsolid]

theorem not_mem_text (slot : Slot) : '\n' ∉ slot.text.toList := by
  unfold text
  cases slot.decode with
  | ok i => exact fun h => ne_of_mem_text h (by decide) rfl
  | error e => exact (by decide : '\n' ∉ "???".toList)

/-- The line of a slot is one line. -/
theorem not_mem_lineText (slot : Slot) (address : Nat) :
    '\n' ∉ (slot.lineText address).toList := by
  have hplain {text : String} (h : Plain text) : '\n' ∉ text.toList := fun hmem =>
    absurd (h.2 _ hmem) (by decide)
  have htag : '\n' ∉ slot.tag.name.toList := fun hmem =>
    absurd (slot.tag.not_blank_name _ hmem) (by decide)
  have hfilling : '\n' ∉ (Text.filling ' ' 6 slot.tag.name).toList := by
    rw [Text.filling, String.toList_ofList]
    exact fun hmem => absurd (List.eq_of_mem_replicate hmem) (by decide)
  have hgap : '\n' ∉ "  ".toList := by decide
  simp only [lineText, Text.alignLeft, String.toList_append, List.mem_append, not_or]
  exact ⟨⟨⟨⟨⟨⟨⟨hgap, hplain (plain_addressText address)⟩, hgap⟩, hplain (plain_hex _ _)⟩, hgap⟩,
    htag, hfilling⟩, hgap⟩, slot.not_mem_text⟩

end Slot

/-! ## 3. The lines of a listing -/

/-- Whether lines are **those that are due** to slots, from an address on: one for each slot, in
order, and in front of it a line with a label if there is one for its address, which is the first
that was defined for it. -/
inductive Listed (symbols : SymbolTable) : Nat → List Slot → List String → Prop
  | nil (address : Nat) : Listed symbols address [] []
  | unlabelled {address : Nat} (none : ∀ entry ∈ symbols.entries, entry.2 ≠ address) (slot : Slot)
      {rest : List Slot} {lines : List String} (others : Listed symbols (address + 1) rest lines) :
      Listed symbols address (slot :: rest) (slot.lineText address :: lines)
  | labelled {address : Nat} {label : String} {before after : List (String × Nat)}
      (defined : symbols.entries = before ++ (label, address) :: after)
      (first : ∀ entry ∈ before, entry.2 ≠ address) (slot : Slot) {rest : List Slot}
      {lines : List String} (others : Listed symbols (address + 1) rest lines) :
      Listed symbols address (slot :: rest) ((label ++ ":") :: slot.lineText address :: lines)

/-- Lines with a line feed behind each of them are **cut apart again**. -/
theorem Text.splitOn_join_lines {lines : List String} (h : ∀ line ∈ lines, '\n' ∉ line.toList) :
    (String.join (lines.map (· ++ "\n"))).toList.splitOn '\n' =
      lines.map String.toList ++ [[]] := by
  induction lines with
  | nil => rfl
  | cons line rest ih =>
    rw [List.forall_mem_cons] at h
    have hjoin : (String.join ((line :: rest).map (· ++ "\n"))).toList =
        line.toList ++ '\n' :: (String.join (rest.map (· ++ "\n"))).toList := by
      rw [List.map_cons, String.join_cons, String.toList_append, String.toList_append,
        List.append_assoc]
      rfl
    rw [hjoin, List.splitOn_append_cons_self_of_not_mem h.1, ih h.2]
    rfl

section Words

variable {symbols : SymbolTable} (hwords : ∀ name ∈ symbols.names, IsWord name.toList)
include hwords

/-- A label on a line of its own is one line, and shows no slot. -/
theorem label_line {label : String} {before after : List (String × Nat)} {address : Nat}
    (h : symbols.entries = before ++ (label, address) :: after) :
    '\n' ∉ (label ++ ":").toList ∧ Slot.ofLine? (label ++ ":").toList = none := by
  have hword : IsWord label.toList :=
    hwords label (List.mem_map.mpr ⟨(label, address), by simp [h], rfl⟩)
  have hsolid : ∀ c ∈ (label ++ ":").toList, Text.isBlank c = false := by
    intro c hc
    rw [String.toList_append, List.mem_append] at hc
    rcases hc with hc | hc
    · exact Text.not_blank_of_isWordChar (hword.all c hc)
    · obtain rfl : c = ':' := List.mem_singleton.mp hc
      decide
  refine ⟨fun hmem => ?_, Slot.ofLine?_of_solid (by simp) hsolid⟩
  exact absurd (hsolid _ hmem) (by decide)

/-- **A listing has the lines that are due to its slots**, and they show these slots.  The induction
is on the slots, from any address on. -/
theorem exists_listed (address : Nat) (slots : List Slot) :
    ∃ lines, Listed symbols address slots lines ∧ (∀ line ∈ lines, '\n' ∉ line.toList) ∧
      String.join (listingFrom symbols address slots) = String.join (lines.map (· ++ "\n")) ∧
      (lines.map String.toList).filterMap Slot.ofLine? = slots := by
  induction slots generalizing address with
  | nil => exact ⟨[], .nil address, nofun, rfl, rfl⟩
  | cons slot rest ih =>
    obtain ⟨lines, hlisted, hlines, hjoin, hshown⟩ := ih (address + 1)
    have hline := slot.not_mem_lineText address
    have hslot := slot.ofLine?_lineText address
    rw [listingFrom, String.join_cons, hjoin, SymbolTable.labelLine, slot.line_eq]
    cases hlabel : symbols.labelAt? address with
    | none =>
      refine ⟨_, .unlabelled (SymbolTable.labelAt?_eq_none_iff.mp hlabel) slot hlisted,
        List.forall_mem_cons.mpr ⟨hline, hlines⟩, ?_, ?_⟩
      · rw [List.map_cons, String.join_cons, String.empty_append]
      · rw [List.map_cons, List.filterMap_cons_some hslot, hshown]
    | some label =>
      obtain ⟨before, after, hentries, hbefore⟩ := SymbolTable.labelAt?_eq_some_iff.mp hlabel
      obtain ⟨hlabelLine, hnoSlot⟩ := label_line hwords hentries
      refine ⟨_, .labelled hentries hbefore slot hlisted,
        List.forall_mem_cons.mpr ⟨hlabelLine, List.forall_mem_cons.mpr ⟨hline, hlines⟩⟩, ?_, ?_⟩
      · have hend : label ++ ":\n" = label ++ ":" ++ "\n" := by
          rw [String.append_assoc]
          rfl
        simp only [hend, List.map_cons, String.join_cons, String.append_assoc]
      · rw [List.map_cons, List.map_cons, List.filterMap_cons_none hnoSlot,
          List.filterMap_cons_some hslot, hshown]

/-- The slots that a text shows, line by line. -/
def slotsShown (text : String) : List Slot := (text.toList.splitOn '\n').filterMap Slot.ofLine?

/-- So a listing can be cut into lines, and **shows all slots**. -/
theorem lines_listing (slots : List Slot) :
    (∃ lines, Listed symbols 0 slots lines ∧
      (Program.mk slots symbols).listing.toList.splitOn '\n' =
        lines.map String.toList ++ [[]]) ∧
    slotsShown (Program.mk slots symbols).listing = slots := by
  obtain ⟨lines, hlisted, hlines, hjoin, hshown⟩ := exists_listed hwords 0 slots
  have hsplit : (Program.mk slots symbols).listing.toList.splitOn '\n' =
      lines.map String.toList ++ [[]] := by
    rw [Program.listing, hjoin, Text.splitOn_join_lines hlines]
  refine ⟨⟨lines, hlisted, hsplit⟩, ?_⟩
  rw [slotsShown, hsplit, List.filterMap_append, hshown]
  exact List.append_nil slots

end Words

/-! ## 4. Programs -/

/-- Whether a program **can be had**: from a source, or from words and tags that were stored
apart. -/
def Program.Obtainable (p : Program) : Prop :=
  (∃ source, assemble source = .ok p) ∨ ∃ words tags, Program.ofParts words tags = .ok p

/-- The symbols of a source have identifiers as their names. -/
theorem isIdentifier_of_assemble {source : String} {p : Program} (h : assemble source = .ok p) :
    ∀ name ∈ p.symbols.names, isIdentifier name.toList = true := by
  obtain ⟨⟨hdefinable, -⟩, -, is, -, rfl⟩ := assemble_iff_statements.mp h
  intro name hname
  rw [SymbolTable.names, tableOf, List.map_map, List.mem_map] at hname
  obtain ⟨l, hl, rfl⟩ := hname
  have hidentifier := (hdefinable l hl).identifier
  rwa [← Fragment.toList_text, ← isIdentifier_upper, ← Text.toList_upper] at hidentifier

theorem Program.Obtainable.isWord {p : Program} (h : p.Obtainable) :
    ∀ name ∈ p.symbols.names, IsWord name.toList := by
  rcases h with ⟨source, hassemble⟩ | ⟨words, tags, hparts⟩
  · exact fun name hname => isWord_of_isIdentifier (isIdentifier_of_assemble hassemble name hname)
  · unfold Program.ofParts at hparts
    split at hparts
    · cases hparts
    · split at hparts
      · cases hparts
      · cases hparts
        exact nofun

/-- **A listing loses nothing that is executed.**  Let two programs be assembled from any sources,
or composed of any words and tags.  If they have one listing, they have the same words and the same
tags.  The lines of a listing are one for each slot, in the order of addresses, and in front of it
one with a label if some symbol has its address, which then is the first symbol that was defined for
it; behind the last line there is nothing; and what is shown on these lines are the slots. -/
theorem listing_tells_slots {p q : Program} (hp : p.Obtainable) (hq : q.Obtainable) :
    (p.listing = q.listing → p.words = q.words ∧ p.tags = q.tags) ∧
      (∃ lines, Listed p.symbols 0 p.slots lines ∧
        p.listing.toList.splitOn '\n' = lines.map String.toList ++ [[]]) ∧
      slotsShown p.listing = p.slots := by
  obtain ⟨hlines, hshown⟩ := lines_listing hp.isWord p.slots
  refine ⟨fun hsame => ?_, hlines, hshown⟩
  have hslots : p.slots = q.slots := by
    rw [← hshown, ← (lines_listing hq.isWord q.slots).2]
    exact congrArg slotsShown hsame
  rw [Program.words, Program.tags, hslots]
  exact ⟨rfl, rfl⟩

/-- A program that loops, with two names for its only address. -/
def twiceNamed : Program := ⟨[⟨0xC000, .branch⟩], ⟨[("LOOP", 0), ("AGAIN", 0)]⟩⟩

/-- The same with one name. -/
def onceNamed : Program := ⟨[⟨0xC000, .branch⟩], ⟨[("LOOP", 0)]⟩⟩

/-- A program with a word that its tag does not fit. -/
def mistagged : Program := ⟨[⟨0xC000, .halt⟩, ⟨0xF000, .halt⟩], .empty⟩

/-- The second name is not seen in the listing, and the word is seen although it is no
instruction. -/
theorem listing_tells_slots_twiceNamed :
    (assemble "loop:\nagain: b loop" = .ok twiceNamed ∧ assemble "loop: b 0" = .ok onceNamed ∧
      twiceNamed.listing = onceNamed.listing ∧
      twiceNamed.words = onceNamed.words ∧ twiceNamed.tags = onceNamed.tags ∧
      slotsShown "LOOP:\n  0x000  C000  BRANCH  B 0x000\n" = twiceNamed.slots) ∧
    Program.ofParts [0xC000, 0xF000] [.halt, .halt] = .ok mistagged ∧
      slotsShown "  0x000  C000  HLT     ???\n  0x001  F000  HLT     HLT\n" = mistagged.slots := by
  have htwice : assemble "loop:\nagain: b loop" = .ok twiceNamed := by decide +kernel
  have honce : assemble "loop: b 0" = .ok onceNamed := by decide +kernel
  have hparts : Program.ofParts [0xC000, 0xF000] [.halt, .halt] = .ok mistagged := rfl
  have hlisting : twiceNamed.listing = "LOOP:\n  0x000  C000  BRANCH  B 0x000\n" := by
    decide +kernel
  have hmistagged : mistagged.listing =
      "  0x000  C000  HLT     ???\n  0x001  F000  HLT     HLT\n" := by decide +kernel
  have hsame : twiceNamed.listing = onceNamed.listing := by decide +kernel
  obtain ⟨hequal, -, hshown⟩ := listing_tells_slots (.inl ⟨_, htwice⟩) (.inl ⟨_, honce⟩)
  obtain ⟨-, -, hshown'⟩ := listing_tells_slots (.inr ⟨_, _, hparts⟩) (.inl ⟨_, honce⟩)
  rw [hlisting] at hshown
  rw [hmistagged] at hshown'
  exact ⟨⟨htwice, honce, hsame, (hequal hsame).1, (hequal hsame).2, hshown⟩, hparts, hshown'⟩

end PredicatedCpu

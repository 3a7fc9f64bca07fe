/-
# Where commands come from

A debugger is told what to do in one text, or line by line.  The one is cut at semicolons and line
feeds, trimmed, and rid of what is empty before anything is executed; the other is read one line
after the other, with a prompt before each and the blank ones passed over as they come.  In between
stand commands that only show something, and lines that are no commands at all, and each of these is
answered at length.

None of it matters to the machine or to its output.  A line does what its command does, a command is
told by the words of its line, and what is said on the way is said beside the output.  So a session
is told by the commands that do something, in order, up to the one that quits.

* `effect?`: the command of a line, if it does something; `effect?_eq_none_iff`: the lines without;
* `perform`: commands alone, without a source; `Alike.rel_obey`: a session performs the effects of
  its lines;
* `Holds`: a text that holds others, one after the other; `effects_scriptCommands`,
  `effects_inputLines`: what is read from it;
* `Thinned`: lines without some that do nothing; `Thinned.effects`: their effects;
* `sources_unseen`: all of this.
-/
import PredicatedCpu.Proofs.Session.Appearance
import PredicatedCpu.Proofs.Text.Words

namespace PredicatedCpu
namespace Session

/-! ## 1. Lines that do something -/

/-- The **effect** of a line: its command, if it has one that does not only show something. -/
def effect? (line : String) : Option Command :=
  match Command.parse line with
  | .ok command => if command.shows then none else some command
  | .error _ => none

/-- The effects of lines, in order. -/
def effects (lines : List String) : List Command := lines.filterMap effect?

/-- Whether a line **does nothing**: it is blank, or no command, or only shows something. -/
def Idle (line : String) : Prop :=
  isBlankLine line = true ∨ (∃ error, Command.parse line = .error error) ∨
    ∃ command, Command.parse line = .ok command ∧ command.shows = true

/-- Nothing but the words of a line is read. -/
theorem effect?_congr {line line' : String}
    (h : Text.words line.toList = Text.words line'.toList) : effect? line = effect? line' := by
  rw [effect?, effect?, Command.parse, Command.parse, h]

theorem words_of_isBlankLine {line : String} (h : isBlankLine line = true) :
    Text.words line.toList = [] :=
  Text.words_of_blank (List.all_eq_true.mp h)

/-- A blank line is no command. -/
theorem effect?_of_isBlankLine {line : String} (h : isBlankLine line = true) :
    effect? line = none := by
  rw [effect?, Command.parse, words_of_isBlankLine h]
  rfl

/-- **The lines that do nothing** are those without an effect. -/
theorem effect?_eq_none_iff {line : String} : effect? line = none ↔ Idle line := by
  constructor
  · intro h
    rw [effect?] at h
    cases hparsed : Command.parse line with
    | error error => exact .inr (.inl ⟨error, hparsed⟩)
    | ok command =>
      refine .inr (.inr ⟨command, hparsed, ?_⟩)
      rw [hparsed] at h
      dsimp only at h
      split at h
      · assumption
      · cases h
  · rintro (hblank | ⟨error, hparsed⟩ | ⟨command, hparsed, hshows⟩)
    · exact effect?_of_isBlankLine hblank
    · rw [effect?, hparsed]
    · rw [effect?, hparsed]
      exact if_pos hshows

/-- A line with an effect is a command. -/
theorem parse_of_effect? {line : String} {command : Command} (h : effect? line = some command) :
    Command.parse line = .ok command := by
  rw [effect?] at h
  split at h
  · rename_i hparsed
    split at h
    · cases h
    · rwa [Option.some.inj h] at hparsed
  · cases h

/-! ## 2. What a session does with its lines -/

/-- Executes commands until one is to quit. -/
def perform (limit : Nat) : List Command → Session → Option Session
  | [], s => some s
  | command :: rest, s =>
    if command = .quit then some s else (s.execute limit command).bind (perform limit rest)

variable {s t : Session} {line : String}

/-- **A line without an effect** is passed over. -/
theorem obey_of_idle (h : effect? line = none) (limit : Nat) (source : CommandSource)
    (rest : List String) (s : Session) :
    ∃ t, s.Aside t ∧ s.obey limit source (line :: rest) = t.obey limit source rest := by
  have hread := (Aside.awaitCommand source s).trans (.commandRead source _)
  rw [obey_cons]
  dsimp only
  by_cases hblank : isBlankLine line = true
  · rw [if_pos hblank]
    exact ⟨_, hread, rfl⟩
  · rw [if_neg hblank]
    rcases effect?_eq_none_iff.mp h with hblank' | ⟨error, hparsed⟩ | ⟨command, hparsed, hshows⟩
    · exact absurd hblank' hblank
    · rw [hparsed]
      exact ⟨_, hread.trans (.complain _ _), rfl⟩
    · have hquit : command ≠ .quit := by
        rintro rfl
        cases hshows
      obtain ⟨shown, haside, hshown⟩ := execute_of_shows hshows
        ((s.awaitCommand source).commandRead source)
      rw [hparsed]
      dsimp only
      rw [if_neg hquit, hshown]
      exact ⟨shown, hread.trans haside, rfl⟩

/-- **A line with an effect** is executed. -/
theorem obey_of_effect {command : Command} (h : effect? line = some command) (limit : Nat)
    (source : CommandSource) (rest : List String) (s : Session) :
    ∃ t, s.Aside t ∧ s.obey limit source (line :: rest) =
      if command = .quit then some t
      else (t.execute limit command).bind (obey limit source rest) := by
  have hfull : ¬ isBlankLine line = true := by
    intro hblank
    rw [effect?_of_isBlankLine hblank] at h
    cases h
  refine ⟨_, (Aside.awaitCommand source s).trans (.commandRead source _), ?_⟩
  rw [obey_cons]
  dsimp only
  rw [if_neg hfull, parse_of_effect? h]

/-- A command is executed alike, or by neither of the two. -/
theorem Alike.rel_execute (h : s.Alike t) (limit : Nat) (command : Command) :
    Option.Rel Alike (s.execute limit command) (t.execute limit command) := by
  have hfollows {s t : Session} (h : s.Alike t) :
      Follows Alike (s.execute · command) (t.execute · command) :=
    lockstep_alike.execute (fun _ _ => trivial) h
  exact (hfollows h).rel (hfollows h.symm) limit

/-- **A session does what the effects of its lines do.**  The induction is on the lines; one of them
is passed over, or both execute the same command. -/
theorem Alike.rel_obey (h : s.Alike t) (limit : Nat) (source : CommandSource)
    (lines : List String) :
    Option.Rel Alike (s.obey limit source lines) (t.perform limit (effects lines)) := by
  induction lines generalizing s t with
  | nil => exact .some (h.aside (.awaitCommand source s) (.refl t))
  | cons line rest ih =>
    cases heffect : effect? line with
    | none =>
      obtain ⟨read, hread, hobey⟩ := obey_of_idle heffect limit source rest s
      rw [hobey, effects, List.filterMap_cons_none heffect]
      exact ih (h.aside hread (.refl t))
    | some command =>
      obtain ⟨read, hread, hobey⟩ := obey_of_effect heffect limit source rest s
      have hbegun : read.Alike t := h.aside hread (.refl t)
      rw [hobey, effects, List.filterMap_cons_some heffect, perform]
      by_cases hquit : command = .quit
      · rw [if_pos hquit, if_pos hquit]
        exact .some hbegun
      · rw [if_neg hquit, if_neg hquit]
        have hexecuted := hbegun.rel_execute limit command
        generalize read.execute limit command = a at hexecuted
        generalize t.execute limit command = b at hexecuted
        cases hexecuted with
        | none => exact .none
        | some halike => exact ih halike

/-- So lines with the same effects are obeyed alike. -/
theorem rel_obey_of_effects {lines lines' : List String} (h : effects lines = effects lines')
    (limit : Nat) (source source' : CommandSource) (s : Session) :
    Option.Rel Alike (s.obey limit source lines) (s.obey limit source' lines') := by
  have hfirst := (Alike.refl s).rel_obey limit source lines
  have hsecond := (Alike.refl s).rel_obey limit source' lines'
  rw [← h] at hsecond
  generalize s.obey limit source lines = a at hfirst ⊢
  generalize s.obey limit source' lines' = b at hsecond ⊢
  generalize s.perform limit (effects lines) = c at hfirst hsecond
  cases hfirst with
  | none =>
    cases hsecond with
    | none => exact .none
  | some halike =>
    cases hsecond with
    | some halike' => exact .some (halike.trans halike'.symm)

/-! ## 3. Texts that hold commands -/

/-- Whether a text **holds** others, one after the other: behind each of them there is a separator,
which may be left out behind the last. -/
inductive Holds (separates : Char → Bool) : List Char → List String → Prop
  | nil : Holds separates [] []
  | last (text : String) : Holds separates text.toList [text]
  | cons (text : String) {separator : Char} (separated : separates separator = true)
      {rest : List Char} {texts : List String} (others : Holds separates rest texts) :
      Holds separates (text.toList ++ separator :: rest) (text :: texts)

/-- Any texts can be put into one. -/
theorem holds_flatMap {separates : Char → Bool} {separator : Char}
    (separated : separates separator = true) (texts : List String) :
    Holds separates (texts.flatMap fun text => text.toList ++ [separator]) texts := by
  induction texts with
  | nil => exact .nil
  | cons text rest ih =>
    rw [List.flatMap_cons, List.append_assoc, List.singleton_append]
    exact .cons text separated ih

/-- What stands between the commands of a script. -/
def separatesCommands (c : Char) : Bool := c == ';' || c == '\n'

/-- What stands between the lines of the standard input. -/
def separatesLines (c : Char) : Bool := c == '\n'

/-- **Cutting a text** at the separators finds what it holds, and maybe nothing behind the last. -/
theorem Holds.splitOnP {separates : Char → Bool} {cs : List Char} {texts : List String}
    (h : Holds separates cs texts)
    (hfree : ∀ text ∈ texts, ∀ c ∈ text.toList, separates c = false) :
    cs.splitOnP separates = texts.map String.toList ∨
      cs.splitOnP separates = texts.map String.toList ++ [[]] := by
  induction h with
  | nil => exact .inr rfl
  | last text =>
    rw [List.forall_mem_singleton] at hfree
    exact .inl (List.splitOnP_eq_singleton hfree)
  | @cons text separator separated rest texts others ih =>
    rw [List.forall_mem_cons] at hfree
    rw [List.splitOnP_append_cons _ _ separated, List.splitOnP_eq_singleton hfree.1]
    refine (ih hfree.2).imp (fun hrest => ?_) (fun hrest => ?_)
    · rw [hrest]
      rfl
    · rw [hrest]
      rfl

/-- The effects of the pieces of a text. -/
def pieceEffects (pieces : List (List Char)) : List Command :=
  pieces.filterMap fun piece => effect? (String.ofList piece)

theorem effects_map_ofList (pieces : List (List Char)) :
    effects (pieces.map String.ofList) = pieceEffects pieces :=
  List.filterMap_map

/-- Nothing is done by an empty piece at the end. -/
theorem pieceEffects_append_nil (pieces : List (List Char)) :
    pieceEffects (pieces ++ [[]]) = pieceEffects pieces := by
  rw [pieceEffects, List.filterMap_append]
  exact List.append_nil _

/-- Pieces have the effects of what the text holds. -/
theorem Holds.pieceEffects {separates : Char → Bool} {cs : List Char} {texts : List String}
    (h : Holds separates cs texts)
    (hfree : ∀ text ∈ texts, ∀ c ∈ text.toList, separates c = false) :
    pieceEffects (cs.splitOnP separates) = effects texts := by
  have htexts : Session.pieceEffects (texts.map String.toList) = effects texts := by
    rw [Session.pieceEffects, List.filterMap_map, effects]
    refine congrArg (List.filterMap · texts) (funext fun text => ?_)
    rw [Function.comp, String.ofList_toList]
  rcases h.splitOnP hfree with hpieces | hpieces
  · rw [hpieces, htexts]
  · rw [hpieces, pieceEffects_append_nil, htexts]

/-- Pieces may be **trimmed** in any way that leaves the words. -/
theorem pieceEffects_map {f : List Char → List Char} (h : ∀ cs, Text.words (f cs) = Text.words cs)
    (pieces : List (List Char)) : pieceEffects (pieces.map f) = pieceEffects pieces := by
  rw [pieceEffects, List.filterMap_map, pieceEffects]
  refine congrArg (List.filterMap · pieces) (funext fun piece => effect?_congr ?_)
  rw [String.toList_ofList, String.toList_ofList, h]

/-- Empty pieces may be **left out**. -/
theorem pieceEffects_filter (pieces : List (List Char)) :
    pieceEffects (pieces.filter fun piece => !piece.isEmpty) = pieceEffects pieces := by
  rw [pieceEffects, List.filterMap_filter, pieceEffects]
  refine congrArg (List.filterMap · pieces) (funext fun piece => ?_)
  cases piece with
  | nil => rfl
  | cons c cs => exact if_pos rfl

/-- **What a script does** is what the commands do that it holds. -/
theorem effects_scriptCommands {text : String} {texts : List String}
    (h : Holds separatesCommands text.toList texts)
    (hfree : ∀ text ∈ texts, ∀ c ∈ text.toList, separatesCommands c = false) :
    effects (scriptCommands text) = effects texts := by
  rw [scriptCommands, effects_map_ofList, pieceEffects_filter, pieceEffects_map Text.words_trim]
  exact h.pieceEffects hfree

/-- **What the standard input does** is what its lines do. -/
theorem effects_inputLines {stdin : String} {texts : List String}
    (h : Holds separatesLines stdin.toList texts)
    (hfree : ∀ text ∈ texts, ∀ c ∈ text.toList, separatesLines c = false) :
    effects (inputLines stdin) = effects texts := by
  have hlines (pieces : List (List Char)) :
      effects (pieces.map fun line => String.ofList (Text.trimEnd line)) = pieceEffects pieces := by
    rw [← pieceEffects_map Text.words_trimEnd, ← effects_map_ofList, List.map_map]
    rfl
  have hpieces : pieceEffects (stdin.toList.splitOn '\n') = effects texts := by
    rw [List.splitOn_eq_splitOnP]
    exact h.pieceEffects hfree
  unfold inputLines
  rw [hlines]
  split
  · rename_i hlast
    obtain ⟨front, hfront⟩ := List.getLast?_eq_some_iff.mp hlast
    rw [← hpieces, hfront, List.dropLast_concat, pieceEffects_append_nil]
  · exact hpieces

/-! ## 4. Lines that are left out -/

/-- Whether lines are others **without some that do nothing**. -/
inductive Thinned : List String → List String → Prop
  | nil : Thinned [] []
  | keep (text : String) {texts kept : List String} (others : Thinned texts kept) :
      Thinned (text :: texts) (text :: kept)
  | leave {text : String} (idle : Idle text) {texts kept : List String}
      (others : Thinned texts kept) : Thinned (text :: texts) kept

theorem Thinned.refl (texts : List String) : Thinned texts texts := by
  induction texts with
  | nil => exact .nil
  | cons text rest ih => exact .keep text ih

/-- **The effects are the same.** -/
theorem Thinned.effects {texts kept : List String} (h : Thinned texts kept) :
    effects kept = effects texts := by
  induction h with
  | nil => rfl
  | keep text _ ih =>
    rw [Session.effects, Session.effects, List.filterMap_cons, List.filterMap_cons,
      ← Session.effects, ← Session.effects, ih]
  | leave idle _ ih =>
    have heffect := effect?_eq_none_iff.mpr idle
    rw [ih, Session.effects, Session.effects, List.filterMap_cons_none heffect]

theorem Thinned.mem {texts kept : List String} (h : Thinned texts kept) :
    ∀ text ∈ kept, text ∈ texts := by
  induction h with
  | nil => exact fun _ hmem => hmem
  | keep text _ ih =>
    rintro other (_ | ⟨_, hother⟩)
    · exact List.mem_cons_self
    · exact List.mem_cons_of_mem _ (ih other hother)
  | leave idle _ ih => exact fun other hother => List.mem_cons_of_mem _ (ih other hother)

/-! ## 5. Sources -/

/-- Whether a debugger **is given** commands: as a script, or line by line.  A script leaves the
standard input alone, whatever is there. -/
inductive Given (texts : List String) : CommandSource → String → Prop
  | script {text : String} (holds : Holds separatesCommands text.toList texts) (stdin : String) :
      Given texts (.script text) stdin
  | terminal {stdin : String} (holds : Holds separatesLines stdin.toList texts) :
      Given texts .terminal stdin

/-- Whether two sessions **end the same**, as far as the machine and its output go: if the one ends,
so does the other with the same limit, and however high the limits are, they end alike. -/
structure SameEnd (first second : Nat → Option Session) : Prop where
  ends : ∀ limit, (first limit).isSome = (second limit).isSome
  alike : ∀ limit limit' t t', first limit = some t → second limit' = some t' → t.Alike t'

/-- What is given, is done. -/
theorem Given.effects {texts : List String} {source : CommandSource} {stdin : String}
    (h : Given texts source stdin)
    (hfree : ∀ text ∈ texts, ';' ∉ text.toList ∧ '\n' ∉ text.toList) :
    effects (source.lines stdin) = effects texts := by
  cases h with
  | script holds stdin =>
    refine effects_scriptCommands holds fun text hmem c hc => ?_
    obtain ⟨hsemicolon, hfeed⟩ := hfree text hmem
    simp only [separatesCommands, Bool.or_eq_false_iff, beq_eq_false_iff_ne]
    exact ⟨fun h => hsemicolon (h ▸ hc), fun h => hfeed (h ▸ hc)⟩
  | terminal holds =>
    refine effects_inputLines holds fun text hmem c hc => ?_
    exact beq_eq_false_iff_ne.mpr fun h => (hfree text hmem).2 (h ▸ hc)

/-- **The effects are all that matters.** -/
theorem sameEnd_of_effects {lines lines' : List String} (h : effects lines = effects lines')
    (source source' : CommandSource) (s : Session) :
    SameEnd (fun limit => s.obey limit source lines) fun limit => s.obey limit source' lines' := by
  constructor
  · intro limit
    have hrel := rel_obey_of_effects h limit source source' s
    generalize s.obey limit source lines = a at hrel ⊢
    generalize s.obey limit source' lines' = b at hrel ⊢
    cases hrel <;> rfl
  · intro limit limit' t t' ht ht'
    have hrel := rel_obey_of_effects h limit source source' s
    rw [ht] at hrel
    cases hsame : s.obey limit source' lines' with
    | none =>
      rw [hsame] at hrel
      cases hrel
    | some u =>
      rw [hsame] at hrel
      cases hrel with
      | some halike =>
        obtain ⟨-, hend⟩ :=
          lockstep_alike.obey_same_end (fun _ _ => trivial) (Alike.refl s) hsame
        exact halike.trans (hend limit' t' ht')

/-- **Sources are not seen.**  Take any program, and commands without a semicolon or a line feed in
them.  A session that is given them as a script and one that reads them line by line end the same,
with the same machine, its log of output included, the same status, status line and output, or
neither ends.  And it is the same again if some of them are left out that only show something, are
blank or are no commands, whichever way the others are given. -/
theorem sources_unseen (p : Program) (options : Options) {texts : List String}
    (hfree : ∀ text ∈ texts, ';' ∉ text.toList ∧ '\n' ∉ text.toList) :
    (∀ script stdin unread : String, Holds separatesCommands script.toList texts →
      Holds separatesLines stdin.toList texts →
        SameEnd (fun limit => (start p options).runDebugged limit (.script script) unread)
          fun limit => (start p options).runDebugged limit .terminal stdin) ∧
    ∀ kept, Thinned texts kept → ∀ source stdin source' stdin',
      Given texts source stdin → Given kept source' stdin' →
        SameEnd (fun limit => (start p options).runDebugged limit source stdin)
          fun limit => (start p options).runDebugged limit source' stdin' := by
  have hsame (kept : List String) (hkept : Thinned texts kept) {source source' : CommandSource}
      {stdin stdin' : String} (h : Given texts source stdin) (h' : Given kept source' stdin') :
      SameEnd (fun limit => (start p options).runDebugged limit source stdin)
        fun limit => (start p options).runDebugged limit source' stdin' := by
    refine sameEnd_of_effects ?_ source source' (start p options)
    rw [h.effects hfree, h'.effects fun text hmem => hfree text (hkept.mem text hmem),
      hkept.effects]
  refine ⟨fun script stdin unread hscript hstdin => ?_,
    fun kept hkept _ _ _ _ h h' => hsame kept hkept h h'⟩
  exact hsame texts (.refl texts) (.script hscript unread) (.terminal hstdin)

/-- A program that sends one more than it is given. -/
def answering : Program :=
  ⟨[⟨0x01F0, .memory⟩, ⟨0x2001, .immediateAlu⟩, ⟨0x11F1, .memory⟩, ⟨0xF000, .halt⟩], .empty⟩

/-- A session on it, with everything said that can be. -/
def talking : Session := start answering ⟨true, false, true, 5⟩

/-- What somebody might type. -/
def typed : List String := ["run", "regs", "bogus", "", " MEM 0 2", "input 6", "c", "quit", "step"]

/-- The same without what does nothing. -/
def meant : List String := ["run", "input 6", "c", "quit", "step"]

/-- All of it in one text, all of it line by line, and only what is meant. -/
theorem sources_unseen_typed :
    (∀ text ∈ typed, ';' ∉ text.toList ∧ '\n' ∉ text.toList) ∧ Thinned typed meant ∧
      ∃ t u v,
        talking.runDebugged 9 (.script "run;regs;bogus;; MEM 0 2;input 6;c;quit;step;") "2" =
            some t ∧
          talking.runDebugged 9 .terminal
            "run\nregs\nbogus\n\n MEM 0 2\ninput 6\nc\nquit\nstep\n" = some u ∧
          talking.runDebugged 9 .terminal "run\ninput 6\nc\nquit\nstep\n" = some v ∧
          t.Alike u ∧ t.Alike v ∧ v.console.stdout = "OUT 0x1F1: 7\n" := by
  have hfree : ∀ text ∈ typed, ';' ∉ text.toList ∧ '\n' ∉ text.toList := by decide
  have hthinned : Thinned typed meant := by
    refine .keep "run" (.leave ?_ (.leave ?_ (.leave ?_ (.leave ?_ (.refl _)))))
    · exact effect?_eq_none_iff.mp (show effect? "regs" = none by decide)
    · exact effect?_eq_none_iff.mp (show effect? "bogus" = none by decide)
    · exact .inl (by decide)
    · exact effect?_eq_none_iff.mp (show effect? " MEM 0 2" = none by decide)
  have hscript : Holds separatesCommands
      "run;regs;bogus;; MEM 0 2;input 6;c;quit;step;".toList typed :=
    holds_flatMap (show separatesCommands ';' = true from rfl) typed
  have hlines : Holds separatesLines
      "run\nregs\nbogus\n\n MEM 0 2\ninput 6\nc\nquit\nstep\n".toList typed :=
    holds_flatMap (show separatesLines '\n' = true from rfl) typed
  have hmeant : Holds separatesLines "run\ninput 6\nc\nquit\nstep\n".toList meant :=
    holds_flatMap (show separatesLines '\n' = true from rfl) meant
  have hended : (talking.runDebugged 9 .terminal "run\ninput 6\nc\nquit\nstep\n").map
      (·.console.stdout) = some "OUT 0x1F1: 7\n" := by decide +kernel
  obtain ⟨v, hv, hwritten⟩ := Option.map_eq_some_iff.mp hended
  obtain ⟨hsources, hkept⟩ := sources_unseen answering ⟨true, false, true, 5⟩ hfree
  have hboth := hsources _ _ "2" hscript hlines
  have hthin := hkept meant hthinned _ _ _ _ (.script hscript "2") (.terminal hmeant)
  obtain ⟨t, ht⟩ := Option.isSome_iff_exists.mp ((hthin.ends 9).trans
    (Option.isSome_iff_exists.mpr ⟨v, hv⟩))
  obtain ⟨u, hu⟩ := Option.isSome_iff_exists.mp ((hboth.ends 9).symm.trans
    (Option.isSome_iff_exists.mpr ⟨t, ht⟩))
  exact ⟨hfree, hthinned, t, u, v, ht, hu, hv, hboth.alike 9 9 t u ht hu,
    hthin.alike 9 9 t v ht hv, hwritten⟩

end Session
end PredicatedCpu

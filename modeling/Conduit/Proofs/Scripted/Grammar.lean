import Conduit.Engine.Scripted
import Conduit.Proofs.Decimal.Digits
import Conduit.Proofs.Engine.Dialogue
import Conduit.Proofs.Text.Lines
import Mathlib.Data.List.DropRight
import Mathlib.Data.List.TakeWhile

/-!
The grammar of the line-oriented engine: which lines say a statement, which statement it is, and what is
said of a program with a line that says none. The analysis finds exactly this.
-/
namespace Conduit

theorem Text.isBlankText_iff {s : String} : isBlankText s = true ↔ trim s = "" := by
  have hempty : trim s = "" ↔ ∀ c ∈ trimLeft s.toList, isBlank c = true := by
    rw [← List.rdropWhile_eq_nil_iff, ← String.toList_inj, trim, String.toList_ofList]
    rfl
  rw [hempty, isBlankText, List.all_eq_true]
  refine ⟨fun h c hc => h c ((List.dropWhile_sublist _).subset hc), fun h c hc => ?_⟩
  rw [← List.takeWhile_append_dropWhile (p := isBlank) (l := s.toList), List.mem_append] at hc
  exact hc.elim List.mem_takeWhile_imp (h c)

namespace Scripted

def commands : List String :=
  ["print", "println", "newline", "read", "pause", "error", "sleep", "thread-name", "panic"]

/-- A line is a command and its argument, with the first space of the line between them if it has one. -/
inductive Apart : String → String → String → Prop where
  | spaced {command : String} (arg : String) (h : ' ' ∉ command.toList) :
      Apart (command ++ " " ++ arg) command arg
  | bare {command : String} (h : ' ' ∉ command.toList) : Apart command command ""

inductive Means (line : UInt32) : String → String → Statement → Prop where
  | print (arg : String) : Means line "print" arg (.print arg)
  | println (arg : String) : Means line "println" arg (.println arg)
  | newline (arg : String) : Means line "newline" arg .newline
  | read (arg : String) : Means line "read" arg (.read arg)
  | pauseAt {arg : String} {at_ : Nat} (h : Decimal.natBelow? UInt32.size (Text.trim arg) = some at_) :
      Means line "pause" arg (.pause (.ofNat at_))
  | pauseHere {arg : String} (h : Decimal.natBelow? UInt32.size (Text.trim arg) = none) :
      Means line "pause" arg (.pause line)
  | error (arg : String) : Means line "error" arg (.error arg)
  | sleep (arg : String) :
      Means line "sleep" arg (.sleep ((Decimal.natBelow? UInt64.size (Text.trim arg)).getD 0))
  | threadName (arg : String) : Means line "thread-name" arg .threadName
  | panic (arg : String) : Means line "panic" arg .panic

def InGrammar (raw : String) : Prop :=
  Text.trim raw = "" ∨ ∃ command arg, Apart raw command arg ∧ command ∈ commands

/-- The step of a program says what the line of its number says; it has 32 bits for the number. -/
def Says (numbered : String × Nat) (step : Step) : Prop :=
  step.line = .ofNat numbered.2 ∧
    ∃ command arg, Apart numbered.1 command arg ∧ Means step.line command arg step.statement

def spoken (line : Nat) (ls : List String) : List (String × Nat) :=
  (ls.zipIdx line).filter fun numbered => Text.trim numbered.1 ≠ ""

def objection (line : UInt32) (command arg : String) : String :=
  if command = "syntax" then "line " ++ Decimal.natText line.toNat ++ ": " ++ arg
  else "line " ++ Decimal.natText line.toNat ++ ": unknown statement '" ++ command ++ "'"

theorem Apart.splitCommand_eq {raw command arg : String} (h : Apart raw command arg) :
    splitCommand raw = (command, arg) := by
  cases h with
  | spaced arg h =>
    have hall : ∀ c ∈ command.toList, decide (c ≠ ' ') = true :=
      fun c hc => decide_eq_true fun heq => h (heq ▸ hc)
    have hraw : (command ++ " " ++ arg).toList = command.toList ++ ' ' :: arg.toList := by simp
    simp only [splitCommand, hraw, List.takeWhile_append_of_pos hall,
      List.dropWhile_append_of_pos hall]
    simp
  | bare h =>
    have hall : ∀ c ∈ raw.toList, decide (c ≠ ' ') = true :=
      fun c hc => decide_eq_true fun heq => h (heq ▸ hc)
    simp only [splitCommand, List.takeWhile_eq_self_iff.mpr hall, List.dropWhile_eq_nil_iff.mpr hall]
    simp

theorem exists_apart (raw : String) : ∃ command arg, Apart raw command arg := by
  by_cases hspace : ' ' ∈ raw.toList
  · obtain ⟨command, arg, hraw, hcommand⟩ := List.eq_append_cons_of_mem hspace
    have heq : raw = String.ofList command ++ " " ++ String.ofList arg := by
      rw [← String.toList_inj, hraw]
      simp
    rw [heq]
    exact ⟨_, _, .spaced _ (by simpa using hcommand)⟩
  · exact ⟨raw, "", .bare hspace⟩

variable {line : UInt32} {raw command arg : String} {s : Statement}

theorem exists_means (line : UInt32) (h : command ∈ commands) (arg : String) :
    ∃ s, Means line command arg s := by
  simp only [commands, List.mem_cons, List.not_mem_nil, or_false] at h
  obtain rfl | rfl | rfl | rfl | rfl | rfl | rfl | rfl | rfl := h
  · exact ⟨_, .print arg⟩
  · exact ⟨_, .println arg⟩
  · exact ⟨_, .newline arg⟩
  · exact ⟨_, .read arg⟩
  · cases h : Decimal.natBelow? UInt32.size (Text.trim arg) with
    | some at_ => exact ⟨_, .pauseAt h⟩
    | none => exact ⟨_, .pauseHere h⟩
  · exact ⟨_, .error arg⟩
  · exact ⟨_, .sleep arg⟩
  · exact ⟨_, .threadName arg⟩
  · exact ⟨_, .panic arg⟩

theorem statementOf_of_means (ha : Apart raw command arg) (h : Means line command arg s) :
    statementOf line raw = .ok s := by
  have hsplit := ha.splitCommand_eq
  cases h <;> simp_all [statementOf]

theorem statementOf_of_not_mem (ha : Apart raw command arg) (h : command ∉ commands) :
    statementOf line raw = .error (objection line command arg) := by
  simp only [commands, List.mem_cons, List.not_mem_nil, or_false, not_or] at h
  simp only [statementOf, objection, ha.splitCommand_eq]
  split <;> simp_all

theorem isBlankText_eq_false (h : Text.trim raw ≠ "") : Text.isBlankText raw = false :=
  Bool.eq_false_iff.mpr fun hb => h (Text.isBlankText_iff.mp hb)

theorem spoken_cons (line : Nat) (raw : String) (ls : List String) :
    spoken line (raw :: ls) =
      if Text.trim raw = "" then spoken (line + 1) ls
      else (raw, line) :: spoken (line + 1) ls := by
  by_cases hblank : Text.trim raw = "" <;> simp [spoken, hblank]

/-- Lines that may all stand in a program are one; its steps say what they say. -/
theorem programFrom_of_inGrammar {ls : List String} (line : Nat) (h : ∀ raw ∈ ls, InGrammar raw) :
    ∃ program, programFrom line ls = .ok program ∧ List.Forall₂ Says (spoken line ls) program := by
  induction ls generalizing line with
  | nil => exact ⟨[], rfl, .nil⟩
  | cons raw ls ih =>
    obtain ⟨hraw, hls⟩ := List.forall_mem_cons.mp h
    obtain ⟨program, hprogram, hsays⟩ := ih (line + 1) hls
    rw [spoken_cons]
    by_cases hblank : Text.trim raw = ""
    · refine ⟨program, ?_, ?_⟩
      · rw [programFrom, if_pos (Text.isBlankText_iff.mpr hblank), hprogram]
      · rw [if_pos hblank]
        exact hsays
    · obtain ⟨command, arg, ha, hmem⟩ := hraw.resolve_left hblank
      obtain ⟨s, hs⟩ := exists_means (.ofNat line) hmem arg
      refine ⟨⟨.ofNat line, s⟩ :: program, ?_, ?_⟩
      · simp only [programFrom, isBlankText_eq_false hblank, statementOf_of_means ha hs, hprogram]
        rfl
      · rw [if_neg hblank]
        exact .cons ⟨rfl, command, arg, ha, hs⟩ hsays

/-- The line `raw`, a command and its argument, is the first that may not stand in a program. -/
structure First (sound : List String) (raw command arg : String) : Prop where
  sound : ∀ l ∈ sound, InGrammar l
  offends : ¬ InGrammar raw
  apart : Apart raw command arg

theorem First.not_blank {sound : List String} (h : First sound raw command arg) :
    Text.trim raw ≠ "" :=
  fun hblank => h.offends (.inl hblank)

theorem First.not_mem_commands {sound : List String} (h : First sound raw command arg) :
    command ∉ commands :=
  fun hc => h.offends (.inr ⟨command, arg, h.apart, hc⟩)

theorem exists_first_not_inGrammar {ls : List String} (h : ¬ ∀ raw ∈ ls, InGrammar raw) :
    ∃ sound raw later command arg, ls = sound ++ raw :: later ∧ First sound raw command arg := by
  induction ls with
  | nil => exact absurd (List.forall_mem_nil _) h
  | cons l ls ih =>
    by_cases hl : InGrammar l
    · have hls : ¬ ∀ raw ∈ ls, InGrammar raw := fun hls => h (List.forall_mem_cons.mpr ⟨hl, hls⟩)
      obtain ⟨sound, raw, later, command, arg, rfl, hfirst⟩ := ih hls
      exact ⟨l :: sound, raw, later, command, arg, rfl,
        { hfirst with sound := List.forall_mem_cons.mpr ⟨hl, hfirst.sound⟩ }⟩
    · obtain ⟨command, arg, ha⟩ := exists_apart l
      exact ⟨[], l, ls, command, arg, rfl, List.forall_mem_nil _, hl, ha⟩

/-- The first line that may not stand in a program is objected to, whatever follows it. -/
theorem programFrom_of_first {sound : List String} (line : Nat) (h : First sound raw command arg)
    (later : List String) :
    programFrom line (sound ++ raw :: later) =
      .error (objection (.ofNat (line + sound.length)) command arg) := by
  induction sound generalizing line with
  | nil =>
    simp only [List.nil_append, programFrom, isBlankText_eq_false h.not_blank,
      statementOf_of_not_mem h.apart h.not_mem_commands]
    rfl
  | cons l sound ih =>
    obtain ⟨hl, hsound⟩ := List.forall_mem_cons.mp h.sound
    have hrest := ih (line + 1) { h with sound := hsound }
    rw [Nat.add_assoc, Nat.add_comm 1] at hrest
    by_cases hblank : Text.trim l = ""
    · rw [List.cons_append, programFrom, if_pos (Text.isBlankText_iff.mpr hblank), hrest]
      rfl
    · obtain ⟨command', arg', ha, hmem⟩ := hl.resolve_left hblank
      obtain ⟨s, hs⟩ := exists_means (.ofNat line) hmem arg'
      simp only [List.cons_append, programFrom, isBlankText_eq_false hblank,
        statementOf_of_means ha hs, hrest]
      rfl

/-! The analysis -/

def accepting (source : String) (program : Program) : Behaviour (Bool × State) :=
  .ask (.tell (.analysisFinished true)) fun _ => .done (true, { source, program })

def refusing (source : String) (m : String) : Behaviour (Bool × State) :=
  .ask (.print .err (.line ("syntax error: " ++ m))) fun _ =>
  .ask (.tell (.analysisFinished false)) fun _ => .done (false, { source })

variable {source : String} {debug : Bool}

theorem analyze_of_ok {program : Program} (h : parse source = .ok program) :
    engine.analyze debug (engine.load source) = accepting source program := by
  simp only [engine, h]
  rfl

theorem analyze_of_error {m : String} (h : parse source = .error m) :
    engine.analyze debug (engine.load source) = refusing source m := by
  simp only [engine, h]
  rfl

theorem analyze_eq_accepting_iff {program : Program} :
    engine.analyze debug (engine.load source) = accepting source program ↔
      parse source = .ok program := by
  refine ⟨fun h => ?_, analyze_of_ok⟩
  cases hp : parse source with
  | error m =>
    rw [analyze_of_error hp] at h
    cases h
  | ok found =>
    rw [analyze_of_ok hp] at h
    have hdone := congrFun (eq_of_heq (Behaviour.ask.inj h).2) ()
    injection hdone with hfound
    obtain rfl : found = program := congrArg (·.2.program) hfound
    rfl

theorem parse_of_inGrammar (h : ∀ raw ∈ Text.lines source, InGrammar raw) :
    ∃ program, parse source = .ok program ∧
      List.Forall₂ Says (spoken 1 (Text.lines source)) program :=
  programFrom_of_inGrammar 1 h

theorem First.parse_eq {sound : List String} (h : First sound raw command arg)
    (hlines : sound ++ [raw] <+: Text.lines source) :
    parse source = .error (objection (.ofNat (sound.length + 1)) command arg) := by
  obtain ⟨later, hlater⟩ := hlines
  rw [parse, ← hlater, List.append_assoc, Nat.add_comm]
  exact programFrom_of_first 1 h later

theorem exists_parse_iff :
    (∃ program, parse source = .ok program) ↔ ∀ raw ∈ Text.lines source, InGrammar raw := by
  refine ⟨fun ⟨program, h⟩ => ?_, fun h => ?_⟩
  · by_contra hnot
    obtain ⟨sound, raw, later, command, arg, hlines, hfirst⟩ := exists_first_not_inGrammar hnot
    rw [hfirst.parse_eq ⟨later, by simp [hlines]⟩] at h
    cases h
  · obtain ⟨program, hp, -⟩ := parse_of_inGrammar h
    exact ⟨program, hp⟩

theorem newline_not_mem_objection (ha : Apart raw command arg) (h : '\n' ∉ raw.toList) :
    '\n' ∉ (objection line command arg).toList := by
  have hnumber : '\n' ∉ (Decimal.natText line.toNat).toList := by
    intro hmem
    rw [Decimal.natText, String.toList_ofList] at hmem
    exact absurd (Decimal.isDigit_of_mem_digits hmem) (by decide)
  have hparts : '\n' ∉ command.toList ∧ '\n' ∉ arg.toList := by
    cases ha with
    | spaced arg _ => simpa [not_or] using h
    | bare _ => exact ⟨h, by simp⟩
  unfold objection
  split <;> simp [hnumber, hparts]

/-- A run of a program that is refused says so in one line and nothing else, unless it was called off
before. -/
theorem dialogue_of_refusing {m : String} {xs : List Exchange} {rest : Behaviour Ending}
    (ha : engine.analyze debug (engine.load source) = refusing source m)
    (h : (engine.drive debug source).Reaches xs rest) (he : rest.hasEnded = true) :
    xs = [Engine.look true] ∨
    xs = [Engine.look false, ⟨.print .err (.line ("syntax error: " ++ m)), ()⟩,
      ⟨.tell (.analysisFinished false), ()⟩] := by
  have hanalyze : ∀ {ys : List Exchange} {b : Behaviour (Bool × State)},
      (engine.analyze debug (engine.load source)).Reaches ys b → b.hasEnded = true →
      ys = [⟨.print .err (.line ("syntax error: " ++ m)), ()⟩,
        ⟨.tell (.analysisFinished false), ()⟩] ∧ b = .done (false, { source }) := by
    intro ys b hr he
    rw [ha] at hr
    obtain ⟨-, ys, rfl, hr⟩ := hr.of_ask he
    obtain ⟨-, ys, rfl, hr⟩ := hr.of_ask he
    cases hr
    exact ⟨rfl, rfl⟩
  obtain ⟨fin, hfin, -⟩ := Engine.finishes_of_reaches h he
  cases hfin with
  | dropped => exact .inl rfl
  | rejected hr => exact .inr (congrArg _ (hanalyze hr rfl).1)
  | brokenAnalysis hr | halted hr | brokenExecution hr | executed _ hr => cases (hanalyze hr rfl).2

/-- The lines of a source end at a line feed or at a carriage return and a line feed. The analysis accepts
the source exactly if each line that is not blank has a command before its first space; the program then
says, in order and by number, what these lines say. Otherwise the first line without a command is objected
to by its number, in one line; so is every other source that begins with the same lines, and a run of it
says nothing else. -/
theorem analysis_decides_grammar (source : String) (debug : Bool) :
    Text.Lined '\n' '\r' source.toList ((Text.lines source).map String.toList) ∧
    ((∃ program, engine.analyze debug (engine.load source) = accepting source program) ↔
      ∀ raw ∈ Text.lines source, InGrammar raw) ∧
    (∀ program, engine.analyze debug (engine.load source) = accepting source program →
      List.Forall₂ Says (spoken 1 (Text.lines source)) program) ∧
    ((¬ ∀ raw ∈ Text.lines source, InGrammar raw) →
      ∃ sound raw later command arg m, Text.lines source = sound ++ raw :: later ∧
        First sound raw command arg ∧ m = objection (.ofNat (sound.length + 1)) command arg ∧
        '\n' ∉ m.toList ∧
        ∀ other, sound ++ [raw] <+: Text.lines other →
          engine.analyze debug (engine.load other) = refusing other m ∧
          ∀ xs rest, (engine.drive debug other).Reaches xs rest → rest.hasEnded = true →
            xs = [Engine.look true] ∨
            xs = [Engine.look false, ⟨.print .err (.line ("syntax error: " ++ m)), ()⟩,
              ⟨.tell (.analysisFinished false), ()⟩]) := by
  refine ⟨Text.lined_lines source, ?_, fun program h => ?_, fun h => ?_⟩
  · simp only [analyze_eq_accepting_iff, exists_parse_iff]
  · rw [analyze_eq_accepting_iff] at h
    obtain ⟨program', hp, hsays⟩ := parse_of_inGrammar (exists_parse_iff.mp ⟨program, h⟩)
    obtain rfl := Except.ok.inj (h.symm.trans hp)
    exact hsays
  · obtain ⟨sound, raw, later, command, arg, hlines, hfirst⟩ := exists_first_not_inGrammar h
    have hraw : '\n' ∉ raw.toList := Text.newline_not_mem_lines (by rw [hlines]; simp)
    refine ⟨sound, raw, later, command, arg, _, hlines, hfirst, rfl,
      newline_not_mem_objection hfirst.apart hraw, fun other hother => ?_⟩
    have hanalyze : engine.analyze debug (engine.load other) = refusing other _ :=
      analyze_of_error (hfirst.parse_eq hother)
    exact ⟨hanalyze, fun xs rest hr he => dialogue_of_refusing hanalyze hr he⟩

/-- Blank lines count, an argument that is no number says the line itself, and a space before the command
leaves none. -/
example : parse "pause 4294967296\r\n\t\npause +7\nprint  a \r" =
      .ok [⟨1, .pause 1⟩, ⟨3, .pause 7⟩, ⟨4, .print " a \r"⟩] ∧
    parse "newline\n\n print a\nsyntax" = .error "line 3: unknown statement ''" := by
  decide +kernel

end Scripted

end Conduit

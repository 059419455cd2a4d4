import Conduit.Engine.Scripted
import Conduit.Proofs.Engine.Station
import Conduit.Proofs.Script.Lifting
import Conduit.Script.Engine

/-!
The two interpreters, of lines and of scripts, keep to the stations of a run whatever program they are
given.
-/
namespace Conduit

inductive Interpreter where
  | lines
  | script
deriving DecidableEq, Repr

namespace Interpreter

def State : Interpreter → Type
  | .lines => Scripted.State
  | .script => Script.State

def engine : (i : Interpreter) → Engine i.State
  | .lines => Scripted.engine
  | .script => Script.engine

end Interpreter

namespace Station

def IsLast (q : Station) : Prop := q = .running ∨ q = .failed ∨ q = .calledOff

def Judges {σ : Type} (ready : σ → Prop) (q : Station) (verdict : Bool × σ) : Prop :=
  if verdict.1 then q = .accepted ∧ ready verdict.2 else q = .rejected

end Station

namespace Engine
variable {σ : Type} {e : Engine σ} {debug : Bool}

theorem keeps_drive (ready : σ → Prop)
    (ha : ∀ source, (e.analyze debug (e.load source)).Keeps (Station.Judges ready) .analysing)
    (hx : ∀ s, ready s → (e.execute debug s).Keeps (fun q _ => ∃ off, q = .left off) .entering)
    (source : String) : (e.drive debug source).Keeps Station.Ends .fresh := by
  refine ⟨⟨_, _, .begin⟩, ?_⟩
  rintro _ _ (⟨⟩ | ⟨⟩)
  · exact rfl
  refine (ha source).bind ?_
  rintro q ⟨accepted, s⟩ hq
  cases accepted with
  | false =>
    cases hq
    exact rfl
  | true =>
    obtain ⟨rfl, hs⟩ := hq
    refine ⟨⟨_, _, .enter⟩, ?_⟩
    rintro _ _ ⟨⟩
    refine (hx s hs).bind ?_
    rintro _ _ ⟨off, rfl⟩
    refine ⟨⟨_, _, .finish off⟩, ?_⟩
    rintro _ _ ⟨⟩
    cases off <;> exact rfl

/-- An execution is announced before anything of the program is carried out. -/
theorem keeps_opening {α : Type} {ends : Station → α → Prop} {functions : List String}
    {program : Behaviour α} (h : program.Keeps ends .running) :
    (do
      Behaviour.tell .executionStarted
      Behaviour.tell (.stackPushed (globalScope functions))
      program).Keeps ends .entering := by
  refine ⟨⟨_, _, .start⟩, ?_⟩
  rintro _ _ ⟨⟩
  refine ⟨⟨_, _, .open functions⟩, ?_⟩
  rintro _ _ ⟨⟩
  exact h

theorem keeps_closing {q : Station} (h : q.IsLast) (s : σ) :
    (do
      Behaviour.tell .stackPopped
      Behaviour.tell .executionStopped
      return s : Behaviour σ).Keeps (fun q _ => ∃ off, q = .left off) q := by
  have closes : ∀ {off}, q.Move (.tell .stackPopped) () (.leaving off) →
      (∀ q', q.Move (.tell .stackPopped) () q' → q' = .leaving off) →
      (do
        Behaviour.tell .stackPopped
        Behaviour.tell .executionStopped
        return s : Behaviour σ).Keeps (fun q _ => ∃ off, q = .left off) q := by
    intro off hm hu
    refine ⟨⟨_, _, hm⟩, fun reply q' h => ?_⟩
    obtain rfl := hu q' h
    refine ⟨⟨_, _, .stop off⟩, ?_⟩
    rintro _ _ ⟨⟩
    exact ⟨off, rfl⟩
  obtain rfl | rfl | rfl := h
  · exact closes .leave (by rintro _ ⟨⟩; rfl)
  · exact closes .leaveFailed (by rintro _ ⟨⟩; rfl)
  · exact closes .leaveOff (by rintro _ ⟨⟩; rfl)

end Engine

namespace Scripted

theorem keeps_execute (p : Program) :
    (execute p).Keeps (fun q _ => q.IsLast) .running := by
  induction p with
  | nil => exact .inl rfl
  | cons step rest ih =>
    obtain ⟨line, s⟩ := step
    have goOn : (Behaviour.ask .isCancelled fun cancelled : Bool =>
        (if cancelled then pure () else execute rest : Behaviour Unit)).Keeps
          (fun q _ => q.IsLast) .running := .poll ih
    cases s with
    | print t => exact .print goOn
    | println t => exact .print goOn
    | newline => exact .print goOn
    | read lead =>
      exact .read (fun _ => rfl) (fun _ => rfl) (fun _ => .print goOn) (.notice (.inr (.inr rfl)))
    | pause at_ => exact .checkpoint rfl goOn (.inr (.inr rfl))
    | error m => exact .print (.fail (.inr (.inl rfl)))
    | sleep n => exact goOn
    | threadName => exact .name fun _ => .print goOn
    | panic => rfl

theorem keeps_drive (debug : Bool) (source : String) :
    (engine.drive debug source).Keeps Station.Ends .fresh := by
  refine Engine.keeps_drive (fun _ => True) (fun source => ?_) (fun s _ => ?_) source
  · simp only [engine]
    cases parse source with
    | ok program =>
      refine ⟨⟨_, _, .accept⟩, ?_⟩
      rintro _ _ ⟨⟩
      exact ⟨rfl, trivial⟩
    | error m =>
      refine ⟨⟨_, _, .diagnose .err (.line ("syntax error: " ++ m))⟩, ?_⟩
      rintro _ _ ⟨⟩
      refine ⟨⟨_, _, .reject⟩, ?_⟩
      rintro _ _ ⟨⟩
      exact rfl
  · exact Engine.keeps_opening ((keeps_execute s.program).bind fun q _ hq =>
      Engine.keeps_closing hq _)

end Scripted

namespace Script

/-! An evaluation is given what comes after it. So it keeps to the stations if it does so whenever what
comes after it does, both in a run and in one that has been called off; what comes after an end for that
reason need do so only in the latter. -/

/-- Where the evaluation of a script may come to its end, by its failure. Unless the run has been called
off, that is not why it ended. -/
def Concludes (q : Station) (failure : Option Fault) : Prop :=
  q = .calledOff ∨ q = .running ∧ ∀ f, failure = some f → f.isTermination = false

def Conduct.Fits (off : Bool) (c : Conduct) : Prop :=
  (off = false → c.Keeps Concludes .running) ∧ c.Keeps Concludes .calledOff

theorem Conduct.Fits.mono {off off' : Bool} {c : Conduct} (h : c.Fits off)
    (ho : off = true → off' = true) : c.Fits off' := by
  refine ⟨fun hoff => h.1 ?_, h.2⟩
  cases off with
  | false => rfl
  | true => exact (ho rfl).symm.trans hoff

namespace Eval
variable {program : Program} {sites : List Site} {off : Bool} {α β : Type}

theorem passing_fits : Passing fun off c _ => Conduct.Fits off c where
  weaken := Conduct.Fits.mono
  looked hon hoff := ⟨fun h => .poll (hoff.1 h), .notice hon.2⟩

abbrev Fits (program : Program) (off : Bool) (sites : List Site) (m : Eval α) : Prop :=
  Lifts (fun off c _ => Conduct.Fits off c) program off sites m m

def FitsRunning (program : Program) (sites : List Site) (m : Eval α) : Prop :=
  ∀ env k, (∀ r env, (∀ x, r = .error x → x.Blamed program sites) →
    (k r env : Conduct).Fits (wasEnded r)) → (m env k).Keeps Concludes .running

theorem Fits.running {m : Eval α} (h : Fits program false sites m) : FitsRunning program sites m :=
  fun env k hk => (h env k k hk).1 rfl

theorem running_pure (a : α) : FitsRunning program sites (pure a : Eval α) :=
  Fits.running (.value a)

theorem running_fail {part : Part} {c : Cause} {p : Position} (hp : ⟨part, p⟩ ∈ sites)
    (hc : part.FailsWith c) : FitsRunning program sites (fail c p : Eval α) :=
  Fits.running (passing_fits.fails hp hc)

theorem FitsRunning.andThen {m : Eval α} {f : α → Eval β} (hm : FitsRunning program sites m)
    (hf : ∀ a, Fits program false sites (f a)) : FitsRunning program sites (m >>= f) := by
  intro env k hk
  refine hm env _ fun r env hr => ?_
  cases r with
  | ok a => exact hf a env k k hk
  | error x => exact hk (.error x) env fun y hy => hr y (by cases hy; rfl)

/-- A run that has been called off gets no further than to the next look at its token. -/
theorem fits_poll {part : Part} {p : Position} (hp : ⟨part, p⟩ ∈ sites) {f : Unit → Eval α}
    (hf : FitsRunning program sites (f ())) : Fits program off sites (poll p >>= f) := by
  intro env k _ hk
  have hon := hk _ env (blamed_off hp)
  refine ⟨fun hoff => ?_, .notice hon.2⟩
  subst hoff
  exact .poll (hf env k hk)

theorem running_print (stream : Stream) (e : OutputEvent) {f : Unit → Eval α}
    (hf : FitsRunning program sites (f ())) :
    FitsRunning program sites (ask (.print stream e) >>= f) :=
  fun env k hk => .print (hf env k hk)

theorem running_log (level : Log.Level) (message : String) :
    FitsRunning program sites (ask (.log level message)) :=
  fun env _ hk => .note ((hk (.ok ()) env nofun).1 rfl)

/-- At a checkpoint the run may be called off; it then goes on to the next look at its token. -/
theorem running_printLine (s : Setting) (text : String) (line : Option Nat) :
    FitsRunning program sites (printLine s text line) := by
  intro env k hk
  have hgo := hk (.ok ()) env nofun
  unfold printLine
  split
  · refine .print ?_
    split
    · exact .checkpoint rfl (hgo.1 rfl) (.noteOff hgo.2)
    · exact hgo.1 rfl
  · exact hgo.1 rfl

theorem running_logValue (s : Setting) (text : String) (place : Position) :
    FitsRunning program sites (logValue s text place) := by
  intro env k hk
  unfold logValue
  cases s.console with
  | true => exact running_log _ _ env k hk
  | false => exact (hk (.ok ()) env nofun).1 rfl

section
variable {name : String} {p : Position} (hp : ⟨.call name, p⟩ ∈ sites)
include hp

theorem running_readLine : FitsRunning program sites (readLine p) := by
  intro env k hk
  have hon := hk _ env (blamed_off hp)
  exact .read (fun _ => rfl) (fun _ => rfl) (fun _ => (hk _ env (by nofun)).1 rfl) (.notice hon.2)

theorem running_readInt (hn : name = "read_int") : FitsRunning program sites (readInt p) := by
  refine (running_readLine hp).andThen fun line => ?_
  split
  · exact .value _
  · rw [hn] at hp
    exact passing_fits.fails hp (.noInteger line)

theorem running_pause : FitsRunning program sites (pause p) := by
  intro env k hk
  have hon := hk _ env (blamed_off hp)
  exact .checkpoint rfl ((hk (.ok ()) env nofun).1 rfl) hon.2

theorem running_consoleFunction (args : List Value) :
    FitsRunning program sites (consoleFunction name args p) := by
  unfold consoleFunction
  split
  · exact running_print _ _ (running_pure _)
  · exact running_print _ _ (running_pure _)
  · exact (running_readLine hp).andThen fun _ => .value _
  · exact (running_readInt hp rfl).andThen fun _ => .value _
  · exact (running_pause hp).andThen fun _ => .value _
  · exact running_fail hp (.missing _ _)

theorem fits_builtIn (s : Setting) (args : List Value) :
    Fits program off sites (builtIn s name args p) := by
  refine fits_poll hp ?_
  unfold native
  split
  · exact (running_printLine s _ _).andThen fun _ => .value _
  · exact (running_printLine s _ _).andThen fun _ => .value _
  · exact (running_logValue s _ _).andThen fun _ => .value _
  · exact (running_logValue s _ _).andThen fun _ => .value _
  · exact running_pure _
  · exact running_pure _
  · exact running_pure _
  · exact running_pure _
  · exact running_pure _
  · split
    · exact running_consoleFunction hp args
    · exact running_fail hp (.missing _ _)

end

theorem fits_closed (s : Setting) :
    Closed (fun off c _ => Conduct.Fits off c) s.functions s.functions :=
  { passing_fits with program := rfl, builtIn := fun hp => fits_builtIn hp s }

end Eval

/-- Whether or not the run has been called off by the end of a script, nothing is asked for after it. -/
theorem keeps_run (s : Setting) : s.run.Keeps Concludes .running := by
  have hfits : Conduct.Fits false s.run := (Eval.fits_closed s).run false fun failure _ => by
    refine ⟨fun hoff => .inr ⟨rfl, ?_⟩, .inl rfl⟩
    rintro f rfl
    exact hoff
  exact hfits.1 rfl

theorem keeps_report {f : Fault} {q : Station} (hq : Concludes q (some f)) :
    (report f).Keeps (fun q _ => q.IsLast) q := by
  obtain rfl | ⟨rfl, hf⟩ := hq
  · refine .notice ?_
    simp only [Behaviour.bind, Bool.or_true]
    exact .noteOff (.inr (.inr rfl))
  · refine .poll ?_
    simp only [hf f rfl]
    exact .note (.print (.fail (.inr (.inl rfl))))

theorem keeps_drive (debug : Bool) (source : String) :
    (engine.drive debug source).Keeps Station.Ends .fresh := by
  refine Engine.keeps_drive (fun s => s.program.isSome) (fun source => ?_) (fun s hs => ?_)
    source
  · simp only [engine]
    cases parse source with
    | ok program =>
      refine ⟨⟨_, _, .accept⟩, ?_⟩
      rintro _ _ ⟨⟩
      exact ⟨rfl, rfl⟩
    | error f =>
      refine ⟨⟨_, _, .diagnose .err (.line ("Syntax error: " ++ f.diagnostic.text))⟩, ?_⟩
      rintro _ _ ⟨⟩
      refine ⟨⟨_, _, .reject⟩, ?_⟩
      rintro _ _ ⟨⟩
      exact rfl
  · obtain ⟨program, hp⟩ := Option.isSome_iff_exists.mp hs
    simp only [engine, hp]
    refine Engine.keeps_opening ((keeps_run { program, debug }).bind fun q r hq => ?_)
    cases r with
    | none => exact Engine.keeps_closing (hq.elim (fun h => .inr (.inr h)) fun h => .inl h.1) _
    | some f => exact (keeps_report hq).bind fun q _ hq => Engine.keeps_closing hq _

end Script

/-- Whatever program it is given, an interpreter keeps to the stations of a run. -/
theorem Interpreter.keeps_drive (i : Interpreter) (debug : Bool) (source : String) :
    (i.engine.drive debug source).Keeps Station.Ends .fresh := by
  cases i with
  | lines => exact Scripted.keeps_drive debug source
  | script => exact Script.keeps_drive debug source

end Conduit

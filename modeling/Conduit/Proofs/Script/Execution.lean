import Conduit.Proofs.Engine.Interpreter
import Conduit.Proofs.Engine.Journey
import Conduit.Proofs.Script.Natives

/-!
How the execution of a script goes. While a script is evaluated the engine itself says nothing about
failures; once the evaluation has come to its end it reports the failure, if there is one and the run has
not been called off, and closes.
-/
namespace Conduit

namespace Behaviour
variable {α : Type} {p : Request → Prop} {b b' : Behaviour α} {xs : List Exchange}

def Asks (p : Request → Prop) : Behaviour α → Prop
  | .done _ => True
  | .panic _ => False
  | .ask r next => p r ∧ ∀ reply, (next reply).Asks p

theorem Asks.reaches (h : b.Asks p) (hr : b.Reaches xs b') :
    (∀ x ∈ xs, p x.request) ∧ b'.Asks p := by
  induction hr with
  | refl b => exact ⟨by simp, h⟩
  | more hr ih =>
    obtain ⟨hxs, hb'⟩ := ih (h.2 _)
    exact ⟨List.forall_mem_cons.mpr ⟨h.1, hxs⟩, hb'⟩

theorem Asks.bind {β : Type} {f : α → Behaviour β} (h : b.Asks p) (hf : ∀ a, (f a).Asks p) :
    (b.bind f).Asks p := by
  induction b with
  | done a => exact hf a
  | panic m => exact h
  | ask r next ih => exact ⟨h.1, fun reply => ih reply (h.2 reply)⟩

end Behaviour

def Request.IsFrame : Request → Prop
  | .print .out _ | .tell (.executionPaused _ _) => False
  | _ => True

def Request.IsDiscreet : Request → Prop
  | .print .err _ => False
  | .tell .runtimeError => False
  | _ => True

theorem Request.IsPlain.isDiscreet {r : Request} (h : r.IsPlain) : r.IsDiscreet := by
  unfold IsDiscreet
  split
  · exact h
  · exact h
  · trivial

namespace Script

section
variable {Q : Conduct → Prop} (s : Setting)
  (hQ : ∀ (r : Request) (next : r.Reply → Conduct), r.IsDiscreet → (∀ reply, Q (next reply)) →
    Q (.ask r next))
include hQ

theorem Eval.keeps_printLine (text : String) (line : Option Nat) (env : Env)
    {k : Except Exit Unit → Env → Conduct} (hk : Q (k (.ok ()) env)) : Q (printLine s text line env k) := by
  unfold printLine
  split
  · refine hQ _ _ trivial fun _ => ?_
    simp only
    split
    · refine hQ _ _ trivial fun _ => hQ _ _ trivial fun outcome => ?_
      cases outcome with
      | resumed => exact hk
      | aborted => exact hQ _ _ trivial fun _ => hk
    · exact hk
  · exact hk

/-- What is kept by all requests that tell no failure is kept by a script, if it holds however the script may
end. -/
theorem Setting.keeps_discreet
    (hd : ∀ failure : Option Fault,
      (∀ f, failure = some f → f.Arises s.program (Stmt.allSites s.program.body)) →
      Q (.done failure)) : Q s.run := by
  have hC : Eval.Respected fun c _ => Q c := fun r next _ hr hnext => hQ r next hr.isDiscreet hnext
  refine hC.run rfl (fun {_ _ name place} hp args => ?_) hd
  refine hC.passing.andThen (hC.passing.polled hp) fun _ => ?_
  cases hu : Utterance.of? name args place with
  | none => exact hC.ofNative hp s hu
  | some u =>
    rw [Eval.native_of_utterance s hu]
    refine hC.passing.andThen (fun env _ _ hk => ?_) fun _ => .value _
    exact Eval.keeps_printLine s hQ _ _ env (hk (.ok ()) env nofun)

end

theorem discreet_run (s : Setting) : s.run.Asks Request.IsDiscreet :=
  s.keeps_discreet (fun _ _ hr hnext => ⟨hr, hnext⟩) fun _ _ => trivial

theorem Setting.arises (s : Setting) {xs : List Exchange} {f : Fault}
    (h : s.run.Reaches xs (.done (some f))) : f.Arises s.program (Stmt.allSites s.program.body) := by
  let Q : Conduct → Prop := fun c => ∀ xs f, c.Reaches xs (.done (some f)) →
    f.Arises s.program (Stmt.allSites s.program.body)
  have hrun : Q s.run := by
    refine s.keeps_discreet (fun r next _ hnext xs f hf => ?_) fun failure hfailure xs f hf => ?_
    · cases hf with
      | more hf => exact hnext _ _ _ hf
    · cases hf
      exact hfailure f rfl
  exact hrun xs f h

end Script

namespace Station
variable {q q' q'' : Station} {xs ys : List Exchange}

theorem Path.split (h : q.Path (xs ++ ys) q'') : ∃ q', q.Path xs q' ∧ q'.Path ys q'' := by
  induction xs generalizing q with
  | nil => exact ⟨q, .refl q, h⟩
  | cons x xs ih =>
    cases h with
    | more hm t =>
      obtain ⟨q', hx, hy⟩ := ih t
      exact ⟨q', .more hm hx, hy⟩

theorem Move.agrees {r : Request} {reply : r.Reply} (h : q.Move r reply q') (hq : q'.isOff = false) :
    q.isOff = false ∧ Exchange.Agrees false ⟨r, reply⟩ := by
  cases h with
  | drop | abort | miss logged | notice | noteOff level message | leaveOff => cases hq
  | stop off => exact ⟨hq, trivial⟩
  | finish off => exact ⟨hq, hq⟩
  | _ => exact ⟨rfl, by trivial⟩

theorem Path.agrees (h : q.Path xs q') (hq : q'.isOff = false) :
    q.isOff = false ∧ ∀ x ∈ xs, x.Agrees false := by
  induction h with
  | refl q => exact ⟨hq, by simp⟩
  | more hm t ih =>
    obtain ⟨hq₁, hxs⟩ := ih hq
    obtain ⟨hq₀, hx⟩ := hm.agrees hq₁
    exact ⟨hq₀, List.forall_mem_cons.mpr ⟨hx, hxs⟩⟩

end Station

namespace Script
open Engine (look)

def opening (program : Program) : List Exchange :=
  [look false, ⟨.tell (.analysisFinished true), ()⟩, look false, ⟨.tell .executionStarted, ()⟩,
    ⟨.tell (.stackPushed (Engine.globalScope (program.functions.map (·.name)))), ()⟩]

def closing (off : Bool) : List Exchange :=
  [⟨.tell .stackPopped, ()⟩, ⟨.tell .executionStopped, ()⟩, look off]

def complaint (f : Fault) : OutputEvent := .line ("Runtime error: " ++ f.diagnostic.text)

def reporting (f : Fault) : List Exchange :=
  [look false, ⟨.log .debug ("script failed: " ++ f.diagnostic.text), ()⟩,
    ⟨.print .err (complaint f), ()⟩, ⟨.tell .runtimeError, ()⟩]

/-- How a script ends whose evaluation came to `failure`: what is said after it, and whether the run is
found to be called off. -/
inductive Aftermath : Option Fault → Bool → List Exchange → Prop
  | sound : Aftermath none false []
  | failed {f : Fault} (hf : f.isTermination = false) : Aftermath (some f) false (reporting f)
  | off {failure : Option Fault} {zs : List Exchange} (hz : ∀ x ∈ zs, x.request.IsDiscreet) :
      Aftermath failure true zs

variable {debug : Bool} {source : String} {program : Program} {xs ys zs : List Exchange}
  {failure : Option Fault}

def handle : Option Fault → Behaviour Unit
  | none => pure ()
  | some f => report f

theorem frame_handle (failure : Option Fault) : (handle failure).Asks Request.IsFrame := by
  cases failure with
  | none => trivial
  | some f =>
    refine ⟨trivial, fun cancelled => ?_⟩
    simp only [Behaviour.bind]
    split
    · exact ⟨trivial, fun _ => trivial⟩
    · exact ⟨trivial, fun _ => ⟨trivial, fun _ => ⟨trivial, fun _ => trivial⟩⟩⟩

theorem execute_eq (debug : Bool) (source : String) (program : Program) :
    engine.execute debug ⟨source, some program⟩ =
      .ask (.tell .executionStarted) fun _ =>
      .ask (.tell (.stackPushed (Engine.globalScope (program.functions.map (·.name))))) fun _ =>
      ({ program, debug } : Setting).run.bind fun failure => (handle failure).bind fun _ =>
      .ask (.tell .stackPopped) fun _ => .ask (.tell .executionStopped) fun _ =>
      .done ⟨source, none⟩ := by
  refine congrArg (Behaviour.ask _) (funext fun _ => congrArg (Behaviour.ask _) (funext fun _ => ?_))
  refine congrArg (Setting.run _).bind (funext fun failure => ?_)
  cases failure <;> rfl

/-- An execution that comes to its end has evaluated the script, handled its failure and closed. -/
theorem reaches_execute {rest : Behaviour State} (he : rest.hasEnded = true)
    (h : (engine.execute debug ⟨source, some program⟩).Reaches xs rest) :
    ∃ ys zs failure,
      xs = ⟨.tell .executionStarted, ()⟩ ::
        ⟨.tell (.stackPushed (Engine.globalScope (program.functions.map (·.name)))), ()⟩ ::
        (ys ++ (zs ++ [⟨.tell .stackPopped, ()⟩, ⟨.tell .executionStopped, ()⟩])) ∧
      rest = .done ⟨source, none⟩ ∧
      ({ program, debug } : Setting).run.Reaches ys (.done failure) ∧
      (handle failure).Reaches zs (.done ()) := by
  rw [execute_eq] at h
  obtain ⟨-, xs, rfl, h⟩ := h.of_ask he
  obtain ⟨-, xs, rfl, h⟩ := h.of_ask he
  obtain ⟨m, hm, -⟩ | ⟨ys, xs, failure, rfl, hrun, h⟩ := h.of_bind he
  · exact absurd ((discreet_run _).reaches hm).2 id
  obtain ⟨m, hm, -⟩ | ⟨zs, xs, ⟨⟩, rfl, hhandle, h⟩ := h.of_bind he
  · exact absurd ((frame_handle failure).reaches hm).2 id
  obtain ⟨-, xs, rfl, h⟩ := h.of_ask he
  obtain ⟨-, xs, rfl, h⟩ := h.of_ask he
  cases h
  exact ⟨ys, zs, failure, rfl, rfl, hrun, hhandle⟩

theorem analyze_of_ok (hp : parse source = .ok program) :
    engine.analyze debug (engine.load source) =
      .ask (.tell (.analysisFinished true)) fun _ => .done (true, ⟨source, some program⟩) := by
  simp only [engine, hp]
  rfl

theorem reaches_analyze {rest : Behaviour (Bool × State)} (hp : parse source = .ok program)
    (he : rest.hasEnded = true) (h : (engine.analyze debug (engine.load source)).Reaches xs rest) :
    xs = [⟨.tell (.analysisFinished true), ()⟩] ∧ rest = .done (true, ⟨source, some program⟩) := by
  rw [analyze_of_ok hp] at h
  obtain ⟨-, xs, rfl, h⟩ := h.of_ask he
  cases h
  exact ⟨rfl, rfl⟩

/-- The engine finishes with a program that it accepts, unless the run is called off before. -/
theorem finishes_cases {f : Engine.Finish} (hp : parse source = .ok program)
    (h : engine.Finishes debug source xs f) :
    f = .dropped ∧ xs = [look true] ∨
    f = .halted ∧ xs = [look false, ⟨.tell (.analysisFinished true), ()⟩, look true] ∨
    ∃ off ys zs failure, f = .executed off ∧ xs = opening program ++ (ys ++ (zs ++ closing off)) ∧
      ({ program, debug } : Setting).run.Reaches ys (.done failure) ∧
      (handle failure).Reaches zs (.done ()) := by
  cases h with
  | dropped => exact .inl ⟨rfl, rfl⟩
  | brokenAnalysis ha => cases (reaches_analyze hp rfl ha).2
  | rejected ha => cases (reaches_analyze hp rfl ha).2
  | halted ha =>
    obtain ⟨rfl, -⟩ := reaches_analyze hp rfl ha
    exact .inr (.inl ⟨rfl, rfl⟩)
  | brokenExecution ha hx =>
    obtain ⟨-, h⟩ := reaches_analyze hp rfl ha
    cases h
    obtain ⟨ys, zs, failure, -, h, -⟩ := reaches_execute rfl hx
    cases h
  | executed off ha hx =>
    obtain ⟨rfl, h⟩ := reaches_analyze hp rfl ha
    cases h
    obtain ⟨ys, zs, failure, rfl, -, hrun, hhandle⟩ := reaches_execute rfl hx
    exact .inr (.inr ⟨off, ys, zs, failure, rfl, by simp [opening, closing], hrun, hhandle⟩)

theorem path_opening {q : Station} (h : Station.fresh.Path (opening program) q) : q = .running := by
  rcases h with - | ⟨⟨⟩, - | ⟨⟨⟩, - | ⟨⟨⟩, - | ⟨⟨⟩, - | ⟨⟨⟩, ⟨⟩⟩⟩⟩⟩⟩
  rfl

theorem path_closing {q q' : Station} {off : Bool} (h : q.Path (closing off) q') : q.isOff = off := by
  rcases h with - | ⟨hm, - | ⟨⟨⟩, - | ⟨⟨⟩, ⟨⟩⟩⟩⟩
  cases hm <;> rfl

/-- A failure is told unless it comes from the run, or the run is found to be called off. -/
theorem reaches_report {f : Fault} (h : (report f).Reaches zs (.done ())) :
    zs = reporting f ∧ f.isTermination = false ∨
    ∃ off, zs = [look off, ⟨.log .debug ("script terminated: " ++ f.text), ()⟩] ∧
      (f.isTermination || off) = true := by
  obtain ⟨off, zs₀, rfl, h₀⟩ := h.of_ask rfl
  change (if f.isTermination || off then _ else _ : Behaviour Unit).Reaches zs₀ (.done ()) at h₀
  cases hoff : f.isTermination || off with
  | true =>
    rw [hoff] at h₀
    obtain ⟨⟨⟩, zs₁, rfl, h₁⟩ := h₀.of_ask rfl
    cases h₁
    exact .inr ⟨off, rfl, hoff⟩
  | false =>
    obtain ⟨hf, rfl⟩ := Bool.or_eq_false_iff.mp hoff
    rw [hoff] at h₀
    obtain ⟨⟨⟩, zs₁, rfl, h₁⟩ := h₀.of_ask rfl
    obtain ⟨⟨⟩, zs₂, rfl, h₂⟩ := h₁.of_ask rfl
    obtain ⟨⟨⟩, zs₃, rfl, h₃⟩ := h₂.of_ask rfl
    cases h₃
    exact .inl ⟨rfl, hf⟩

theorem discreet_handle {q : Station} (hpath : Station.calledOff.Path zs q)
    (h : (handle failure).Reaches zs (.done ())) : ∀ x ∈ zs, x.request.IsDiscreet := by
  cases failure with
  | none =>
    cases h
    simp
  | some f =>
    obtain ⟨rfl, -⟩ | ⟨off, rfl, -⟩ := reaches_report h
    · obtain - | ⟨⟨⟩, -⟩ := hpath
    · exact List.forall_mem_cons.mpr ⟨trivial, List.forall_mem_singleton.mpr trivial⟩

/-- What is said after the evaluation follows from its failure and from whether the run was called
off. -/
theorem aftermath {q : Station} {off : Bool}
    (hpath : Station.fresh.Path (opening program ++ (ys ++ (zs ++ closing off))) q)
    (hrun : ({ program, debug } : Setting).run.Reaches ys (.done failure))
    (hhandle : (handle failure).Reaches zs (.done ())) : Aftermath failure off zs := by
  obtain ⟨q₀, hopening, hpath⟩ := hpath.split
  obtain rfl := path_opening hopening
  obtain ⟨q₁, heval, hpath⟩ := hpath.split
  obtain ⟨q₂, hafter, hclosing⟩ := hpath.split
  have hoff := path_closing hclosing
  obtain rfl | ⟨rfl, hf⟩ := (keeps_run _).reaches hrun heval
  · -- Who was called off is so to the end.
    cases off with
    | true => exact .off (discreet_handle hafter hhandle)
    | false => cases (hafter.agrees hoff).1
  · cases failure with
    | none =>
      cases hhandle
      cases hafter
      cases hoff
      exact .sound
    | some f =>
      obtain ⟨rfl, -⟩ | ⟨off, rfl, hor⟩ := reaches_report hhandle
      · rcases hafter with - | ⟨⟨⟩, - | ⟨⟨⟩, - | ⟨⟨⟩, - | ⟨⟨⟩, ⟨⟩⟩⟩⟩⟩
        cases hoff
        exact .failed (hf f rfl)
      · obtain - | ⟨⟨⟩, -⟩ := hafter
        rw [hf f rfl] at hor
        cases hor

end Script

end Conduit

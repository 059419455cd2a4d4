import Conduit.Engine.Basic
import Conduit.Proofs.Bridge.Course

/-!
The stations of a run. An interpreter asks for one thing after another in an order that can be told in
advance: what may come next, and what each reply leads to. Whoever keeps to that order tells the life of
its run in the same words, counts each line it takes and passes each checkpoint it announces.
-/
namespace Conduit

inductive Station where
  | fresh
  /-- Called off before anything was done. -/
  | dropped
  | analysing
  | rejected
  | accepted
  | entering
  | opening
  | running
  /-- At a checkpoint that has been announced but not passed. -/
  | checkpoint
  /-- With a line that has not been counted. -/
  | supplied
  | counting
  | failed
  | calledOff
  | leaving (off : Bool)
  | left (off : Bool)
  | gone (off : Bool)
deriving DecidableEq, Repr

namespace Station

/-- What may be asked for at a station, and where each reply leads. A run that has not been called off
learns so only by a read or a gate that gives it nothing. -/
inductive Move : Station → (r : Request) → r.Reply → Station → Prop
  | drop : Move .fresh .isCancelled true .dropped
  | begin : Move .fresh .isCancelled false .analysing
  | diagnose (stream : Stream) (e : OutputEvent) : Move .analysing (.print stream e) () .analysing
  | accept : Move .analysing (.tell (.analysisFinished true)) () .accepted
  | reject : Move .analysing (.tell (.analysisFinished false)) () .rejected
  | enter : Move .accepted .isCancelled false .entering
  | start : Move .entering (.tell .executionStarted) () .opening
  | open (functions : List String) :
      Move .opening (.tell (.stackPushed (Engine.globalScope functions))) () .running
  | print (stream : Stream) (e : OutputEvent) : Move .running (.print stream e) () .running
  | note (level : Log.Level) (message : String) : Move .running (.log level message) () .running
  | name (name : String) : Move .running .threadName name .running
  | poll : Move .running .isCancelled false .running
  | announce (line : Option Nat) (wasPrint : Bool) :
      Move .running (.tell (.executionPaused line wasPrint)) () .checkpoint
  | pass : Move .checkpoint .awaitGate .resumed .running
  | abort : Move .checkpoint .awaitGate .aborted .calledOff
  | take (logged : Bool) (line : String) : Move .running (.read logged) (some line) .supplied
  | miss (logged : Bool) : Move .running (.read logged) none .calledOff
  | check : Move .supplied .isCancelled false .counting
  | count (line : Nat) : Move .counting (.tell (.readExecuted line)) () .running
  | fail : Move .running (.tell .runtimeError) () .failed
  | notice : Move .calledOff .isCancelled true .calledOff
  | noteOff (level : Log.Level) (message : String) :
      Move .calledOff (.log level message) () .calledOff
  | leave : Move .running (.tell .stackPopped) () (.leaving false)
  | leaveFailed : Move .failed (.tell .stackPopped) () (.leaving false)
  | leaveOff : Move .calledOff (.tell .stackPopped) () (.leaving true)
  | stop (off : Bool) : Move (.leaving off) (.tell .executionStopped) () (.left off)
  | finish (off : Bool) : Move (.left off) .isCancelled off (.gone off)

def Ends : Station → Ending → Prop
  | .dropped, ending => ending = .cancelled
  | .rejected, ending => ending = .rejected
  | .gone off, ending => ending = if off then .cancelled else .executed
  | _, _ => False

end Station

namespace Behaviour
variable {α β : Type}

/-- A behaviour that keeps to the stations, from the station `q` on. It can break off only while its
program runs. -/
def Keeps (ends : Station → α → Prop) (q : Station) : Behaviour α → Prop
  | .done a => ends q a
  | .panic _ => q = .running
  | .ask r next => (∃ reply q', q.Move r reply q') ∧
      ∀ reply q', q.Move r reply q' → (next reply).Keeps ends q'

variable {ends : Station → α → Prop} {q q' : Station}

theorem Keeps.bind {ends' : Station → β → Prop} {b : Behaviour α} {f : α → Behaviour β}
    (h : b.Keeps ends q) (hf : ∀ q a, ends q a → (f a).Keeps ends' q) : (b.bind f).Keeps ends' q := by
  induction b generalizing q with
  | done a => exact hf q a h
  | panic m => exact h
  | ask r next ih => exact ⟨h.1, fun reply q' hm => ih reply (h.2 reply q' hm)⟩

theorem Keeps.running_of_read {logged : Bool} {next : Option String → Behaviour α}
    (h : (ask (.read logged) next).Keeps ends q) : q = .running := by
  obtain ⟨⟨reply, q', hm⟩, -⟩ := h
  cases hm <;> rfl

theorem Keeps.checkpoint_of_awaitGate {next : GateOutcome → Behaviour α}
    (h : (ask .awaitGate next).Keeps ends q) : q = .checkpoint := by
  obtain ⟨⟨reply, q', hm⟩, -⟩ := h
  cases hm <;> rfl

/-! What a behaviour asks for first -/

theorem Keeps.print {stream : Stream} {e : OutputEvent} {next : Unit → Behaviour α}
    (h : (next ()).Keeps ends .running) : (ask (.print stream e) next).Keeps ends .running :=
  ⟨⟨_, _, .print stream e⟩, by rintro _ _ ⟨⟩; exact h⟩

theorem Keeps.note {level : Log.Level} {message : String} {next : Unit → Behaviour α}
    (h : (next ()).Keeps ends .running) : (ask (.log level message) next).Keeps ends .running :=
  ⟨⟨_, _, .note level message⟩, by rintro _ _ ⟨⟩; exact h⟩

theorem Keeps.noteOff {level : Log.Level} {message : String} {next : Unit → Behaviour α}
    (h : (next ()).Keeps ends .calledOff) : (ask (.log level message) next).Keeps ends .calledOff :=
  ⟨⟨_, _, .noteOff level message⟩, by rintro _ _ ⟨⟩; exact h⟩

theorem Keeps.name {next : String → Behaviour α} (h : ∀ name, (next name).Keeps ends .running) :
    (ask .threadName next).Keeps ends .running :=
  ⟨⟨_, _, .name ""⟩, by rintro name _ ⟨⟩; exact h name⟩

theorem Keeps.poll {next : Bool → Behaviour α} (h : (next false).Keeps ends .running) :
    (ask .isCancelled next).Keeps ends .running :=
  ⟨⟨_, _, .poll⟩, by rintro _ _ ⟨⟩; exact h⟩

theorem Keeps.notice {next : Bool → Behaviour α} (h : (next true).Keeps ends .calledOff) :
    (ask .isCancelled next).Keeps ends .calledOff :=
  ⟨⟨_, _, .notice⟩, by rintro _ _ ⟨⟩; exact h⟩

/-- A checkpoint is announced and then passed, or the run is called off at it. -/
theorem Keeps.checkpoint {line : Option Nat} {wasPrint : Bool} {next : Unit → Behaviour α}
    {after : GateOutcome → Behaviour α} (hn : next () = ask .awaitGate after)
    (hr : (after .resumed).Keeps ends .running) (ha : (after .aborted).Keeps ends .calledOff) :
    (ask (.tell (.executionPaused line wasPrint)) next).Keeps ends .running := by
  refine ⟨⟨_, _, .announce line wasPrint⟩, ?_⟩
  rintro _ _ ⟨⟩
  rw [hn]
  refine ⟨⟨_, _, .pass⟩, ?_⟩
  rintro _ _ (⟨⟩ | ⟨⟩)
  · exact hr
  · exact ha

/-- A line is taken and then counted, or the run is called off and there is none. -/
theorem Keeps.read {logged : Bool} {next : Option String → Behaviour α}
    {after : String → Bool → Behaviour α} {counted : String → Unit → Behaviour α} {line : Nat}
    (hn : ∀ input, next (some input) = ask .isCancelled (after input))
    (ha : ∀ input, after input false = ask (.tell (.readExecuted line)) (counted input))
    (hc : ∀ input, (counted input ()).Keeps ends .running)
    (hm : (next none).Keeps ends .calledOff) : (ask (.read logged) next).Keeps ends .running := by
  refine ⟨⟨_, _, .miss logged⟩, ?_⟩
  rintro _ _ (⟨⟩ | ⟨⟩)
  · rename_i input
    rw [hn]
    refine ⟨⟨_, _, .check⟩, ?_⟩
    rintro _ _ ⟨⟩
    rw [ha]
    refine ⟨⟨_, _, .count line⟩, ?_⟩
    rintro _ _ ⟨⟩
    exact hc input
  · exact hm

theorem Keeps.fail {next : Unit → Behaviour α} (h : (next ()).Keeps ends .failed) :
    (ask (.tell .runtimeError) next).Keeps ends .running :=
  ⟨⟨_, _, .fail⟩, by rintro _ _ ⟨⟩; exact h⟩

end Behaviour

end Conduit

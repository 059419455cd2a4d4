import Conduit.Engine.Basic
import Conduit.Engine.Run

/-!
One engine driven by hand, without a bridge. Its output is captured, its input is a channel of a
hundred lines that drops what does not fit, and its listeners write down what they hear.
-/
namespace Conduit

inductive Listener where
  | recording (opensGate : Bool)
  | silent
deriving DecidableEq, Repr

structure HeardCall where
  listener : Nat
  signal : Signal
deriving DecidableEq, Repr

structure Hearing where
  listeners : List Listener := []
  calls : List HeardCall := []

inductive BenchResult where
  | analyzed (accepted : Bool)
  | returned
  | panicked
  | blocked
  | busy
  | wrote (queued : Bool)
  | done
deriving DecidableEq, Repr

inductive BenchCall where
  | addListener (l : Listener)
  | analyze (debug : Bool)
  | execute (debug : Bool)
  | resume
  | openGate
  | abort
  | cancel
  | submit (line : String)
deriving DecidableEq, Repr

inductive BenchWork (σ : Type) where
  | idle (state : σ)
  | reading (logged : Bool) (next : Option String → Behaviour (BenchResult × σ))
  | paused (next : GateOutcome → Behaviour (BenchResult × σ))

structure Bench (σ : Type) where
  engine : Engine σ
  source : String
  stage : Stage Hearing
  work : BenchWork σ

namespace Bench

def create (engine : Engine σ) (source : String) : Bench σ :=
  { engine, source
    stage :=
      { channel := Channel.ofCapacity Channel.defaultCapacity .drop
        sink := .capture ""
        audience := {} }
    work := .idle (engine.load source) }

def hearFrom (s : Signal) (index : Nat) : List Listener → Stage Hearing → Stage Hearing
  | [], st => st
  | .silent :: rest, st => hearFrom s (index + 1) rest st
  | .recording opensGate :: rest, st =>
    let st := { st with audience := { st.audience with
      calls := st.audience.calls ++ [⟨index, s⟩] } }
    let st := match s, opensGate with
      | .executionPaused _ _, true => { st with gate := st.gate.resume }
      | _, _ => st
    hearFrom s (index + 1) rest st

def worker : Worker Hearing :=
  { thread := .helper, name := "helper", ticket := 0
    hear := fun s st => hearFrom s 0 st.audience.listeners st }

def carryOn (b : Bench σ) (work : Behaviour (BenchResult × σ)) : Bench σ × BenchResult :=
  match work.run worker Behaviour.never b.stage with
  | (stage, .done (r, s)) => ({ b with stage, work := .idle s }, r)
  | (stage, .panicked _) => ({ b with stage, work := .idle (b.engine.load b.source) }, .panicked)
  | (stage, .reading logged next) => ({ b with stage, work := .reading logged next }, .blocked)
  | (stage, .paused next) => ({ b with stage, work := .paused next }, .blocked)
  | (stage, .held _) => ({ b with stage }, .blocked)

def release (b : Bench σ) : Bench σ × Option BenchResult :=
  match b.work with
  | .paused next =>
    match b.stage.gate.wait with
    | (gate, some outcome) =>
      match { b with stage := { b.stage with gate } }.carryOn (next outcome) with
      | (b, .blocked) => (b, none)
      | (b, r) => (b, some r)
    | (_, none) => (b, none)
  | _ => (b, none)

def answerRead (b : Bench σ) (line : Option String) : Bench σ × Option BenchResult :=
  match b.work with
  | .reading logged next =>
    let stage := if line.isNone then b.stage.noteCalledOff .helper logged else b.stage
    match { b with stage }.carryOn (next line) with
    | (b, .blocked) => (b, none)
    | (b, r) => (b, some r)
  | _ => (b, none)

structure Answer where
  result : BenchResult
  finished : Option BenchResult := none

def analysis (b : Bench σ) (debug : Bool) (s : σ) : Behaviour (BenchResult × σ) := do
  let (accepted, s) ← b.engine.analyze debug s
  return (.analyzed accepted, s)

def execution (b : Bench σ) (debug : Bool) (s : σ) : Behaviour (BenchResult × σ) := do
  return (.returned, ← b.engine.execute debug s)

def withGate (b : Bench σ) (f : Gate → Gate) : Bench σ × Answer :=
  let (b, finished) := { b with stage := { b.stage with gate := f b.stage.gate } }.release
  (b, ⟨.done, finished⟩)

def cancel (b : Bench σ) : Bench σ × Answer :=
  let stage := if b.stage.cancelled then b.stage
    else b.stage.note .host .debug .input Channel.cancelMessage
  let stage := { stage with cancelled := true, channel := stage.channel.abandon 0 }
  let (b, finished) := { b with stage }.answerRead none
  (b, ⟨.done, finished⟩)

def submit (b : Bench σ) (line : String) : Bench σ × Answer :=
  match b.stage.channel.tryWrite line with
  | none =>
    let message := Channel.droppedMessage b.stage.channel.limit line
    ({ b with stage := b.stage.note .host .warn .input message }, ⟨.wrote false, none⟩)
  | some (channel, served) =>
    let b := { b with stage := { b.stage with channel } }
    match served with
    | .read _ line :: _ =>
      let (b, finished) := b.answerRead (some line)
      (b, ⟨.wrote true, finished⟩)
    | _ => (b, ⟨.wrote true, none⟩)

/-- Calls that need the engine are refused while it is blocked. -/
def perform (b : Bench σ) : BenchCall → Bench σ × Answer
  | .openGate => b.withGate Gate.resume
  | .abort => b.withGate Gate.abort
  | .cancel => b.cancel
  | .submit line => b.submit line
  | .addListener l =>
    match b.work with
    | .idle _ =>
      ({ b with stage := { b.stage with audience := { b.stage.audience with
          listeners := b.stage.audience.listeners ++ [l] } } }, ⟨.done, none⟩)
    | _ => (b, ⟨.busy, none⟩)
  | .analyze debug =>
    match b.work with
    | .idle s =>
      let (b, r) := b.carryOn (b.analysis debug s)
      (b, ⟨r, none⟩)
    | _ => (b, ⟨.busy, none⟩)
  | .execute debug =>
    match b.work with
    | .idle s =>
      let (b, r) := b.carryOn (b.execution debug s)
      (b, ⟨r, none⟩)
    | _ => (b, ⟨.busy, none⟩)
  | .resume =>
    match b.work with
    | .idle _ => b.withGate Gate.resume
    | _ => (b, ⟨.busy, none⟩)

end Bench

end Conduit

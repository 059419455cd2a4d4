import Conduit.Bridge.Session
import Conduit.Error

/-!
A bridge: one input channel, one output sink and the runs that use them. Settling lets every run that
can go on do so. Runs are settled in the order of their start: a run never waits for a later one, so
one pass is enough.
-/
namespace Conduit

inductive Wait where
  | finish (session : Nat)
  | idle (sessions : List Nat)
deriving DecidableEq, Repr

structure Bridge where
  config : Config
  /-- Whether the system has a worker for the run of that number. -/
  grants : Nat → Bool
  /-- The work that a source stands for. -/
  drive : String → Behaviour Ending
  channel : Channel
  sink : Sink
  hub : Hub := {}
  nextId : Nat := 1
  /-- Every run that was started, in the order of their start. -/
  sessions : List Session := []
  journal : List Log.Entry := []
  /-- Blocked submissions that went on, by their tickets. -/
  admitted : List Nat := []
  waits : List (Nat × Wait) := []

namespace Bridge

def note (b : Bridge) (thread : Log.Thread) (level : Log.Level) (area : Log.Area)
    (message : String) : Bridge :=
  { b with journal := b.journal ++ [⟨thread, level, area, message⟩] }

def create (e : Engine σ) (grants : Nat → Bool) (sink : Sink) (config : Config) : Bridge :=
  let b : Bridge :=
    { config, grants, sink
      drive := e.drive config.run.debug
      channel := Channel.ofCapacity config.input.capacity config.input.whenFull }
  b.note .host .debug .control
    ("Bridge created (capacity " ++ Decimal.natText b.channel.limit ++ ", pause " ++
      config.run.pause.label ++ ", overlap " ++ config.run.overlap.label ++ ")")

def find? (b : Bridge) (id : Nat) : Option Session := b.sessions.find? fun s => s.id = id

def active (b : Bridge) : List Session := b.sessions.filter fun s => !s.isFinished

def isPaused (b : Bridge) : Bool := b.active.any Session.isPaused

def hasFinished (b : Bridge) (id : Nat) : Bool := (b.find? id).any Session.isFinished

def clearInput (b : Bridge) (thread : Log.Thread) : Bridge :=
  let n := b.channel.size
  let (channel, served) := b.channel.clear
  let b := { b with channel, admitted := b.admitted ++ Stage.writerTickets served }
  if 0 < n then b.note thread .debug .input (Channel.clearedMessage n) else b

def workerName (b : Bridge) (id : Nat) : String :=
  b.config.run.threadName ++ "-" ++ Decimal.natText id

def worker (b : Bridge) (id : Nat) : Worker Audience :=
  { thread := .worker id, name := b.workerName id, ticket := id,
    hear := Stage.hear id b.config.run.pause }

def stageOf (b : Bridge) (s : Session) : Stage Audience :=
  { channel := b.channel, sink := b.sink, gate := s.gate, cancelled := s.cancelled,
    audience := ⟨b.hub, s.tally⟩, journal := b.journal, admitted := b.admitted }

def afterStage (b : Bridge) (st : Stage Audience) : Bridge :=
  { b with channel := st.channel, sink := st.sink, hub := st.audience.hub, journal := st.journal,
           admitted := st.admitted }

def phaseAfter (id : Nat) (st : Stage Audience) : Progress Ending → Stage Audience × Phase
  | .done ending =>
    let st := if ending = .rejected
      then st.noteControl id .debug "analysis failed, not executing" else st
    let (st, r) := st.conclude id (Stage.outcomeOf st.audience.tally ending)
    (st, .finished r)
  | .panicked m =>
    let (st, r) := (st.noteControl id .error
      ("engine panicked: " ++ m.getD "unknown panic")).conclude id .panicked
    (st, .finished r)
  | .reading logged next => (st, .reading logged next)
  | .paused next => (st, .paused next)
  | .held rest => (st, .ready rest)

abbrev Halt := Sink → Bool

def carryOn (halt : Halt) (b : Bridge) (s : Session) (work : Behaviour Ending) : Bridge × Session :=
  let (st, progress) := work.run (b.worker s.id) (fun st => halt st.sink) (b.stageOf s)
  let (st, phase) := phaseAfter s.id st progress
  (b.afterStage st, { s with gate := st.gate, tally := st.audience.tally, phase })

/-- Lets one run go on if it can. A queued run starts with fresh input. -/
def advance (halt : Halt) (b : Bridge) (s : Session) : Bridge × Session :=
  match s.phase with
  | .finished _ | .reading _ _ => (b, s)
  | .ready work => b.carryOn halt s work
  | .queued behind work =>
    if behind.all b.hasFinished then (b.clearInput (.worker s.id)).carryOn halt s work else (b, s)
  | .paused next =>
    match s.gate.wait with
    | (gate, some outcome) => b.carryOn halt { s with gate } (next outcome)
    | (_, none) => (b, s)

def advanceAndKeep (halt : Halt) (b : Bridge) (s : Session) : Bridge :=
  let (b, s) := b.advance halt s
  { b with sessions := b.sessions ++ [s] }

def settle (halt : Halt) (b : Bridge) : Bridge :=
  b.sessions.foldl (advanceAndKeep halt) { b with sessions := [] }

def describe (b : Bridge) : String :=
  let c := b.config
  let size := match c.run.stackSize with
    | none => "None"
    | some n => "Some(" ++ Decimal.natText n ++ ")"
  "Bridge \x7b input: " ++ b.channel.describe ++
    ", config: BridgeConfig \x7b input: InputSettings \x7b capacity: " ++
    Decimal.natText c.input.capacity ++ ", when_full: " ++ Channel.policyName c.input.whenFull ++
    " \x7d, run: RunSettings \x7b pause: " ++ c.run.pause.label ++ ", overlap: " ++
    c.run.overlap.label ++ ", debug: " ++ Gate.boolText c.run.debug ++ ", thread_name: " ++
    Text.quoted c.run.threadName ++ ", stack_size: " ++ size ++ " \x7d \x7d, .. \x7d"

end Bridge

end Conduit

import Conduit.Config.Basic
import Conduit.Engine.Basic
import Conduit.Engine.Run
import Conduit.Session.Hub

/-!
One run on a bridge: where it stands, what has been counted of it, and how its signals become events.
-/
namespace Conduit

structure Tally where
  pauses : UInt32 := 0
  reads : UInt32 := 0
  failed : Bool := false
  depth : Nat := 0
deriving DecidableEq, Repr

structure Audience where
  hub : Hub
  tally : Tally := {}

inductive Phase where
  /-- Waits for earlier runs to finish. -/
  | queued (behind : List Nat) (work : Behaviour Ending)
  | ready (work : Behaviour Ending)
  | reading (logged : Bool) (next : Option String → Behaviour Ending)
  | paused (next : GateOutcome → Behaviour Ending)
  | finished (report : RunReport)

structure Session where
  id : Nat
  cancelled : Bool := false
  gate : Gate := {}
  tally : Tally := {}
  phase : Phase

namespace Session

def report? (s : Session) : Option RunReport :=
  match s.phase with
  | .finished r => some r
  | _ => none

def isFinished (s : Session) : Bool := s.report?.isSome

def isPaused (s : Session) : Bool := s.gate.waiting

def describe (s : Session) : String :=
  "RunHandle \x7b id: " ++ Decimal.natText s.id ++ ", finished: " ++ Gate.boolText s.isFinished ++
    " \x7d"

def mark (id : Nat) : String := "[session " ++ Decimal.natText id ++ "] "

end Session

namespace Audience

def publish (a : Audience) (id : Nat) (e : SessionEvent) : Audience :=
  { a with hub := a.hub.publish ⟨id, e⟩ }

def count (a : Audience) (f : Tally → Tally) : Audience := { a with tally := f a.tally }

end Audience

namespace Stage

def publish (st : Stage Audience) (id : Nat) (e : SessionEvent) : Stage Audience :=
  { st with audience := st.audience.publish id e }

def count (st : Stage Audience) (f : Tally → Tally) : Stage Audience :=
  { st with audience := st.audience.count f }

def noteControl (st : Stage Audience) (id : Nat) (level : Log.Level) (message : String) :
    Stage Audience :=
  st.note (.worker id) level .control (Session.mark id ++ message)

def lineText : Option Nat → String
  | some l => "Some(" ++ Decimal.natText l ++ ")"
  | none => "None"

/-- A checkpoint is counted and published. Where pauses are resumed by themselves the gate is opened
before the run gets to it. -/
def hearPause (st : Stage Audience) (id : Nat) (policy : PausePolicy) (line : Option Nat)
    (wasPrint : Bool) : Stage Audience :=
  let st := (st.count fun t => { t with pauses := t.pauses + 1 }).publish id
    (.executionPaused line wasPrint)
  match policy with
  | .autoResume =>
    let st := st.noteControl id .trace ("paused at " ++ lineText line ++ ", resuming")
    { st with gate := st.gate.resume }.publish id .resumed
  | .host =>
    st.noteControl id .info ("paused at line " ++ (line.map Decimal.natText).getD "?" ++
      ", waiting for host")

def hear (id : Nat) (policy : PausePolicy) (s : Signal) (st : Stage Audience) : Stage Audience :=
  match s with
  | .analysisFinished success =>
    (st.noteControl id .debug
      ("analysis finished (success: " ++ Gate.boolText success ++ ")")).publish id
        (.analysisFinished success)
  | .executionStarted => (st.noteControl id .debug "execution started").publish id .executionStarted
  | .executionPaused line wasPrint => st.hearPause id policy line wasPrint
  | .executionStopped => (st.noteControl id .debug "execution stopped").publish id .executionStopped
  | .stackPushed scope =>
    (st.count fun t => { t with depth := scope.depth }).publish id
      (.stackPushed scope.depth scope.name)
  | .stackPopped =>
    (st.count fun t => { t with depth := t.depth - 1 }).publish id
      (.stackPopped (st.audience.tally.depth - 1))
  | .readExecuted line =>
    (st.count fun t => { t with reads := t.reads + 1 }).publish id (.readExecuted line)
  | .runtimeError =>
    ((st.noteControl id .debug "runtime error reported").count
      fun t => { t with failed := true }).publish id .runtimeError

def outcomeOf (t : Tally) : Ending → RunOutcome
  | .rejected => .analysisFailed
  | .cancelled => .cancelled
  | .executed => if t.failed then .runtimeError else .completed

def reportFor (st : Stage Audience) (id : Nat) (outcome : RunOutcome) : RunReport :=
  { session := id, outcome, pauses := st.audience.tally.pauses, resumes := st.gate.resumed,
    reads := st.audience.tally.reads }

def conclude (st : Stage Audience) (id : Nat) (outcome : RunOutcome) : Stage Audience × RunReport :=
  let st := st.publish id (.finished outcome)
  let r := st.reportFor id outcome
  (st.note (.worker id) .info .control
    ("Session " ++ Decimal.natText id ++ " finished: " ++ outcome.label ++ " (" ++
      Decimal.natText r.pauses.toNat ++ " pauses, " ++ Decimal.natText r.resumes.toNat ++
      " resumes, " ++ Decimal.natText r.reads.toNat ++ " reads)"), r)

end Stage

end Conduit

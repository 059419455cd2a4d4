import Conduit.Gate

/-!
What is known of a run: its lifecycle events, how it ended and the report of it.
-/
namespace Conduit

inductive RunOutcome where
  | analysisFailed
  | completed
  | runtimeError
  | cancelled
  | panicked
deriving DecidableEq, Repr

/-- A run that ended by itself or was called off has not failed. -/
def RunOutcome.isFailure : RunOutcome → Bool
  | .analysisFailed | .runtimeError | .panicked => true
  | .completed | .cancelled => false

def RunOutcome.label : RunOutcome → String
  | .analysisFailed => "AnalysisFailed"
  | .completed => "Completed"
  | .runtimeError => "RuntimeError"
  | .cancelled => "Cancelled"
  | .panicked => "Panicked"

structure RunReport where
  session : Nat
  outcome : RunOutcome
  pauses : UInt32
  resumes : UInt32
  reads : UInt32
deriving DecidableEq, Repr

structure ScopeInfo where
  depth : Nat
  name : String
  bindings : List String
deriving DecidableEq, Repr

inductive SessionEvent where
  | spawned
  | analysisFinished (success : Bool)
  | executionStarted
  | executionPaused (line : Option Nat) (wasPrint : Bool)
  | resumed
  | executionStopped
  | stackPushed (depth : Nat) (name : String)
  | stackPopped (depth : Nat)
  | readExecuted (line : Nat)
  | runtimeError
  | finished (outcome : RunOutcome)
deriving DecidableEq, Repr

structure Envelope where
  session : Nat
  event : SessionEvent
deriving DecidableEq, Repr

end Conduit

import Conduit.Log
import Conduit.Output
import Conduit.Session.Basic

/-!
What a program does, as a tree: each request to its surroundings comes with the behaviour that
follows each reply. Every branch of a tree is finite, so a run can be carried out by recursion on it.
-/
namespace Conduit

inductive Signal where
  | analysisFinished (success : Bool)
  | executionStarted
  | executionPaused (line : Option Nat) (wasPrint : Bool)
  | executionStopped
  | stackPushed (scope : ScopeInfo)
  | stackPopped
  | readExecuted (line : Nat)
  | runtimeError
deriving DecidableEq, Repr

inductive Request where
  | print (stream : Stream) (event : OutputEvent)
  | tell (signal : Signal)
  /-- Asks for an input line; whether the log mentions a read that is called off is up to the asker. -/
  | read (logged : Bool)
  | awaitGate
  | openGate
  | isCancelled
  | threadName
  | log (level : Log.Level) (message : String)
deriving DecidableEq, Repr

def Request.Reply : Request → Type
  | .print _ _ => Unit
  | .tell _ => Unit
  | .read _ => Option String
  | .awaitGate => GateOutcome
  | .openGate => Unit
  | .isCancelled => Bool
  | .threadName => String
  | .log _ _ => Unit

inductive Behaviour (α : Type) where
  | done (result : α)
  | ask (request : Request) (next : request.Reply → Behaviour α)
  /-- Breaks off, with a message unless the reason is no text. -/
  | panic (message : Option String)

namespace Behaviour

def bind (b : Behaviour α) (f : α → Behaviour β) : Behaviour β :=
  match b with
  | .done a => f a
  | .ask r next => .ask r fun reply => (next reply).bind f
  | .panic m => .panic m

instance : Monad Behaviour where
  pure := .done
  bind := bind

def print (stream : Stream) (event : OutputEvent) : Behaviour Unit := .ask (.print stream event) .done

def tell (s : Signal) : Behaviour Unit := .ask (.tell s) .done

def read (logged : Bool) : Behaviour (Option String) := .ask (.read logged) .done

def awaitGate : Behaviour GateOutcome := .ask .awaitGate .done

def openGate : Behaviour Unit := .ask .openGate .done

def isCancelled : Behaviour Bool := .ask .isCancelled .done

def threadName : Behaviour String := .ask .threadName .done

def log (level : Log.Level) (message : String) : Behaviour Unit := .ask (.log level message) .done

end Behaviour

end Conduit

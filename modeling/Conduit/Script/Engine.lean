import Conduit.Engine.Basic
import Conduit.Script.Run

/-!
The engine for scripts, and running a script with nothing around it.
-/
namespace Conduit.Script

structure State where
  source : String
  program : Option Program := none

def unanalysedMessage : String := "execute called without a successful analysis"

open Behaviour in
def report (f : Fault) : Behaviour Unit := do
  let cancelled ← isCancelled
  if f.isTermination || cancelled then
    log .debug ("script terminated: " ++ f.text)
  else
    log .debug ("script failed: " ++ f.diagnostic.text)
    Behaviour.print .err (.line ("Runtime error: " ++ f.diagnostic.text))
    tell .runtimeError

open Behaviour in
def engine : Engine State where
  load source := { source }
  analyze _ s :=
    match parse s.source with
    | .ok program => do
      tell (.analysisFinished true)
      return (true, { s with program := some program })
    | .error f => do
      Behaviour.print .err (.line ("Syntax error: " ++ f.diagnostic.text))
      tell (.analysisFinished false)
      return (false, s)
  execute debug s :=
    match s.program with
    | none => do
      log .warn unanalysedMessage
      return s
    | some program => do
      tell .executionStarted
      tell (.stackPushed (Engine.globalScope (program.functions.map (·.name))))
      let setting : Setting := { program, debug }
      match ← setting.run with
      | none => pure ()
      | some f => report f
      tell .stackPopped
      tell .executionStopped
      return { s with program := none }

def unattended : Behaviour α → Option α
  | .done a => some a
  | .panic _ => none
  | .ask (.print _ _) next => unattended (next ())
  | .ask (.tell _) next => unattended (next ())
  | .ask (.read _) next => unattended (next none)
  | .ask .awaitGate next => unattended (next .resumed)
  | .ask .openGate next => unattended (next ())
  | .ask .isCancelled next => unattended (next false)
  | .ask .threadName next => unattended (next "")
  | .ask (.log _ _) next => unattended (next ())

def evaluate (source : String) : Option Diagnostic :=
  match parse source with
  | .error f =>
    some { f.diagnostic with message := "Syntax error: " ++ f.cause.message }
  | .ok program =>
    let setting : Setting := { program, console := false }
    ((unattended setting.run).bind id).map Fault.diagnostic

end Conduit.Script

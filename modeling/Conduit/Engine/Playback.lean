import Conduit.Engine.Basic
import Conduit.Json.Printer
import Conduit.Json.Reader
import Conduit.Output.Wire

/-!
The engine that plays back prescribed calls. Its source is a JSON object with a list of calls for each
phase; a source that is none prescribes nothing.
-/
namespace Conduit.Playback

inductive Call where
  | tell (signal : Signal)
  | print (stream : Stream) (event : OutputEvent)
  | awaitGate
  | openGate
  | read
  | outcome
  | isCancelled
  | returnIfCancelled
  | panic (message : Option String)
deriving DecidableEq, Repr

def streamNamed? (name : String) : Option Stream :=
  match name with
  | "out" | "iout" => some .out
  | "err" | "ierr" => some .err
  | _ => none

def text (v : Json) : String := v.str?.getD ""

def flag (v : Json) : Bool := v.bool?.getD false

def panicMessage (kind : String) (v : Json) : Option String :=
  match kind with
  | "str" => some "static panic"
  | "string" => some (text v)
  | _ => none

def callNamed? (name : String) (a b : Json) : Option Call :=
  match name with
  | "analysis_finished" => some (.tell (.analysisFinished (flag a)))
  | "execution_started" => some (.tell .executionStarted)
  | "execution_paused" => some (.tell (.executionPaused a.nat32? (flag b)))
  | "execution_stopped" => some (.tell .executionStopped)
  | "stack_pushed" =>
    some (.tell (.stackPushed { depth := a.nat64?.getD 0, name := text b, bindings := [] }))
  | "stack_popped" => some (.tell .stackPopped)
  | "read_executed" => some (.tell (.readExecuted (a.nat32?.getD 0)))
  | "runtime_error" => some (.tell .runtimeError)
  | "print" => (streamNamed? (text a)).map fun s => .print s (.text (text b))
  | "println" => (streamNamed? (text a)).map fun s => .print s (.line (text b))
  | "newline" => (streamNamed? (text a)).map fun s => .print s .newline
  | "stream" => (streamNamed? (text a)).map fun s => .print s (.line s.label)
  | "gate_wait" => some .awaitGate
  | "gate_resume" => some .openGate
  | "read" => some .read
  | "outcome" => some .outcome
  | "is_cancelled" => some .isCancelled
  | "return_if_cancelled" => some .returnIfCancelled
  | "panic" => some (.panic (panicMessage (text a) b))
  | _ => none

def callOf? : Json → Option Call
  | .arr (.str name :: args) => callNamed? name (args[0]?.getD .null) (args[1]?.getD .null)
  | _ => none

def callsOf (plan : Json) (phase : String) : List Call :=
  (((plan.get? phase).bind Json.list?).getD []).filterMap callOf?

def outcomeText : Option String → String
  | some line => (Json.obj [("line", .str line)]).text
  | none => (Json.str "cancelled").text

open Behaviour in
def play : List Call → Behaviour Unit
  | [] => .done ()
  | call :: rest => do
    match call with
    | .tell s => do
      Behaviour.tell s
      play rest
    | .print stream e => do
      Behaviour.print stream e
      play rest
    | .awaitGate => do
      let outcome ← Behaviour.awaitGate
      Behaviour.print .out (.line (match outcome with
        | .resumed => "Resumed"
        | .aborted => "Aborted"))
      play rest
    | .openGate => do
      Behaviour.openGate
      play rest
    | .read => do
      let line ← Behaviour.read true
      Behaviour.print .out (.line ("read:" ++ line.getD ""))
      play rest
    | .outcome => do
      let line ← Behaviour.read false
      Behaviour.print .out (.line (outcomeText line))
      play rest
    | .isCancelled => do
      let cancelled ← Behaviour.isCancelled
      Behaviour.print .out (.line (Gate.boolText cancelled))
      play rest
    | .returnIfCancelled => do
      if ← Behaviour.isCancelled then return
      play rest
    | .panic m => .panic m

def phaseName (phase : String) (debug : Bool) : String :=
  if debug then phase ++ "_debug" else phase

def engine : Engine Json where
  load source := (Json.parse? source).getD .null
  analyze debug plan := do
    play (callsOf plan (phaseName "analyze" debug))
    return ((plan.get? "ok").bind Json.bool? != some false, plan)
  execute debug plan := do
    play (callsOf plan (phaseName "execute" debug))
    return plan

end Conduit.Playback

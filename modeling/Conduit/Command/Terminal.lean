import Conduit.Bridge.Call
import Conduit.Command.Messages
import Conduit.Script.Engine
import Conduit.Session.Wire

/-!
A program at a terminal: the lines typed there are its input, or commands for the bridge if the host
resumes pauses.
-/
namespace Conduit

inductive Notice where
  | plain (text : String)
  | log (entry : Log.Entry)
  | event (e : Envelope)

def Notice.text : Notice → String
  | .plain text => text
  | .log entry => entry.line
  | .event e => e.text ++ "\n"

structure Emission where
  out : String := ""
  err : List Notice := []

def Emission.append (a b : Emission) : Emission := ⟨a.out ++ b.out, a.err ++ b.err⟩

structure Terminal where
  bridge : Bridge
  session : Nat
  /-- Some lines are commands. -/
  controls : Bool
  /-- No further line is looked at: one could not be read, or waits for room in the channel. -/
  closed : Bool := false

inductive Unstarted where
  | gaveUp (g : GivenUp)
  | panicked

namespace Terminal

def ofReply : Bridge.Reply → Except Unstarted Nat
  | .started id => .ok id
  | .failed e => .error (.gaveUp ⟨"Failed to start program", e.causes⟩)
  | _ => .error .panicked

def start (grants : Nat → Bool) (config : Config) (events : Bool) (source : String) :
    Except Unstarted Terminal :=
  let b := Bridge.create Script.engine grants (.capture "") config
  let b := if events then (b.perform 0 .subscribe).1 else b
  let (b, a) := b.perform 1 (.start source true)
  match a.reply.map ofReply with
  | some (.ok session) => .ok { bridge := b, session, controls := config.run.pause = .host }
  | some (.error u) => .error u
  | none => .error .panicked

def report? (t : Terminal) : Option RunReport := (t.bridge.find? t.session).bind Session.report?

def isFinished (t : Terminal) : Bool := t.report?.isSome

inductive Action where
  | input
  | resume
  | stop
deriving DecidableEq, Repr

def actionOf (controls : Bool) (line : String) : Action :=
  if controls then
    if Text.trim line = ":resume" then .resume
    else if Text.trim line = ":stop" then .stop
    else .input
  else .input

def command (t : Terminal) (call : Bridge.Call) : Terminal :=
  let (b, a) := t.bridge.perform 2 call
  match a.reply with
  | some (.failed e) => { t with bridge := b.note .host .warn .command e.message }
  | _ => { t with bridge := b }

def submit (t : Terminal) (line : String) : Terminal :=
  let (b, a) := t.bridge.perform 2 (.submit line)
  { t with bridge := b, closed := a.reply.isNone }

def unreadableMessage : String := "Failed to read stdin: " ++ FileFault.notText.message

def accept (t : Terminal) : Option String → Terminal
  | none => { t with bridge := t.bridge.note .host .warn .command unreadableMessage, closed := true }
  | some line =>
    match actionOf t.controls line with
    | .input => t.submit line
    | .resume => t.command .resume
    | .stop => t.command .stop

def acceptAll : Terminal → List (Option String) → Terminal
  | t, [] => t
  | t, line :: rest => if t.isFinished || t.closed then t else acceptAll (t.accept line) rest

def interrupt (t : Terminal) : Terminal := t.command (.cancel t.session)

def isShown (e : Log.Entry) : Bool := e.level.rank ≤ Log.Level.warn.rank

def take (t : Terminal) : Terminal × Emission :=
  let (b, entries) := t.bridge.takeJournal
  let (hub, events) := b.hub.receive 0
  let (sink, out) := b.sink.takeContents
  ({ t with bridge := { b with hub, sink } },
    ⟨out, (entries.filter isShown).map .log ++ events.map .event⟩)

end Terminal

def interruptedCode : Nat := 130

def RunOutcome.exitCode : RunOutcome → Nat
  | .completed => 0
  | .cancelled => interruptedCode
  | _ => 1

def decodedLines : List (List UInt8) → List (Option String)
  | [] => []
  | bytes :: rest =>
    match Text.decode? bytes with
    | some s => some s :: decodedLines rest
    | none => [none]

def typedLines (bytes : List UInt8) : List (Option String) := decodedLines (Text.byteLines bytes)

end Conduit

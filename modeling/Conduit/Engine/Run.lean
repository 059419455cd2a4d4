import Conduit.Channel.Basic
import Conduit.Engine.Behaviour

/-!
Carrying out a behaviour until it ends or has to wait for someone else.
-/
namespace Conduit

/-- The surroundings of one run: what it shares with others, its own gate and token, and whoever
listens to its signals. -/
structure Stage (ω : Type) where
  channel : Channel
  sink : Sink
  gate : Gate := {}
  cancelled : Bool := false
  audience : ω
  journal : List Log.Entry := []
  /-- Blocked writes that went on, by their tickets. -/
  admitted : List Nat := []

structure Worker (ω : Type) where
  thread : Log.Thread
  name : String
  /-- Under this ticket and token the worker waits for input. -/
  ticket : Nat
  hear : Signal → Stage ω → Stage ω

inductive Progress (α : Type) where
  | done (result : α)
  | panicked (message : Option String)
  | reading (logged : Bool) (next : Option String → Behaviour α)
  | paused (next : GateOutcome → Behaviour α)
  /-- Interrupted between two requests. -/
  | held (rest : Behaviour α)

namespace Stage

def note (st : Stage ω) (thread : Log.Thread) (level : Log.Level) (area : Log.Area)
    (message : String) : Stage ω :=
  { st with journal := st.journal ++ [⟨thread, level, area, message⟩] }

def print (st : Stage ω) (thread : Log.Thread) (stream : Stream) (e : OutputEvent) : Stage ω :=
  let (sink, logs) := Output.print thread stream st.sink e
  { st with sink, journal := st.journal ++ logs }

def writerTickets (served : List Channel.Served) : List Nat :=
  served.filterMap fun
    | .wrote ticket => some ticket
    | .read _ _ => none

def takeLine? (st : Stage ω) : Option (String × Stage ω) :=
  match st.channel.take? with
  | none => none
  | some (line, channel, served) =>
    some (line, { st with channel, admitted := st.admitted ++ writerTickets served })

def queueReader (st : Stage ω) (ticket : Nat) : Stage ω :=
  { st with channel := st.channel.enqueueReader ⟨ticket, some ticket⟩ }

def noteCalledOff (st : Stage ω) (thread : Log.Thread) (logged : Bool) : Stage ω :=
  if logged then st.note thread .debug .input Channel.readCancelledMessage else st

end Stage

namespace Behaviour

/-- Carries a behaviour out. It stops where it ends, where it waits for input or at a closed gate, and
after any print that `halt` asks to stop at. -/
def run (w : Worker ω) (halt : Stage ω → Bool) : Behaviour α → Stage ω → Stage ω × Progress α
  | .done a, st => (st, .done a)
  | .panic m, st => (st, .panicked m)
  | .ask (.print stream e) next, st =>
    let st := st.print w.thread stream e
    if halt st then (st, .held (next ())) else (next ()).run w halt st
  | .ask (.tell s) next, st => (next ()).run w halt (w.hear s st)
  | .ask (.read logged) next, st =>
    if st.cancelled then (next none).run w halt (st.noteCalledOff w.thread logged)
    else
      match st.takeLine? with
      | some (line, st) => (next (some line)).run w halt st
      | none => (st.queueReader w.ticket, .reading logged next)
  | .ask .awaitGate next, st =>
    match st.gate.wait with
    | (gate, some outcome) => (next outcome).run w halt { st with gate }
    | (gate, none) => ({ st with gate }, .paused next)
  | .ask .openGate next, st => (next ()).run w halt { st with gate := st.gate.resume }
  | .ask .isCancelled next, st => (next st.cancelled).run w halt st
  | .ask .threadName next, st => (next w.name).run w halt st
  | .ask (.log level message) next, st =>
    (next ()).run w halt (st.note w.thread level .script message)

def never (_ : Stage ω) : Bool := false

end Behaviour

end Conduit

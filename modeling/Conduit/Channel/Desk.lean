import Conduit.Channel.Basic
import Conduit.Log

/-!
A channel together with the tokens that call its waits off. The desk answers one call at a time: a
call that would block is kept by its ticket, and the call that lets it go on lists its reply.
-/
namespace Conduit

/-- What a read gives when its token is cancelled: word of it, or an empty line, which the log may
mention. -/
inductive Channel.OnCancel where
  | report
  | emptyLine
  | emptyLineLogged
deriving DecidableEq, Repr

inductive Channel.Call where
  | write (line : String) (token : Option Nat)
  | tryWrite (line : String)
  /-- Non-blocking writes of the line followed by 0, 1, and so on. -/
  | fill (line : String) (count : Nat)
  | read (token : Option Nat) (onCancel : Channel.OnCancel)
  | tryRead
  | clear
  | cancel (token : Nat)
deriving DecidableEq, Repr

inductive Channel.Reply where
  | queued
  | dropped
  | cancelled
  | accepted
  | full (limit : Nat)
  | line (text : String)
  | nothing
  | count (n : Nat)
  | done
deriving DecidableEq, Repr

structure ChannelDesk where
  channel : Channel
  cancelled : List Nat := []
  /-- How each blocked read wants its cancellation told. -/
  reads : List (Nat × Channel.OnCancel) := []

namespace ChannelDesk
open Channel

structure Answer where
  reply : Option Reply
  completed : List (Nat × Reply) := []
  logs : List Log.Entry := []

def isCancelled (d : ChannelDesk) (token : Nat) : Bool := d.cancelled.contains token

def calledOff (d : ChannelDesk) (token : Option Nat) : Bool := token.any d.isCancelled

def entry (thread : Log.Thread) (level : Log.Level) (message : String) : Log.Entry :=
  { thread, level, area := .input, message }

def servedReply : Served → Nat × Reply
  | .read ticket line => (ticket, .line line)
  | .wrote ticket => (ticket, .queued)

def cancelReply : OnCancel → Reply
  | .report => .cancelled
  | .emptyLine | .emptyLineLogged => .line ""

def cancelLogs (thread : Log.Thread) : OnCancel → List Log.Entry
  | .emptyLineLogged => [entry thread .debug readCancelledMessage]
  | .report | .emptyLine => []

def fillFrom (c : Channel) (line : String) (index : Nat) : Nat → Channel × List Served × Nat
  | 0 => (c, [], 0)
  | count + 1 =>
    match c.tryWrite (line ++ Decimal.natText index) with
    | none => (c, [], 0)
    | some (c', first) =>
      let (c'', served, n) := fillFrom c' line (index + 1) count
      (c'', first ++ served, n + 1)

def write (d : ChannelDesk) (ticket : Nat) (line : String) (token : Option Nat) :
    ChannelDesk × Answer :=
  match d.channel.whenFull with
  | .drop =>
    match d.channel.tryWrite line with
    | some (c, served) => ({ d with channel := c }, ⟨some .queued, served.map servedReply, []⟩)
    | none =>
      (d, ⟨some .dropped, [], [entry .host .warn (droppedMessage d.channel.limit line)]⟩)
  | .block =>
    if d.calledOff token then
      (d, ⟨some .cancelled, [], [entry .host .debug "input write abandoned: already cancelled"]⟩)
    else
      match d.channel.tryWrite line with
      | some (c, served) => ({ d with channel := c }, ⟨some .queued, served.map servedReply, []⟩)
      | none => ({ d with channel := d.channel.enqueueWriter ⟨ticket, token, line⟩ }, ⟨none, [], []⟩)

def read (d : ChannelDesk) (ticket : Nat) (token : Option Nat) (onCancel : OnCancel) :
    ChannelDesk × Answer :=
  if d.calledOff token then
    (d, ⟨some (cancelReply onCancel), [], cancelLogs .host onCancel⟩)
  else
    match d.channel.take? with
    | some (line, c, served) =>
      ({ d with channel := c }, ⟨some (.line line), served.map servedReply, []⟩)
    | none =>
      ({ d with
          channel := d.channel.enqueueReader ⟨ticket, token⟩
          reads := d.reads ++ [(ticket, onCancel)] }, ⟨none, [], []⟩)

def onCancelOf (d : ChannelDesk) (ticket : Nat) : OnCancel :=
  (d.reads.lookup ticket).getD .report

/-- The first cancellation of a token ends every blocked call that holds it; later ones do nothing. -/
def cancel (d : ChannelDesk) (token : Nat) : ChannelDesk × Answer :=
  if d.isCancelled token then (d, ⟨some .done, [], []⟩)
  else
    let readers := d.channel.readersOf token
    let writers := d.channel.writersOf token
    let replies :=
      readers.map (fun r => (r.ticket, cancelReply (d.onCancelOf r.ticket))) ++
        writers.map (fun w => (w.ticket, Reply.cancelled))
    let logs :=
      readers.flatMap (fun r => cancelLogs .helper (d.onCancelOf r.ticket)) ++
        writers.map (fun _ =>
          entry .helper .debug "input write abandoned: cancelled while waiting for space")
    ({ d with channel := d.channel.abandon token, cancelled := token :: d.cancelled },
      ⟨some .done, replies, entry .host .debug cancelMessage :: logs⟩)

def perform (d : ChannelDesk) (ticket : Nat) : Call → ChannelDesk × Answer
  | .write line token => d.write ticket line token
  | .tryWrite line =>
    match d.channel.tryWrite line with
    | some (c, served) => ({ d with channel := c }, ⟨some .accepted, served.map servedReply, []⟩)
    | none => (d, ⟨some (.full d.channel.limit), [], []⟩)
  | .fill line count =>
    let (c, served, n) := fillFrom d.channel line 0 count
    ({ d with channel := c }, ⟨some (.count n), served.map servedReply, []⟩)
  | .read token onCancel => d.read ticket token onCancel
  | .tryRead =>
    match d.channel.take? with
    | some (line, c, served) =>
      ({ d with channel := c }, ⟨some (.line line), served.map servedReply, []⟩)
    | none => (d, ⟨some .nothing, [], []⟩)
  | .clear =>
    let n := d.channel.size
    let (c, served) := d.channel.clear
    ({ d with channel := c },
      ⟨some (.count n), served.map servedReply,
        if 0 < n then [entry .host .debug (clearedMessage n)] else []⟩)
  | .cancel token => d.cancel token

end ChannelDesk

end Conduit

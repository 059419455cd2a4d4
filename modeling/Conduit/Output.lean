import Conduit.Decimal.Basic
import Conduit.Text.Quoted
import Conduit.Text.Utf8
import Conduit.Log

/-!
Program output. Every printer of a bridge passes its calls to one sink in the order received; a sink
posts them as events, captures their text or writes it to a byte writer.
-/
namespace Conduit

inductive Stream where
  | out
  | err
deriving DecidableEq, Repr

inductive OutputEvent where
  | text (text : String)
  | line (text : String)
  | newline
deriving DecidableEq, Repr

def OutputEvent.render : OutputEvent → String
  | .text t => t
  | .line t => t ++ "\n"
  | .newline => "\n"

structure ByteWriter where
  limit : Option Nat := none
  written : List UInt8 := []
  flushes : Nat := 0
deriving DecidableEq, Repr

namespace ByteWriter

def room (w : ByteWriter) (wanted : Nat) : Nat :=
  match w.limit with
  | none => wanted
  | some limit => min wanted (limit - w.written.length)

/-- Writes what fits of the bytes; only when all did is the writer flushed, and the flag says so. -/
def write (w : ByteWriter) (bytes : List UInt8) : ByteWriter × Bool :=
  let fits := w.room bytes.length
  let w := { w with written := w.written ++ bytes.take fits }
  if fits = bytes.length then ({ w with flushes := w.flushes + 1 }, true) else (w, false)

end ByteWriter

inductive Sink where
  /-- Events wait to be received; once the receiver is gone they are dropped. -/
  | mailbox (received : Bool) (waiting : List OutputEvent)
  | capture (contents : String)
  | writer (w : ByteWriter)

namespace Sink

def post (received : Bool) (waiting : List OutputEvent) (e : OutputEvent) : Sink :=
  .mailbox received (if received then waiting ++ [e] else waiting)

def writeAll (w : ByteWriter) (text : String) : Sink × Bool :=
  let (w, ok) := w.write (Text.encode text)
  (.writer w, ok)

def print (text : String) : Sink → Sink × Bool
  | .mailbox received waiting => (post received waiting (.text text), true)
  | .capture contents => (.capture (contents ++ text), true)
  | .writer w => writeAll w text

def println (text : String) : Sink → Sink × Bool
  | .mailbox received waiting => (post received waiting (.line text), true)
  | .capture contents => (.capture ((contents ++ text) ++ "\n"), true)
  | .writer w => writeAll w (text ++ "\n")

def newline : Sink → Sink × Bool
  | .mailbox received waiting => (post received waiting .newline, true)
  | .capture contents => (.capture (contents ++ "\n"), true)
  | .writer w => writeAll w "\n"

def emit (s : Sink) : OutputEvent → Sink × Bool
  | .text t => s.print t
  | .line t => s.println t
  | .newline => s.newline

def drain (s : Sink) : Sink × Option (List OutputEvent) :=
  match s with
  | .mailbox true waiting => (.mailbox true [], some waiting)
  | .mailbox false _ => (s, none)
  | _ => (s, some [])

def dropReceiver : Sink → Sink
  | .mailbox _ _ => .mailbox false []
  | s => s

def contents : Sink → String
  | .capture text => text
  | _ => ""

def takeContents : Sink → Sink × String
  | .capture text => (.capture "", text)
  | s => (s, "")

end Sink

namespace Stream

def label : Stream → String
  | .out => "Out"
  | .err => "Err"

def describeForwarder : String := "OutputForwarder \x7b .. \x7d"

def describePrinter (s : Stream) : String :=
  "Printer \x7b forwarder: " ++ describeForwarder ++ ", stream: " ++ s.label ++ " \x7d"

def traceMessage (s : Stream) : OutputEvent → String
  | .text t => "[" ++ s.label ++ "] print " ++ Text.quoted t
  | .line t => "[" ++ s.label ++ "] println " ++ Text.quoted t
  | .newline => "[" ++ s.label ++ "] newline"

end Stream

namespace Output

def failureEntry (thread : Log.Thread) : Log.Entry :=
  ⟨thread, .warn, .output, "failed to write program output: writer full"⟩

def forward (thread : Log.Thread) (s : Sink) (e : OutputEvent) : Sink × List Log.Entry :=
  match s.emit e with
  | (s', true) => (s', [])
  | (s', false) => (s', [failureEntry thread])

def print (thread : Log.Thread) (stream : Stream) (s : Sink) (e : OutputEvent) :
    Sink × List Log.Entry :=
  let (s', logs) := forward thread s e
  (s', ⟨thread, .trace, .output, stream.traceMessage e⟩ :: logs)

end Output

end Conduit

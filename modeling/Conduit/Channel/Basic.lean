import Conduit.Decimal.Basic
import Conduit.Gate

/-!
The bounded channel of input lines. Lines leave in the order in which they came. A read of an empty
channel and, under the blocking policy, a write to a full one are blocked and wait in a queue; they
are served in the order in which they blocked. A call is known by its ticket, and one that can be
called off also by its token.
-/
namespace Conduit

inductive FullPolicy where
  | block
  | drop
deriving DecidableEq, Repr

namespace Channel

structure Reader where
  ticket : Nat
  token : Option Nat
deriving DecidableEq, Repr

structure Writer where
  ticket : Nat
  token : Option Nat
  line : String
deriving DecidableEq, Repr

inductive Served where
  | read (ticket : Nat) (line : String)
  | wrote (ticket : Nat)
deriving DecidableEq, Repr

end Channel

structure Channel where
  limit : Nat
  whenFull : FullPolicy
  lines : List String := []
  readers : List Channel.Reader := []
  writers : List Channel.Writer := []
deriving DecidableEq, Repr

namespace Channel

def defaultCapacity : Nat := 100

/-- A channel holds at least one line, whatever capacity is asked for. -/
def ofCapacity (capacity : Nat) (whenFull : FullPolicy) : Channel :=
  { limit := max capacity 1, whenFull }

def size (c : Channel) : Nat := c.lines.length

def isFull (c : Channel) : Bool := c.limit ≤ c.lines.length

/-- Takes a line in: the oldest blocked reader gets it, or it goes to the end of the buffer. -/
def accept (c : Channel) (line : String) : Channel × List Served :=
  match c.readers with
  | r :: rs => ({ c with readers := rs }, [.read r.ticket line])
  | [] => ({ c with lines := c.lines ++ [line] }, [])

def tryWrite (c : Channel) (line : String) : Option (Channel × List Served) :=
  if c.isFull then none else some (c.accept line)

def enqueueWriter (c : Channel) (w : Writer) : Channel := { c with writers := c.writers ++ [w] }

def enqueueReader (c : Channel) (r : Reader) : Channel := { c with readers := c.readers ++ [r] }

/-- Takes the oldest line out; the oldest blocked writer gets the place. -/
def take? (c : Channel) : Option (String × Channel × List Served) :=
  match c.lines, c.writers with
  | [], _ => none
  | line :: rest, [] => some (line, { c with lines := rest }, [])
  | line :: rest, w :: ws =>
    some (line, { c with lines := rest ++ [w.line], writers := ws }, [.wrote w.ticket])

/-- Discards every buffered line; blocked writers then fill the places. -/
def clear (c : Channel) : Channel × List Served :=
  let admitted := c.writers.take c.limit
  ({ c with lines := admitted.map (·.line), writers := c.writers.drop c.limit },
    admitted.map fun w => .wrote w.ticket)

def readersOf (c : Channel) (token : Nat) : List Reader :=
  c.readers.filter fun r => r.token = some token

def writersOf (c : Channel) (token : Nat) : List Writer :=
  c.writers.filter fun w => w.token = some token

def abandon (c : Channel) (token : Nat) : Channel :=
  { c with
    readers := c.readers.filter fun r => r.token ≠ some token
    writers := c.writers.filter fun w => w.token ≠ some token }

def policyName : FullPolicy → String
  | .block => "Block"
  | .drop => "Drop"

def describe (c : Channel) : String :=
  "InputChannel \x7b len: " ++ Decimal.natText c.size ++ ", capacity: " ++ Decimal.natText c.limit ++
    ", when_full: " ++ policyName c.whenFull ++ " \x7d"

def describeToken (cancelled : Bool) : String :=
  "CancelToken \x7b cancelled: " ++ Gate.boolText cancelled ++ " \x7d"

def describeInput (c : Channel) (cancelled : Bool) : String :=
  "SessionInput \x7b channel: " ++ c.describe ++ ", cancel: " ++ describeToken cancelled ++ " \x7d"

def droppedMessage (limit : Nat) (line : String) : String :=
  "input channel full (" ++ Decimal.natText limit ++ " lines), dropping " ++
    Decimal.natText line.utf8ByteSize ++ " byte line"

def clearedMessage (count : Nat) : String :=
  "cleared " ++ Decimal.natText count ++ " stale input line(s)"

def readCancelledMessage : String := "input read cancelled, returning empty line"

def cancelMessage : String := "cancellation requested"

end Channel

end Conduit

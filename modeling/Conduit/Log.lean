/-!
Log entries. Each names the thread that wrote it, how severe it is and the area it is about.
-/
namespace Conduit.Log

inductive Level where
  | error | warn | info | debug | trace
deriving DecidableEq, Repr

def Level.rank : Level → Nat
  | .error => 0
  | .warn => 1
  | .info => 2
  | .debug => 3
  | .trace => 4

def Level.name : Level → String
  | .error => "ERROR"
  | .warn => "WARN"
  | .info => "INFO"
  | .debug => "DEBUG"
  | .trace => "TRACE"

inductive Thread where
  | host
  | helper
  | worker (session : Nat)
deriving DecidableEq, Repr

inductive Area where
  | input | output | control | config | script | command | shared
deriving DecidableEq, Repr

structure Entry where
  thread : Thread
  level : Level
  area : Area
  message : String
deriving DecidableEq, Repr

end Conduit.Log

import Conduit.Output
import Conduit.Json.Decode

/-!
Output events and streams in JSON. An event is its kind and, unless it is a bare line break, its text.
-/
namespace Conduit

namespace Stream

def name : Stream → String
  | .out => "out"
  | .err => "err"

def all : List Stream := [.out, .err]

def ofJson? : Json → Option Stream := Json.choice? name all

end Stream

namespace OutputEvent

inductive Kind where
  | text
  | line
  | newline
deriving DecidableEq, Repr

def Kind.name : Kind → String
  | .text => "text"
  | .line => "line"
  | .newline => "newline"

def Kind.all : List Kind := [.text, .line, .newline]

def toJson : OutputEvent → Json
  | .text t => .obj [("kind", .str "text"), ("text", .str t)]
  | .line t => .obj [("kind", .str "line"), ("text", .str t)]
  | .newline => .obj [("kind", .str "newline")]

def ofParts? : Kind → Option Json → Option OutputEvent
  | .text, some (.str t) => some (.text t)
  | .line, some (.str t) => some (.line t)
  | .newline, none | .newline, some .null => some .newline
  | _, _ => none

def ofJson? : Json → Option OutputEvent
  | .obj fields => do
    let kind ← Json.choice? Kind.name Kind.all (← Json.field? fields "kind")
    ofParts? kind (Json.field? fields "text")
  | .arr [kind, body] => do
    let kind ← Json.choice? Kind.name Kind.all kind
    ofParts? kind (some body)
  | _ => none

end OutputEvent

end Conduit

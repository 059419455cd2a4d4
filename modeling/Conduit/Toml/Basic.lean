/-!
TOML documents: values with the place in the source where each one stands.
-/
namespace Conduit.Toml

structure Span where
  before : Nat
  after : Nat
deriving DecidableEq, Repr

structure Key where
  name : String
  span : Span
deriving DecidableEq, Repr

/-- How a table came to be: by a header of its own or only on the way to another one, by a dotted
key, or inline. The span is that of its header or of its inline form. -/
structure TableHead where
  span : Option Span := none
  implicit : Bool := false
  dotted : Bool := false
  inline : Bool := false

inductive Node where
  | str (span : Span) (value : String)
  | int (span : Span) (value : Int)
  | float (span : Span) (value : Float)
  | bool (span : Span) (value : Bool)
  | date (span : Span)
  | array (span : Span) (items : List Node)
  | table (head : TableHead) (entries : List (Key × Node))
  /-- The tables that headers in double brackets gave under one name. -/
  | tables (items : List Node)

namespace Node

def span? : Node → Option Span
  | .str s _ | .int s _ | .float s _ | .bool s _ | .date s | .array s _ => some s
  | .table head _ => head.span
  | .tables items =>
    match items.head?, items.getLast? with
    | some (.table first _), some (.table last _) =>
      first.span.bind fun f => last.span.map fun l => ⟨f.before, l.after⟩
    | _, _ => none

def typeName : Node → String
  | .str .. => "string"
  | .int .. => "integer"
  | .float .. => "float"
  | .bool .. => "boolean"
  | .date .. => "datetime"
  | .array .. => "array"
  | .table head _ => if head.inline then "inline table" else "table"
  | .tables .. => "array of tables"

end Node

structure Table where
  head : TableHead := {}
  entries : List (Key × Node) := []

namespace Table

def node (t : Table) : Node := .table t.head t.entries

def find? (t : Table) (name : String) : Option Node :=
  (t.entries.find? fun e => e.1.name == name).map (·.2)

def append (t : Table) (key : Key) (n : Node) : Table := { t with entries := t.entries ++ [(key, n)] }

def replace (t : Table) (name : String) (n : Node) : Table :=
  { t with entries := t.entries.map fun e => if e.1.name == name then (e.1, n) else e }

def remove (t : Table) (name : String) : Table :=
  { t with entries := t.entries.filter fun e => e.1.name != name }

end Table

end Conduit.Toml

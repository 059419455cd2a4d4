import Conduit.Toml.Reader

/-!
A document put together from its lines. A header opens a table, which the pairs after it fill. No
table and no key may be given twice.
-/
namespace Conduit.Toml

structure Draft where
  root : Table := {}
  current : List Key := []

/-- Opens the table of a header. One that so far stood only on the way to another may be opened
once; it then comes after the keys that are there. -/
def openTable (key : Key) (span : Span) (parent : Table) : Option Table :=
  let head : TableHead := { span := some span }
  match parent.find? key.name with
  | none => some (parent.append key (.table head []))
  | some (.table old entries) =>
    if old.implicit && !old.dotted && !old.inline then
      some ((parent.remove key.name).append key (.table head entries))
    else none
  | some _ => none

def openItem (key : Key) (span : Span) (parent : Table) : Option Table :=
  let item : Node := .table { span := some span } []
  match parent.find? key.name with
  | none => some (parent.append key (.tables [item]))
  | some (.tables items) => some (parent.replace key.name (.tables (items ++ [item])))
  | some _ => none

def inTable (path : List Key) (change : Table → Option Table) (root : Table) : Option Table :=
  modifyAt false false change path root

def Draft.add (d : Draft) : Line → Option Draft
  | .pair path n => do
    let root ← inTable d.current (insert? false path n) d.root
    some { d with root }
  | .header path span => do
    let key ← path.getLast?
    let root ← inTable path.dropLast (openTable key span) d.root
    some { root, current := path }
  | .item path span => do
    let key ← path.getLast?
    let root ← inTable path.dropLast (openItem key span) d.root
    some { root, current := path }

def parse? (s : String) : Option Table := do
  let cs := dropMark s.toList
  let ls ← lines? (cs.length + 1) cs
  let d ← ls.foldlM Draft.add {}
  some d.root

end Conduit.Toml

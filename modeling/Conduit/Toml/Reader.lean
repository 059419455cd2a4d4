import Conduit.Toml.Scalar

/-!
Values, keys and lines of a TOML document.
-/
namespace Conduit.Toml

def isBareKeyChar (c : Char) : Bool := c.isAlphanum || c = '_' || c = '-'

def simpleKey? (cs : List Char) : Option (Key × List Char) :=
  let named (name : String) (rest : List Char) : Key × List Char :=
    (⟨name, ⟨cs.length, rest.length⟩⟩, rest)
  match cs with
  | '"' :: _ | '\'' :: _ => (lineString? cs).map fun (s, rest) => named s rest
  | _ =>
    match cs.takeWhile isBareKeyChar with
    | [] => none
    | name => some (named (String.ofList name) (cs.dropWhile isBareKeyChar))

def keyPath? : Nat → List Char → Option (List Key × List Char)
  | 0, _ => none
  | fuel + 1, cs => do
    let (key, rest) ← simpleKey? (skipSpace cs)
    match skipSpace rest with
    | '.' :: rest => do
      let (keys, rest) ← keyPath? fuel rest
      some (key :: keys, rest)
    | rest => some ([key], rest)

def skipComment? (cs : List Char) : Option (List Char) :=
  match cs with
  | '#' :: rest => some (rest.dropWhile isCommentChar)
  | _ => some cs

def skipFiller : Nat → List Char → List Char
  | 0, cs => cs
  | fuel + 1, cs =>
    let rest := skipSpace cs
    match rest with
    | '#' :: comment =>
      match newline? (comment.dropWhile isCommentChar) with
      | some rest => skipFiller fuel rest
      | none => rest
    | _ =>
      match newline? rest with
      | some rest => skipFiller fuel rest
      | none => rest

/-- The table at the end of a dotted key, made on the way where it is missing, with `change` applied
to it. A table that was given in full is closed to dotted keys, and an inline one to everything after
it. -/
def modifyAt (dotted inline : Bool) (change : Table → Option Table) :
    List Key → Table → Option Table
  | [], t => change t
  | key :: path, t =>
    match t.find? key.name with
    | none => do
      let child ← modifyAt dotted inline change path { head := { implicit := true, dotted, inline } }
      some (t.append key child.node)
    | some (.table head entries) =>
      if (dotted && !head.implicit) || (head.inline && !inline) then none
      else do
        let child ← modifyAt dotted inline change path ⟨head, entries⟩
        some (t.replace key.name child.node)
    | some (.tables items) =>
      match items.getLast? with
      | some (.table head entries) => do
        let child ← modifyAt dotted inline change path ⟨head, entries⟩
        some (t.replace key.name (.tables (items.dropLast ++ [child.node])))
      | _ => none
    | some _ => none

/-- Adds a value under a key that is not there yet. A table opened by a dotted key takes further
dotted keys only, any other table takes plain ones only. -/
def addValue (viaPath : Bool) (key : Key) (n : Node) (t : Table) : Option Table :=
  if t.head.dotted ≠ viaPath then none
  else if (t.find? key.name).isSome then none
  else some (t.append key n)

def insert? (inline : Bool) (path : List Key) (n : Node) (t : Table) : Option Table :=
  match path.getLast? with
  | none => none
  | some key =>
    let parents := path.dropLast
    modifyAt true inline (addValue (!parents.isEmpty) key n) parents t

def insertAll? (pairs : List (List Key × Node)) (t : Table) : Option Table :=
  pairs.foldlM (fun t (path, n) => insert? true path n t) t

def maxDepth : Nat := 80

def spanOf (cs rest : List Char) : Span := ⟨cs.length, rest.length⟩

def scalar? (cs : List Char) : Option (Node × List Char) :=
  match cs with
  | '"' :: _ | '\'' :: _ => (string? cs).map fun (s, rest) => (.str (spanOf cs rest) s, rest)
  | 't' :: _ => (word? "true" cs).map fun rest => (.bool (spanOf cs rest) true, rest)
  | 'f' :: _ => (word? "false" cs).map fun rest => (.bool (spanOf cs rest) false, rest)
  | _ =>
    if startsDate cs then (date? cs).map fun rest => (.date (spanOf cs rest), rest)
    else
      match float? cs with
      | some (x, rest) => some (.float (spanOf cs rest) x, rest)
      | none => (integer? cs).map fun (n, rest) => (.int (spanOf cs rest) n, rest)

mutual

def value? (depth : Nat) : Nat → List Char → Option (Node × List Char)
  | 0, _ => none
  | fuel + 1, cs =>
    match cs with
    | '[' :: rest =>
      if depth + 1 < maxDepth then do
        let (items, rest) ← items? (depth + 1) fuel (skipFiller rest.length rest)
        some (.array (spanOf cs rest) items, rest)
      else none
    | '\x7b' :: rest =>
      if depth + 1 < maxDepth then do
        let (pairs, rest) ← match skipSpace rest with
          | '\x7d' :: rest => some ([], rest)
          | rest => pairs? (depth + 1) fuel rest
        let head : TableHead := { span := some (spanOf cs rest), inline := true }
        let t ← insertAll? pairs { head }
        some (t.node, rest)
      else none
    | _ => scalar? cs

def items? (depth : Nat) : Nat → List Char → Option (List Node × List Char)
  | 0, _ => none
  | fuel + 1, cs =>
    match cs with
    | ']' :: rest => some ([], rest)
    | _ => do
      let (n, rest) ← value? depth fuel cs
      match skipFiller rest.length rest with
      | ']' :: rest => some ([n], rest)
      | ',' :: rest => do
        let (ns, rest) ← items? depth fuel (skipFiller rest.length rest)
        some (n :: ns, rest)
      | _ => none

def pairs? (depth : Nat) : Nat → List Char → Option (List (List Key × Node) × List Char)
  | 0, _ => none
  | fuel + 1, cs => do
    let (path, rest) ← keyPath? cs.length cs
    let rest ← char? '=' rest
    let (n, rest) ← value? depth fuel (skipSpace rest)
    match skipSpace rest with
    | '\x7d' :: rest => some ([(path, n)], rest)
    | ',' :: rest => do
      let (ps, rest) ← pairs? depth fuel rest
      some ((path, n) :: ps, rest)
    | _ => none

end

inductive Line where
  | pair (path : List Key) (value : Node)
  | header (path : List Key) (span : Span)
  | item (path : List Key) (span : Span)

def header? (cs : List Char) : Option (Line × List Char) :=
  match cs with
  | '[' :: '[' :: rest => do
    let (path, rest) ← keyPath? rest.length rest
    let rest ← char? ']' rest
    let rest ← char? ']' rest
    some (.item path (spanOf cs rest), rest)
  | '[' :: rest => do
    let (path, rest) ← keyPath? rest.length rest
    let rest ← char? ']' rest
    some (.header path (spanOf cs rest), rest)
  | _ => none

def pair? (cs : List Char) : Option (Line × List Char) := do
  let (path, rest) ← keyPath? cs.length cs
  let rest ← char? '=' rest
  let (n, rest) ← value? 0 (rest.length + 1) (skipSpace rest)
  some (.pair path n, rest)

def endOfLine? (cs : List Char) : Option (List Char) := do
  let rest ← skipComment? (skipSpace cs)
  match rest with
  | [] => some []
  | _ => newline? rest

def lines? : Nat → List Char → Option (List Line)
  | 0, _ => none
  | fuel + 1, cs =>
    match skipSpace cs with
    | [] => some []
    | '#' :: rest => do
      lines? fuel (← endOfLine? ('#' :: rest))
    | '[' :: rest => do
      let (line, rest) ← header? ('[' :: rest)
      let ls ← lines? fuel (← endOfLine? rest)
      some (line :: ls)
    | cs =>
      match newline? cs with
      | some rest => lines? fuel rest
      | none => do
        let (line, rest) ← pair? cs
        let ls ← lines? fuel (← endOfLine? rest)
        some (line :: ls)

def dropMark (cs : List Char) : List Char :=
  match cs with
  | c :: rest => if c.toNat = 0xFEFF then rest else cs
  | [] => []

end Conduit.Toml

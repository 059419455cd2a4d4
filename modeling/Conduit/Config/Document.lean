import Conduit.Config.Basic
import Conduit.Toml.Document
import Conduit.Toml.Fault
import Conduit.Toml.Writer

/-!
Settings as a TOML document. Settings are read in document order and the first bad one is reported;
one that is left out has its default and keys that mean nothing are passed over.
-/
namespace Conduit.Config
open Toml (Node Fault Misfit Span)

def misfit (n : Node) (m : Misfit) : Except Fault α := .error ⟨m, n.span?⟩

def wrongType (n : Node) (expected : String) : Except Fault α :=
  misfit n (.wrongType n.described expected)

def natOf : Node → Except Fault Nat
  | .int span v => if 0 ≤ v then .ok v.toNat else misfit (.int span v) (.negative v)
  | n => wrongType n "usize"

def boolOf : Node → Except Fault Bool
  | .bool _ b => .ok b
  | n => wrongType n "a boolean"

def textOf : Node → Except Fault String
  | .str _ s => .ok s
  | n => wrongType n "a string"

def named (name : α → String) (all : List α) (span : Option Span) (s : String) : Except Fault α :=
  match all.find? fun a => name a == s with
  | some a => .ok a
  | none => .error ⟨.unknownName s (all.map name), span⟩

def nothingIn : Node → Except Fault Unit
  | .table _ [] => .ok ()
  | .table head entries => misfit (.table head entries) .choiceFilled
  | n => misfit n (.choiceNotTable n.typeName)

/-- An alternative is a string or a table with that one key, which has nothing in it. -/
def choiceOf (name : α → String) (all : List α) (n : Node) : Except Fault α :=
  match n with
  | .str span s => named name all (some span) s
  | .table _ [] => misfit n .choiceMissing
  | .table _ [(key, body)] => do
    let a ← named name all (some key.span) key.name
    nothingIn body
    .ok a
  | .table _ _ => misfit n .choiceRepeated
  | _ => misfit n .noChoice

structure Setting where
  name : String
  key : Option Span
  value : Node

def settingsOf (expected : String) (names : List String) : Node → Except Fault (List Setting)
  | .table _ entries => .ok (entries.map fun (key, n) => ⟨key.name, some key.span, n⟩)
  | .array _ items | .tables items => .ok ((names.zip items).map fun (name, n) => ⟨name, none, n⟩)
  | .date _ => .ok []
  | n => wrongType n expected

def Setting.read (s : Setting) (decode : Node → Except Fault α) : Except Fault α :=
  match decode s.value with
  | .ok a => .ok a
  | .error f => .error (f.placedAt (s.value.span? <|> s.key))

def addInput (i : InputSettings) (s : Setting) : Except Fault InputSettings := do
  match s.name with
  | "capacity" => .ok { i with capacity := ← s.read natOf }
  | "when_full" => .ok { i with whenFull := ← s.read (choiceOf FullPolicy.name FullPolicy.all) }
  | _ => .ok i

def addRun (r : RunSettings) (s : Setting) : Except Fault RunSettings := do
  match s.name with
  | "pause" => .ok { r with pause := ← s.read (choiceOf PausePolicy.name PausePolicy.all) }
  | "overlap" => .ok { r with overlap := ← s.read (choiceOf OverlapPolicy.name OverlapPolicy.all) }
  | "debug" => .ok { r with debug := ← s.read boolOf }
  | "thread_name" => .ok { r with threadName := ← s.read textOf }
  | "stack_size" => .ok { r with stackSize := some (← s.read natOf) }
  | _ => .ok r

def inputOf (n : Node) : Except Fault InputSettings := do
  (← settingsOf "struct InputSettings" ["capacity", "when_full"] n).foldlM addInput {}

def runOf (n : Node) : Except Fault RunSettings := do
  (← settingsOf "struct RunSettings" ["pause", "overlap", "debug", "thread_name", "stack_size"]
    n).foldlM addRun {}

def addGroup (c : Config) (s : Setting) : Except Fault Config := do
  match s.name with
  | "input" => .ok { c with input := ← s.read inputOf }
  | "run" => .ok { c with run := ← s.read runOf }
  | _ => .ok c

def ofTable (t : Toml.Table) : Except Fault Config :=
  (t.entries.map fun (key, n) => Setting.mk key.name (some key.span) n).foldlM addGroup {}

def toToml? (c : Config) : Option String := do
  let capacity ← Toml.natText? c.input.capacity
  let stack ← match c.run.stackSize with
    | none => some ""
    | some n => (Toml.natText? n).map fun t => "stack_size = " ++ t ++ "\n"
  some <|
    "[input]\n" ++
    "capacity = " ++ capacity ++ "\n" ++
    "when_full = " ++ Toml.stringText c.input.whenFull.name ++ "\n\n" ++
    "[run]\n" ++
    "pause = " ++ Toml.stringText c.run.pause.name ++ "\n" ++
    "overlap = " ++ Toml.stringText c.run.overlap.name ++ "\n" ++
    "debug = " ++ (if c.run.debug then "true" else "false") ++ "\n" ++
    "thread_name = " ++ Toml.stringText c.run.threadName ++ "\n" ++ stack

def defaultDocument : String := String.join [
  "# runbridge configuration file\n",
  "\n",
  "[input]\n",
  "# Number of submitted lines the input channel buffers\n",
  "capacity = 100\n",
  "\n",
  "# What happens to a submitted line when the channel is full:\n",
  "# \"block\" waits for the program to read, \"drop\" discards the line\n",
  "when_full = \"block\"\n",
  "\n",
  "[run]\n",
  "# What happens when a program reaches a pause checkpoint:\n",
  "# \"auto-resume\" continues immediately, \"host\" waits for resume/stop\n",
  "pause = \"auto-resume\"\n",
  "\n",
  "# What happens when a run starts while another is still going:\n",
  "# \"interleave\" lets both run, \"queue\" waits for the earlier run,\n",
  "# \"supersede\" cancels the earlier run\n",
  "overlap = \"interleave\"\n",
  "\n",
  "# Passed to the engine's analysis and execution phases\n",
  "debug = false\n",
  "\n",
  "# Worker threads are named \"<thread_name>-<session id>\"\n",
  "thread_name = \"runbridge-worker\"\n",
  "\n",
  "# Worker stack size in bytes (platform default when unset)\n",
  "# stack_size = 8388608\n"]

end Conduit.Config

import Conduit.Config.Basic

/-!
The arguments of the command line. Options may stand before and after the file, and none may be given
twice.
-/
namespace Conduit

structure RunOptions where
  file : String
  pause : Option PausePolicy := none
  overlap : Option OverlapPolicy := none
  debug : Bool := false
  events : Bool := false
  config : Option String := none
deriving DecidableEq, Repr

inductive Command where
  | run (options : RunOptions)
  | check (file : String)
  | config (init path : Bool)
  | version
deriving DecidableEq, Repr

inductive Invocation where
  | command (c : Command)
  | version
  | help
  | misuse
deriving DecidableEq, Repr

namespace Arguments

inductive Stop where
  | help
  | misuse
deriving DecidableEq, Repr

inductive Form where
  | plain
  /-- Everything after it is plain. -/
  | divider
  | long (name : String) (value : Option String)
  | short (letter : Char) (rest : List Char)
deriving DecidableEq, Repr

def form (s : String) : Form :=
  match s.toList with
  | '-' :: '-' :: [] => .divider
  | '-' :: '-' :: cs =>
    let value := match cs.dropWhile (· ≠ '=') with
      | [] => none
      | _ :: v => some (String.ofList v)
    .long (String.ofList (cs.takeWhile (· ≠ '='))) value
  | '-' :: c :: cs => .short c cs
  | _ => .plain

structure Draft where
  file : Option String := none
  pause : Option PausePolicy := none
  overlap : Option OverlapPolicy := none
  config : Option String := none
  /-- The names of the flags that were given. -/
  flags : List String := []

structure Known where
  file : Bool := false
  flags : List String := []
  valued : List String := []

def putFile (k : Known) (d : Draft) (s : String) : Except Stop Draft :=
  if k.file ∧ d.file.isNone ∧ s ≠ "" then .ok { d with file := some s } else .error .misuse

def putFlag (k : Known) (d : Draft) (name : String) : Except Stop Draft :=
  if name = "help" then .error .help
  else if k.flags.contains name && !d.flags.contains name then
    .ok { d with flags := name :: d.flags }
  else .error .misuse

def putValue (d : Draft) (name value : String) : Except Stop Draft :=
  match name with
  | "pause" =>
    match d.pause, PausePolicy.ofArgument value with
    | none, .ok p => .ok { d with pause := some p }
    | _, _ => .error .misuse
  | "overlap" =>
    match d.overlap, OverlapPolicy.ofArgument value with
    | none, .ok p => .ok { d with overlap := some p }
    | _, _ => .error .misuse
  | _ =>
    if d.config.isNone ∧ value ≠ "" then .ok { d with config := some value } else .error .misuse

def putFiles (k : Known) : Draft → List String → Except Stop Draft
  | d, [] => .ok d
  | d, s :: rest => do putFiles k (← putFile k d s) rest

def longName : Char → String
  | 'c' => "config"
  | 'h' => "help"
  | _ => ""

def attached : List Char → String
  | '=' :: cs => String.ofList cs
  | cs => String.ofList cs

def readFrom (k : Known) : Draft → List String → Except Stop Draft
  | d, [] => .ok d
  | d, a :: rest =>
    match form a with
    | .plain => do readFrom k (← putFile k d a) rest
    | .divider => putFiles k d rest
    | .long name (some value) =>
      if k.valued.contains name then do readFrom k (← putValue d name value) rest
      else .error .misuse
    | .long name none =>
      if k.valued.contains name then takeNext k d name rest
      else do readFrom k (← putFlag k d name) rest
    | .short letter cs =>
      let name := longName letter
      if k.valued.contains name then
        if cs.isEmpty then takeNext k d name rest
        else do readFrom k (← putValue d name (attached cs)) rest
      else if name = "help" then .error .help
      else .error .misuse
where
  /-- The value of an option is the next argument. -/
  takeNext (k : Known) (d : Draft) (name : String) : List String → Except Stop Draft
    | [] => .error .misuse
    | v :: rest =>
      match form v with
      | .plain => do readFrom k (← putValue d name v) rest
      | _ => .error .misuse

def runKnown : Known :=
  { file := true, flags := ["debug", "events"], valued := ["pause", "overlap", "config"] }

def configKnown : Known := { flags := ["init", "path"] }

def ofStop : Stop → Invocation
  | .help => .help
  | .misuse => .misuse

def complete (k : Known) (args : List String) (f : Draft → Option Command) : Invocation :=
  match readFrom k {} args with
  | .error s => ofStop s
  | .ok d =>
    match f d with
    | some c => .command c
    | none => .misuse

def runOf (d : Draft) : Option Command :=
  d.file.map fun file => .run
    { file, pause := d.pause, overlap := d.overlap, config := d.config
      debug := d.flags.contains "debug", events := d.flags.contains "events" }

def configOf (d : Draft) : Option Command :=
  some (.config (d.flags.contains "init") (d.flags.contains "path"))

end Arguments

open Arguments in
def Invocation.ofArguments : List String → Invocation
  | "run" :: rest => complete runKnown rest runOf
  | "check" :: rest => complete { file := true } rest fun d => d.file.map .check
  | "config" :: rest => complete configKnown rest configOf
  | "version" :: rest => complete {} rest fun _ => some .version
  | "help" :: _ => .help
  | a :: _ =>
    if a = "--version" ∨ a = "-V" then .version
    else if a = "--help" ∨ a = "-h" then .help
    else .misuse
  | [] => .misuse

end Conduit

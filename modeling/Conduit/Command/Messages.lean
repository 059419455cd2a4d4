import Conduit.Error
import Conduit.Log
import Conduit.Text.Lines

/-!
What the command says besides the output of a program: its log on the error stream, and why it gave
up.
-/
namespace Conduit

def Log.Area.path : Log.Area → String
  | .input => "runbridge_core::input"
  | .output => "runbridge_core::output"
  | .control => "runbridge_core::controller"
  | .config => "runbridge_core::config"
  | .script => "runbridge_rhai::engine"
  | .command => "runbridge::run"
  | .shared => "runbridge_core::global"

def Log.Level.column (l : Log.Level) : String :=
  l.name ++ String.ofList (List.replicate (5 - l.name.length) ' ')

def Log.Entry.line (e : Log.Entry) : String :=
  "[" ++ e.level.column ++ " " ++ e.area.path ++ "] " ++
    Text.indentAfterBreaks "    " e.message ++ "\n"

structure GivenUp where
  context : String
  causes : List String := []

namespace GivenUp

def numbered (n : Nat) : List String → String
  | [] => ""
  | cause :: rest =>
    "\n    " ++ Decimal.natText n ++ ": " ++ Text.indentAfterBreaks "       " cause ++
      numbered (n + 1) rest

def causesText : List String → String
  | [] => ""
  | [cause] => "\n\nCaused by:\n    " ++ Text.indentAfterBreaks "    " cause
  | causes => "\n\nCaused by:" ++ numbered 0 causes

def text (g : GivenUp) : String := "Error: " ++ g.context ++ causesText g.causes ++ "\n"

end GivenUp

def Error.causes (e : Error) : List String :=
  match e with
  | .file fault => [e.message, fault.message]
  | .grammar | .document _ _ => e.message :: e.documentText?.toList
  | .tooLarge => [e.message, "out-of-range value for u64 type"]
  | _ => [e.message]

def GivenUp.ofError (e : Error) : GivenUp :=
  match e.causes with
  | [] => ⟨"", []⟩
  | first :: rest => ⟨first, rest⟩

end Conduit

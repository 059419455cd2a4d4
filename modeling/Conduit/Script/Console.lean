import Conduit.Script.Eval
import Conduit.Text.Blank

/-!
The functions that every script has. Those of the console are there only for a script that has one.
-/
namespace Conduit.Script

structure Setting where
  program : Program
  console : Bool := true
  /-- Each printed line is a checkpoint. -/
  debug : Bool := false

namespace Eval

def abortedMessage : String := "print checkpoint aborted"

/-- Prints a line. In debug mode a checkpoint follows, at the line of the call where it is known. -/
def printLine (s : Setting) (text : String) (line : Option Nat) : Eval Unit := do
  if s.console then
    ask (.print .out (.line text))
    if s.debug then
      ask (.tell (.executionPaused line true))
      let outcome : GateOutcome ← ask .awaitGate
      match outcome with
      | .resumed => pure ()
      | .aborted => ask (.log .debug abortedMessage)
    else pure ()
  else pure ()

def logValue (s : Setting) (text : String) (place : Position) : Eval Unit :=
  if s.console then ask (.log .debug ("[script] (" ++ place.text ++ ") " ++ text)) else pure ()

def readLine (place : Position) : Eval String := do
  let line : Option String ← ask (.read true)
  let cancelled : Bool ← ask .isCancelled
  if cancelled then fail .terminated place
  else
    ask (.tell (.readExecuted place.line))
    pure (line.getD "")

def integerMessage (line : String) : String := "expected an integer, got '" ++ line ++ "'"

def readInt (place : Position) : Eval Int := do
  let line ← readLine place
  match Decimal.int64? (Text.trim line) with
  | some n => pure n
  | none => fail (.thrown (.text (integerMessage line))) place

def pause (place : Position) : Eval Unit := do
  ask (.tell (.executionPaused (some place.line) false))
  let outcome : GateOutcome ← ask .awaitGate
  match outcome with
  | .resumed => pure ()
  | .aborted => fail .terminated place

structure Applied where
  result : Value
  receiver : Option Value := none

def consoleFunction (name : String) (args : List Value) (place : Position) : Eval Applied := do
  match name, args with
  | "write", [v] => do
    ask (.print .out (.text v.shown))
    pure ⟨.unit, none⟩
  | "newline", [] => do
    ask (.print .out .newline)
    pure ⟨.unit, none⟩
  | "read_line", [] => pure ⟨.text (← readLine place), none⟩
  | "read_int", [] => pure ⟨.int (← readInt place), none⟩
  | "pause", [] => do
    pause place
    pure ⟨.unit, none⟩
  | name, args => fail (Operation.notFound name args) place

def native (s : Setting) (name : String) (args : List Value) (place : Position) : Eval Applied :=
  match name, args with
  | "print", [] => do
    printLine s "" none
    pure ⟨.unit, none⟩
  | "print", [v] => do
    printLine s v.shown (some place.line)
    pure ⟨.unit, none⟩
  | "debug", [] => do
    logValue s "" place
    pure ⟨.unit, none⟩
  | "debug", [v] => do
    logValue s v.nested place
    pure ⟨.unit, none⟩
  | "len", [.text t] => pure ⟨.int t.length, none⟩
  | "len", [.array items] => pure ⟨.int items.length, none⟩
  | "len", [.map entries] => pure ⟨.int entries.length, none⟩
  | "push", [.array items, v] => pure ⟨.unit, some (.array (items ++ [v]))⟩
  | "pop", [.array items] =>
    pure ⟨items.getLast?.getD .unit, some (.array items.dropLast)⟩
  | name, args =>
    if s.console then consoleFunction name args place
    else fail (Operation.notFound name args) place

/-- Calls a function that the script did not define. A run that was called off while its arguments
were evaluated gets no further. -/
def builtIn (s : Setting) (name : String) (args : List Value) (place : Position) : Eval Applied := do
  poll place
  native s name args place

end Eval

end Conduit.Script

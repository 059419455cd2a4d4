import Conduit.Decimal.Basic
import Conduit.Engine.Basic
import Conduit.Text.Blank
import Conduit.Text.Lines

/-!
The line-oriented engine: one statement to a line, the command up to the first space and its argument
after it. Lines that are blank say nothing.
-/
namespace Conduit.Scripted

inductive Statement where
  | print (text : String)
  | println (text : String)
  | newline
  | read (lead : String)
  | pause (line : UInt32)
  | error (message : String)
  | sleep (milliseconds : Nat)
  | threadName
  | panic
deriving DecidableEq, Repr

structure Step where
  line : UInt32
  statement : Statement
deriving DecidableEq, Repr

abbrev Program := List Step

def splitCommand (s : String) : String × String :=
  let cs := s.toList
  (String.ofList (cs.takeWhile (· ≠ ' ')), String.ofList ((cs.dropWhile (· ≠ ' ')).drop 1))

def statementOf (line : UInt32) (raw : String) : Except String Statement :=
  let (command, arg) := splitCommand raw
  match command with
  | "print" => .ok (.print arg)
  | "println" => .ok (.println arg)
  | "newline" => .ok .newline
  | "read" => .ok (.read arg)
  | "pause" =>
    .ok (.pause (((Decimal.natBelow? UInt32.size (Text.trim arg)).map .ofNat).getD line))
  | "error" => .ok (.error arg)
  | "sleep" => .ok (.sleep ((Decimal.natBelow? UInt64.size (Text.trim arg)).getD 0))
  | "thread-name" => .ok .threadName
  | "panic" => .ok .panic
  | "syntax" => .error ("line " ++ Decimal.natText line.toNat ++ ": " ++ arg)
  | other =>
    .error ("line " ++ Decimal.natText line.toNat ++ ": unknown statement '" ++ other ++ "'")

/-- The statements of the lines from number `line` on. A step has 32 bits for its number. -/
def programFrom (line : Nat) : List String → Except String Program
  | [] => .ok []
  | raw :: rest =>
    if Text.isBlankText raw then programFrom (line + 1) rest
    else
      match statementOf (.ofNat line) raw with
      | .error m => .error m
      | .ok s =>
        match programFrom (line + 1) rest with
        | .error m => .error m
        | .ok steps => .ok (⟨.ofNat line, s⟩ :: steps)

def parse (source : String) : Except String Program := programFrom 1 (Text.lines source)

open Behaviour in
/-- Carries out the statements one after the other, until one ends the program or the run is found to
be cancelled. -/
def execute : Program → Behaviour Unit
  | [] => .done ()
  | ⟨line, s⟩ :: rest => do
    let goOn : Behaviour Unit := do
      if ← isCancelled then return else execute rest
    match s with
    | .print t => do
      Behaviour.print .out (.text t)
      goOn
    | .println t => do
      Behaviour.print .out (.line t)
      goOn
    | .newline => do
      Behaviour.print .out .newline
      goOn
    | .read lead => do
      let input ← Behaviour.read true
      if ← isCancelled then return
      tell (.readExecuted line.toNat)
      Behaviour.print .out (.line (lead ++ input.getD ""))
      goOn
    | .pause at_ => do
      tell (.executionPaused (some at_.toNat) false)
      match ← awaitGate with
      | .aborted => return
      | .resumed => goOn
    | .error m => do
      Behaviour.print .err (.line m)
      tell .runtimeError
    | .sleep _ => goOn
    | .threadName => do
      Behaviour.print .out (.line (← Behaviour.threadName))
      goOn
    | .panic => .panic (some ("scripted panic on line " ++ Decimal.natText line.toNat))

structure State where
  source : String
  program : Program := []

open Behaviour in
def engine : Engine State where
  load source := { source }
  analyze _ s :=
    match parse s.source with
    | .ok program => do
      tell (.analysisFinished true)
      return (true, { s with program })
    | .error m => do
      Behaviour.print .err (.line ("syntax error: " ++ m))
      tell (.analysisFinished false)
      return (false, s)
  execute _ s := do
    tell .executionStarted
    tell (.stackPushed (Engine.globalScope []))
    execute s.program
    tell .stackPopped
    tell .executionStopped
    return { s with program := [] }

end Conduit.Scripted

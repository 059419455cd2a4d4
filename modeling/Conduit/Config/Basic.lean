import Conduit.Channel.Basic
import Conduit.Text.Blank

/-!
Settings of a bridge, their defaults and when they are valid.
-/
namespace Conduit

inductive PausePolicy where
  | autoResume
  | host
deriving DecidableEq, Repr

inductive OverlapPolicy where
  | interleave
  | queue
  | supersede
deriving DecidableEq, Repr

structure InputSettings where
  capacity : Nat := Channel.defaultCapacity
  whenFull : FullPolicy := .block
deriving DecidableEq, Repr

structure RunSettings where
  pause : PausePolicy := .autoResume
  overlap : OverlapPolicy := .interleave
  debug : Bool := false
  threadName : String := "runbridge-worker"
  stackSize : Option Nat := none
deriving DecidableEq, Repr

structure Config where
  input : InputSettings := {}
  run : RunSettings := {}
deriving DecidableEq, Repr

/-! Names under which policies are stored, and their names in descriptions. -/

def FullPolicy.name : FullPolicy → String
  | .block => "block"
  | .drop => "drop"

def PausePolicy.name : PausePolicy → String
  | .autoResume => "auto-resume"
  | .host => "host"

def OverlapPolicy.name : OverlapPolicy → String
  | .interleave => "interleave"
  | .queue => "queue"
  | .supersede => "supersede"

def PausePolicy.label : PausePolicy → String
  | .autoResume => "AutoResume"
  | .host => "Host"

def OverlapPolicy.label : OverlapPolicy → String
  | .interleave => "Interleave"
  | .queue => "Queue"
  | .supersede => "Supersede"

def FullPolicy.all : List FullPolicy := [.block, .drop]
def PausePolicy.all : List PausePolicy := [.autoResume, .host]
def OverlapPolicy.all : List OverlapPolicy := [.interleave, .queue, .supersede]

def PausePolicy.ofArgument (s : String) : Except String PausePolicy :=
  if s = "auto-resume" ∨ s = "auto" then .ok .autoResume
  else if s = "host" then .ok .host
  else .error ("unknown pause policy '" ++ s ++ "' (expected auto-resume or host)")

def OverlapPolicy.ofArgument (s : String) : Except String OverlapPolicy :=
  if s = "interleave" then .ok .interleave
  else if s = "queue" then .ok .queue
  else if s = "supersede" then .ok .supersede
  else .error ("unknown overlap policy '" ++ s ++ "' (expected interleave, queue or supersede)")

namespace Config

def invalid? (c : Config) : Option String :=
  if c.input.capacity = 0 then some "input.capacity must be at least 1"
  else if Text.isBlankText c.run.threadName then some "run.thread_name must not be empty"
  else if c.run.stackSize = some 0 then some "run.stack_size must not be 0"
  else none

end Config

end Conduit

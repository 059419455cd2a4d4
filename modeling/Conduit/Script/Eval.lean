import Conduit.Engine.Behaviour
import Conduit.Script.Operation

/-!
The evaluation of a script as a behaviour. An evaluation passes its outcome on to the one that follows
it, so that however deep a script nests, its next request is at hand.
-/
namespace Conduit.Script

structure Slot where
  name : String
  value : Value
  constant : Bool

structure Env where
  scope : List Slot := []
  depth : Nat := 0

inductive Exit where
  | fault (f : Fault)
  | returned (v : Value)
  /-- Out of a loop, which gets the value. -/
  | left (v : Value)
  /-- On to the next round of a loop. -/
  | skipped

abbrev Conduct := Behaviour (Option Fault)

def Eval (α : Type) : Type := Env → (Except Exit α → Env → Conduct) → Conduct

namespace Eval

instance : Monad Eval where
  pure a := fun env k => k (.ok a) env
  bind m f := fun env k => m env fun r env =>
    match r with
    | .ok a => f a env k
    | .error x => k (.error x) env

def raise (x : Exit) : Eval α := fun env k => k (.error x) env

def fail (cause : Cause) (place : Position) : Eval α := raise (.fault (.plain cause place))

def capture (m : Eval α) : Eval (Except Exit α) := fun env k => m env fun r env => k (.ok r) env

def ofExcept (place : Position) : Except Cause α → Eval α
  | .ok a => pure a
  | .error cause => fail cause place

def ofFault : Except Fault α → Eval α
  | .ok a => pure a
  | .error f => raise (.fault f)

def ofOutcome : Except Exit α → Eval α
  | .ok a => pure a
  | .error x => raise x

def ask (r : Request) : Eval r.Reply := fun env k => .ask r fun reply => k (.ok reply) env

def poll (place : Position) : Eval Unit := do
  let cancelled : Bool ← ask .isCancelled
  if cancelled then fail .terminated place else pure ()

def env : Eval Env := fun env k => k (.ok env) env

def setEnv (e : Env) : Eval Unit := fun _ k => k (.ok ()) e

def bindSlot (s : Slot) : Eval Unit := do
  let e ← env
  setEnv { e with scope := s :: e.scope }

def find (name : String) (place : Position) : Eval Slot := do
  match (← env).scope.find? (·.name = name) with
  | some s => pure s
  | none => fail (.variableNotFound name) place

def update (name : String) (v : Value) : List Slot → List Slot
  | [] => []
  | s :: rest => if s.name = name then { s with value := v } :: rest else s :: update name v rest

def store (name : String) (v : Value) : Eval Unit := do
  let e ← env
  setEnv { e with scope := update name v e.scope }

def inBlock (m : Eval α) : Eval α := do
  let size := (← env).scope.length
  let r ← capture m
  let e ← env
  setEnv { e with scope := e.scope.drop (e.scope.length - size) }
  ofOutcome r

def round (m : Eval Value) : Eval (Option Value) := do
  match ← capture m with
  | .ok _ => pure none
  | .error .skipped => pure none
  | .error (.left v) => pure (some v)
  | .error x => raise x

def forListed (body : Value → Eval (Option Value)) : List Value → Eval Value
  | [] => pure .unit
  | v :: rest => do
    match ← body v with
    | some result => pure result
    | none => forListed body rest

def forCounting (body : Value → Eval (Option Value)) (i : Int) : Nat → Eval Value
  | 0 => pure .unit
  | n + 1 => do
    match ← body (.int i) with
    | some result => pure result
    | none => forCounting body (i + 1) n

def forItems (body : Value → Eval (Option Value)) : Value.Items → Eval Value
  | .counting first count => forCounting body first count
  | .listed values => forListed body values

end Eval

end Conduit.Script

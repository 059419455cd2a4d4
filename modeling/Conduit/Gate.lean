import Conduit.Decimal.Basic

/-!
A pause gate with one permit. A wait passes when the permit is there and uses it up; an aborted gate
lets every wait go at once.
-/
namespace Conduit

inductive GateOutcome where
  | resumed
  | aborted
deriving DecidableEq, Repr

structure Gate where
  permit : Bool := false
  aborted : Bool := false
  waiting : Bool := false
  resumed : UInt32 := 0
deriving DecidableEq, Repr

namespace Gate

def resume (g : Gate) : Gate := { g with permit := true }

def abort (g : Gate) : Gate := { g with aborted := true }

def passes (g : Gate) : Bool := g.aborted || g.permit

def wait (g : Gate) : Gate × Option GateOutcome :=
  if g.aborted then ({ g with waiting := false }, some .aborted)
  else if g.permit then
    ({ g with permit := false, waiting := false, resumed := g.resumed + 1 }, some .resumed)
  else ({ g with waiting := true }, none)

def boolText (b : Bool) : String := if b then "true" else "false"

def describe (g : Gate) : String :=
  "PauseGate \x7b waiting: " ++ boolText g.waiting ++ ", aborted: " ++ boolText g.aborted ++
    ", resumed: " ++ Decimal.natText g.resumed.toNat ++ " \x7d"

inductive Call where
  | resume
  | abort
  | wait
deriving DecidableEq, Repr

end Gate

structure GateDesk where
  gate : Gate := {}
  blocked : List Nat := []

namespace GateDesk

def retry (gate : Gate) : List Nat → GateDesk × List (Nat × GateOutcome)
  | [] => (⟨gate, []⟩, [])
  | t :: ts =>
    match gate.wait with
    | (g, some outcome) =>
      let (desk, released) := retry g ts
      (desk, (t, outcome) :: released)
    | (_, none) =>
      let (desk, released) := retry gate ts
      ({ desk with blocked := t :: desk.blocked }, released)

structure Answer where
  reply : Option GateOutcome := none
  completed : List (Nat × GateOutcome) := []

def perform (d : GateDesk) (ticket : Nat) : Gate.Call → GateDesk × Answer
  | .resume =>
    let (desk, released) := retry d.gate.resume d.blocked
    (desk, { completed := released })
  | .abort =>
    let (desk, released) := retry d.gate.abort d.blocked
    (desk, { completed := released })
  | .wait =>
    match d.gate.wait with
    | (g, some outcome) => ({ d with gate := g }, { reply := some outcome })
    | (g, none) => ({ gate := g, blocked := d.blocked ++ [ticket] }, {})

end GateDesk

end Conduit

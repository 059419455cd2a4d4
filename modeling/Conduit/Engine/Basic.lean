import Conduit.Engine.Behaviour

/-!
An engine analyses a program and then executes it. What it learns in between is its state.
-/
namespace Conduit

structure Engine (σ : Type) where
  load : String → σ
  /-- The flag of the result says whether execution may follow. -/
  analyze : Bool → σ → Behaviour (Bool × σ)
  execute : Bool → σ → Behaviour σ

inductive Ending where
  | rejected
  | cancelled
  | executed
deriving DecidableEq, Repr

namespace Engine

def globalScope (functions : List String) : ScopeInfo :=
  { depth := 1, name := "global", bindings := functions }

/-- The whole work on one program. A run that was cancelled before an engine is there never gets one,
and cancellation is looked at again after each phase. -/
def drive (e : Engine σ) (debug : Bool) (source : String) : Behaviour Ending := do
  if ← Behaviour.isCancelled then return .cancelled
  let (accepted, s) ← e.analyze debug (e.load source)
  if accepted then
    if ← Behaviour.isCancelled then return .cancelled
    let _ ← e.execute debug s
    if ← Behaviour.isCancelled then return .cancelled
    return .executed
  else
    return .rejected

end Engine

end Conduit

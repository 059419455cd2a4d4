import Conduit.Decimal.Basic

/-!
Places in a script. Lines count from one and columns are characters of their line; column zero stands
before the first one. Both are sixteen bits wide and stop at the greatest number.
-/
namespace Conduit.Script

structure Position where
  line : Nat
  column : Nat
deriving DecidableEq, Repr

namespace Position

def last : Nat := 65535

def start : Position := ⟨1, 0⟩

def right (p : Position) (n : Nat) : Position := { p with column := min last (p.column + n) }

def next (p : Position) : Position := p.right 1

/-- Where no further line is counted the column stays too. -/
def nextLine (p : Position) : Position := if p.line < last then ⟨p.line + 1, 0⟩ else p

def text (p : Position) : String :=
  "line " ++ Decimal.natText p.line ++ ", position " ++ Decimal.natText p.column

end Position

end Conduit.Script

/-!
JSON values. A number is an integer when it is written without fraction and exponent and fits in 64
bits, signed or unsigned; every other number keeps its spelling.
-/
namespace Conduit

inductive Json where
  | null
  | bool (b : Bool)
  | int (n : Int)
  | decimal (spelling : String)
  | str (s : String)
  | arr (items : List Json)
  | obj (fields : List (String × Json))
deriving Repr, Inhabited

namespace Json

def field? (fields : List (String × Json)) (name : String) : Option Json :=
  (fields.reverse.find? fun f => f.1 == name).map (·.2)

def get? : Json → String → Option Json
  | .obj fields, name => field? fields name
  | _, _ => none

def str? : Json → Option String
  | .str s => some s
  | _ => none

def bool? : Json → Option Bool
  | .bool b => some b
  | _ => none

def natBelow? (bound : Nat) : Json → Option Nat
  | .int n => if 0 ≤ n ∧ n < bound then some n.toNat else none
  | _ => none

def nat32? : Json → Option Nat := natBelow? UInt32.size

def uint32? (v : Json) : Option UInt32 := v.nat32?.map .ofNat

def nat64? : Json → Option Nat := natBelow? UInt64.size

def list? : Json → Option (List Json)
  | .arr items => some items
  | _ => none

def nat (n : Nat) : Json := .int n

def opt (f : α → Json) : Option α → Json
  | none => .null
  | some a => f a

end Json

end Conduit

import Conduit.Decimal.Basic

/-!
A message about a program, with the place it is about where that is known. Lines and columns count
from one; a column is shown only after a line.
-/
namespace Conduit

structure Diagnostic where
  message : String
  line : Option Nat
  column : Option Nat
deriving DecidableEq, Repr

def Diagnostic.text (d : Diagnostic) : String :=
  match d.line, d.column with
  | some l, some c =>
    "line " ++ Decimal.natText l ++ ", column " ++ Decimal.natText c ++ ": " ++ d.message
  | some l, none => "line " ++ Decimal.natText l ++ ": " ++ d.message
  | none, _ => d.message

end Conduit

/-!
Decimal numerals: writing naturals and integers, and reading them back within a range.
-/
namespace Conduit.Decimal

def digitChar (d : Nat) : Char := Char.ofNat (48 + d)

def isDigit (c : Char) : Bool := 48 ≤ c.toNat && c.toNat ≤ 57

def digitValue (c : Char) : Nat := c.toNat - 48

def digits (n : Nat) : List Char :=
  if n < 10 then [digitChar n] else digits (n / 10) ++ [digitChar (n % 10)]

def ofDigits (cs : List Char) : Nat := cs.foldl (fun n c => 10 * n + digitValue c) 0

def signedDigits (n : Int) : List Char :=
  if n < 0 then '-' :: digits n.natAbs else digits n.natAbs

def natText (n : Nat) : String := String.ofList (digits n)

def intText (n : Int) : String := String.ofList (signedDigits n)

def ofDigits? (cs : List Char) : Option Nat :=
  if cs ≠ [] ∧ cs.all isDigit then some (ofDigits cs) else none

def natBelow? (bound : Nat) (s : String) : Option Nat :=
  let body := match s.toList with
    | '+' :: rest => rest
    | cs => cs
  (ofDigits? body).filter (· < bound)

def minInt64 : Int := -9223372036854775808
def maxInt64 : Int := 9223372036854775807

def fitsInt64 (n : Int) : Bool := minInt64 ≤ n && n ≤ maxInt64

def int? (s : String) : Option Int :=
  match s.toList with
  | '-' :: rest => (ofDigits? rest).map fun n => -(n : Int)
  | '+' :: rest => (ofDigits? rest).map fun n => (n : Int)
  | cs => (ofDigits? cs).map fun n => (n : Int)

def ofInt64? (n : Int) : Option Int := if fitsInt64 n then some n else none

/-- One more digit behind those read so far, whose value is `n`. Below zero digits are taken away, since
the range reaches further down than up; neither of the two steps may leave it. -/
def pushDigit? (negative : Bool) (n : Int) (c : Char) : Option Int := do
  if isDigit c then
    let shifted ← ofInt64? (10 * n)
    ofInt64? (if negative then shifted - digitValue c else shifted + digitValue c)
  else none

def ofDigits64? (negative : Bool) (cs : List Char) : Option Int :=
  if cs = [] then none else cs.foldlM (pushDigit? negative) 0

def int64? (s : String) : Option Int :=
  match s.toList with
  | '-' :: rest => ofDigits64? true rest
  | '+' :: rest => ofDigits64? false rest
  | cs => ofDigits64? false cs

end Conduit.Decimal

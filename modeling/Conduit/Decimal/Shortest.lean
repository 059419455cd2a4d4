import Conduit.Decimal.Basic

/-!
The shortest decimal that reads back as a given binary floating-point number. A finite number is
`m * 2 ^ q`; the reals that round to it form an interval, whose ends belong to it when `m` is even.
For one, two, and so on digits the two neighbours of the number on the decimal grid of that many
digits are tried, and the first grid with a neighbour in the interval wins.
-/
namespace Conduit.Decimal

inductive Binary where
  | nan
  | infinite (negative : Bool)
  | finite (negative : Bool) (mantissa : Nat) (exponent : Int)

def Binary.ofBits (bits : Nat) : Binary :=
  let negative := decide ((bits / Nat.pow 2 63) % 2 = 1)
  let biased : Nat := bits / Nat.pow 2 52 % Nat.pow 2 11
  let fraction := bits % Nat.pow 2 52
  if biased = 2047 then if fraction = 0 then .infinite negative else .nan
  else if biased = 0 then .finite negative fraction (-1074)
  else .finite negative (Nat.pow 2 52 + fraction) ((biased : Int) - 1075)

/-- Digits `d₁ d₂ …` and a point position: the value is `0.d₁d₂… * 10 ^ point`. -/
structure Digits where
  digits : List Char
  point : Int

structure Interval where
  low : Nat
  value : Nat
  high : Nat
  denominator : Nat
  closed : Bool

def Interval.ofBinary (m : Nat) (q : Int) : Interval :=
  let below := if m = Nat.pow 2 52 ∧ -1074 < q then 1 else 2
  let up := Nat.pow 2 (q - 2).toNat
  { low := (4 * m - below) * up
    value := 4 * m * up
    high := (4 * m + 2) * up
    denominator := Nat.pow 2 (2 - q).toNat
    closed := m % 2 = 0 }

def leadingZeros (n d : Nat) : Nat → Nat
  | 0 => 0
  | fuel + 1 => if d ≤ n * 10 then 0 else leadingZeros (n * 10) d fuel + 1

/-- The position of the decimal point: the least `k` with `n / d < 10 ^ k`. -/
def magnitude (n d : Nat) : Int :=
  if d ≤ n then ((digits (n / d)).length : Int) else -(leadingZeros n d 400 : Int)

/-- The grid point with numerator `c` when a unit is `10 ^ -scale`, compared with the interval. -/
def Interval.holds (i : Interval) (c : Nat) (scale : Int) : Bool :=
  let p := c * i.denominator * Nat.pow 10 (-scale).toNat
  let lo := i.low * Nat.pow 10 scale.toNat
  let hi := i.high * Nat.pow 10 scale.toNat
  if i.closed then lo ≤ p && p ≤ hi else lo < p && p < hi

def Interval.neighbour? (i : Interval) (scale : Int) : Option Nat :=
  let v := i.value * Nat.pow 10 scale.toNat
  let unit := i.denominator * Nat.pow 10 (-scale).toNat
  let c := v / unit
  let down := i.holds c scale
  let up := i.holds (c + 1) scale
  if down && up then
    if 2 * (v % unit) < unit ∨ (2 * (v % unit) = unit ∧ c % 2 = 0) then some c else some (c + 1)
  else if down then some c
  else if up then some (c + 1)
  else none

def Interval.search (i : Interval) (k : Int) (count : Nat) : Nat → Nat × Int
  | 0 => (i.value / i.denominator, 0)
  | fuel + 1 =>
    let scale := (count : Int) - k
    match i.neighbour? scale with
    | some c => (c, scale)
    | none => i.search k (count + 1) fuel

def dropTrailingZeros (cs : List Char) : List Char := (cs.reverse.dropWhile (· = '0')).reverse

def shortest (m : Nat) (q : Int) : Digits :=
  let i := Interval.ofBinary m q
  let k := magnitude i.value i.denominator
  let (c, scale) := i.search k 1 17
  let ds := digits c
  { digits := dropTrailingZeros ds, point := (ds.length : Int) - scale }

/-- How a number is laid out: in which range of point positions it is written positionally, and
whether a whole number shows a fraction. -/
structure Layout where
  lowest : Option Int
  highest : Option Int
  wholeFraction : Bool
  nan : String := "NaN"
  infinity : String := "inf"

def Layout.isPositional (l : Layout) (point : Int) : Bool :=
  l.lowest.all (· ≤ point) && l.highest.all (point ≤ ·)

def positional (l : Layout) (d : Digits) : List Char :=
  let n := d.digits.length
  if d.point ≤ 0 then '0' :: '.' :: (List.replicate (-d.point).toNat '0' ++ d.digits)
  else if (n : Int) ≤ d.point then
    d.digits ++ List.replicate (d.point.toNat - n) '0' ++
      (if l.wholeFraction then ['.', '0'] else [])
  else d.digits.take d.point.toNat ++ '.' :: d.digits.drop d.point.toNat

def scientific (d : Digits) : List Char :=
  let mantissa := match d.digits with
    | [] => ['0']
    | [c] => [c]
    | c :: cs => c :: '.' :: cs
  mantissa ++ 'e' :: signedDigits (d.point - 1)

def Layout.chars (l : Layout) : Binary → List Char
  | .nan => l.nan.toList
  | .infinite negative => (if negative then ['-'] else []) ++ l.infinity.toList
  | .finite negative 0 _ =>
    (if negative then ['-'] else []) ++ '0' :: (if l.wholeFraction then ['.', '0'] else [])
  | .finite negative m q =>
    let d := shortest m q
    (if negative then ['-'] else []) ++
      if l.isPositional d.point then positional l d else scientific d

def Layout.text (l : Layout) (x : Float) : String :=
  String.ofList (l.chars (Binary.ofBits x.toBits.toNat))

/-- The number `0.digits * 10 ^ point` in floating point. Exponents that no finite number reaches are
cut first. -/
def toFloat (mantissa : Nat) (exponent : Int) : Float :=
  if mantissa = 0 then 0.0
  else if 400 < exponent then 1.0 / 0.0
  else if exponent < 0 then
    if (digits mantissa).length + 400 < exponent.natAbs then 0.0
    else Float.ofScientific mantissa true exponent.natAbs
  else Float.ofScientific mantissa false exponent.natAbs

end Conduit.Decimal

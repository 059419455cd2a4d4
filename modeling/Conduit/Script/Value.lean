import Conduit.Decimal.Shortest
import Conduit.Text.Quoted

/-!
The values of a script and their text.
-/
namespace Conduit.Script

/-- Integers have sixty-four bits and a sign. The entries of a map stand in the order of their keys. -/
inductive Value where
  | unit
  | bool (b : Bool)
  | int (n : Int)
  | float (x : Float)
  | char (c : Char)
  | text (s : String)
  | array (items : List Value)
  | map (entries : List (String × Value))
  /-- The integers from `low` up to `high`, which counts only if it is `closed`. -/
  | range (low high : Int) (closed : Bool)

namespace Value

def typeName : Value → String
  | unit => "()"
  | bool _ => "bool"
  | int _ => "i64"
  | float _ => "f64"
  | char _ => "char"
  | text _ => "string"
  | array _ => "array"
  | map _ => "map"
  | range _ _ closed => if closed then "range=" else "range"

def signatureName : Value → String
  | text _ => "&str | ImmutableString | String"
  | v => v.typeName

def boolText (b : Bool) : String := if b then "true" else "false"

def rangeText (low high : Int) (closed : Bool) : String :=
  Decimal.intText low ++ (if closed then "..=" else "..") ++ Decimal.intText high

/-- A number on its own is positional between `1e-13` and `1e13` and shows a fraction there. -/
def positionalLayout : Decimal.Layout := { lowest := none, highest := none, wholeFraction := true }

def scientificLayout : Decimal.Layout :=
  { lowest := some 1, highest := some 0, wholeFraction := false }

/-- A number in a collection is positional from `1e-4` up to `1e16`. -/
def nestedLayout : Decimal.Layout :=
  { lowest := some (-3), highest := some 16, wholeFraction := true }

def floatText (x : Float) : String :=
  let size := x.abs
  if size == 0.0 then "0.0"
  else if size > 1e13 || size < 1e-13 then scientificLayout.text x
  else positionalLayout.text x

mutual

def nested : Value → String
  | unit => "()"
  | bool b => boolText b
  | int n => Decimal.intText n
  | float x => nestedLayout.text x
  | char c => String.singleton c
  | text s => Text.quoted s
  | array items => "[" ++ nestedItems items ++ "]"
  | map entries => "#\x7b" ++ nestedEntries entries ++ "\x7d"
  | range low high closed => rangeText low high closed

def nestedItems : List Value → String
  | [] => ""
  | [v] => v.nested
  | v :: rest => v.nested ++ ", " ++ nestedItems rest

def nestedEntries : List (String × Value) → String
  | [] => ""
  | [(k, v)] => Text.quoted k ++ ": " ++ v.nested
  | (k, v) :: rest => Text.quoted k ++ ": " ++ v.nested ++ ", " ++ nestedEntries rest

end

def shown : Value → String
  | unit => ""
  | float x => floatText x
  | text s => s
  | v => v.nested

def number? : Value → Option Float
  | int n => some (Float.ofInt n)
  | float x => some x
  | _ => none

def string? : Value → Option String
  | char c => some (String.singleton c)
  | text s => some s
  | _ => none

mutual

/-- Numbers are equal by their values; other values of different types are never equal. -/
def equals : Value → Value → Bool
  | unit, unit => true
  | bool a, bool b => a == b
  | int a, int b => a == b
  | int a, float b => Float.ofInt a == b
  | float a, int b => a == Float.ofInt b
  | float a, float b => a == b
  | char a, char b => a == b
  | char a, text b => String.singleton a == b
  | text a, char b => a == String.singleton b
  | text a, text b => a == b
  | array as, array bs => equalItems as bs
  | map as, map bs => equalEntries as bs
  | range a b c, range a' b' c' => a == a' && b == b' && c == c'
  | _, _ => false

def equalItems : List Value → List Value → Bool
  | [], [] => true
  | a :: as, b :: bs => a.equals b && equalItems as bs
  | _, _ => false

def equalEntries : List (String × Value) → List (String × Value) → Bool
  | [], [] => true
  | (k, a) :: as, (l, b) :: bs => k == l && a.equals b && equalEntries as bs
  | _, _ => false

end

def lookUp (key : String) (entries : List (String × Value)) : Option Value :=
  (entries.find? (·.1 = key)).map (·.2)

def insertEntry (key : String) (v : Value) : List (String × Value) → List (String × Value)
  | [] => [(key, v)]
  | (k, w) :: rest =>
    if key = k then (key, v) :: rest
    else if key < k then (key, v) :: (k, w) :: rest
    else (k, w) :: insertEntry key v rest

def ofEntries (entries : List (String × Value)) : Value :=
  .map (entries.foldl (fun acc (k, v) => insertEntry k v acc) [])

inductive Items where
  | counting (first : Int) (count : Nat)
  | listed (values : List Value)

def items? : Value → Option Items
  | array items => some (.listed items)
  | text s => some (.listed (s.toList.map .char))
  | range low high closed =>
    some (.counting low ((high - low) + (if closed then 1 else 0)).toNat)
  | _ => none

end Value

end Conduit.Script

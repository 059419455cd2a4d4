import Conduit.Script.Fault
import Conduit.Script.Syntax

/-!
What the operators do. Integer results must fit in sixty-four bits with a sign.
-/
namespace Conduit.Script

namespace Operation

def signature (name : String) (args : List Value) : String :=
  name ++ " (" ++ ", ".intercalate (args.map Value.signatureName) ++ ")"

def notFound (name : String) (args : List Value) : Cause := .functionNotFound (signature name args)

def checked (op : Operator) (a b r : Int) : Except Cause Value :=
  if Decimal.fitsInt64 r then .ok (.int r) else .error (.overflow op a b)

def divide (a b : Int) : Except Cause Value :=
  if b = 0 then .error (.divisionByZero a b) else checked .div a b (a.tdiv b)

def remainder (a b : Int) : Except Cause Value :=
  if b = 0 ∨ (a = Decimal.minInt64 ∧ b = -1) then .error (.remainder a b) else .ok (.int (a.tmod b))

/-- A power. Only zero and the units stay small for large exponents. -/
def power (a b : Int) : Except Cause Value :=
  if b < 0 then .error (.negativePower a b)
  else if (UInt32.size : Int) ≤ b then .error (.overflow .pow a b)
  else if a.natAbs ≤ 1 then .ok (.int (a.pow (if b = 0 then 0 else if b % 2 = 0 then 2 else 1)))
  else if 64 ≤ b then .error (.overflow .pow a b)
  else checked .pow a b (a.pow b.toNat)

def shiftBits (a : Int) (n : Nat) : Int :=
  if 64 ≤ n then 0 else (Int64.ofInt (a * Nat.pow 2 n)).toInt

def unshiftBits (a : Int) (n : Nat) : Int :=
  if 64 ≤ n then (if a < 0 then -1 else 0) else a.fdiv (Nat.pow 2 n)

def shift (a b : Int) : Int :=
  if b < 0 then unshiftBits a b.natAbs else shiftBits a b.natAbs

def bitwise (f : Int64 → Int64 → Int64) (a b : Int) : Value :=
  .int (f (Int64.ofInt a) (Int64.ofInt b)).toInt

def onInts (op : Operator) (a b : Int) : Except Cause Value :=
  match op with
  | .add => checked .add a b (a + b)
  | .sub => checked .sub a b (a - b)
  | .mul => checked .mul a b (a * b)
  | .div => divide a b
  | .mod => remainder a b
  | .pow => power a b
  | .shl => .ok (.int (shift a b))
  | .shr => .ok (.int (shift a (-b)))
  | .ampersand => .ok (bitwise (· &&& ·) a b)
  | .pipe => .ok (bitwise (· ||| ·) a b)
  | .xor => .ok (bitwise (· ^^^ ·) a b)
  | .eq => .ok (.bool (a == b))
  | .ne => .ok (.bool (a != b))
  | .lt => .ok (.bool (a < b))
  | .le => .ok (.bool (a ≤ b))
  | .gt => .ok (.bool (b < a))
  | .ge => .ok (.bool (b ≤ a))
  | .range => .ok (.range a b false)
  | .rangeTo => .ok (.range a b true)
  | .and | .or => .error (notFound op.text [.int a, .int b])

def floatRemainder (a b : Float) : Float :=
  match Decimal.Binary.ofBits a.toBits.toNat, Decimal.Binary.ofBits b.toBits.toNat with
  | .finite negative m p, .finite _ n q =>
    if n = 0 then 0.0 / 0.0
    else
      let e := min p q
      let r := (m * Nat.pow 2 (p - e).toNat) % (n * Nat.pow 2 (q - e).toNat)
      let x := (Float.ofNat r).scaleB e
      if negative then -x else x
  | .finite _ _ _, .infinite _ => a
  | _, _ => 0.0 / 0.0

def onFloats? (op : Operator) (a b : Float) : Option Value :=
  match op with
  | .add => some (.float (a + b))
  | .sub => some (.float (a - b))
  | .mul => some (.float (a * b))
  | .div => some (.float (a / b))
  | .mod => some (.float (floatRemainder a b))
  | .pow => some (.float (a.pow b))
  | .eq => some (.bool (a == b))
  | .ne => some (.bool (a != b))
  | .lt => some (.bool (a < b))
  | .le => some (.bool (a ≤ b))
  | .gt => some (.bool (b < a))
  | .ge => some (.bool (b ≤ a))
  | _ => none

def onBools? (op : Operator) (a b : Bool) : Option Value :=
  match op with
  | .ampersand => some (.bool (a && b))
  | .pipe => some (.bool (a || b))
  | .xor | .ne => some (.bool (a != b))
  | .eq => some (.bool (a == b))
  | .lt => some (.bool (!a && b))
  | .le => some (.bool (!a || b))
  | .gt => some (.bool (a && !b))
  | .ge => some (.bool (a || !b))
  | _ => none

def withoutPiece (s piece : String) : String :=
  if piece.isEmpty then s else "".intercalate (s.splitOn piece)

def onTexts? (op : Operator) (a b : String) : Option Value :=
  match op with
  | .add => some (.text (a ++ b))
  | .sub => some (.text (withoutPiece a b))
  | .eq => some (.bool (a == b))
  | .ne => some (.bool (a != b))
  | .lt => some (.bool (a < b))
  | .le => some (.bool (!(b < a)))
  | .gt => some (.bool (b < a))
  | .ge => some (.bool (!(a < b)))
  | _ => none

/-- Values of one type that only have equality, and values of different types: those are unequal, and
neither comes before the other. -/
def onOthers? (op : Operator) (a b : Value) : Option Value :=
  let ordered := match a, b with
    | .unit, .unit => true
    | a, b => a.typeName ≠ b.typeName
  match op with
  | .eq => some (.bool (a.equals b))
  | .ne => some (.bool (!(a.equals b)))
  | .lt | .le | .gt | .ge => if ordered then some (.bool false) else none
  | _ => none

def binary? (op : Operator) (a b : Value) : Option Value :=
  match a, b with
  | .bool x, .bool y => onBools? op x y
  | .array xs, .array ys => if op = .add then some (.array (xs ++ ys)) else onOthers? op a b
  | .map xs, .map ys =>
    if op = .add then some (.map (ys.foldl (fun acc (k, v) => Value.insertEntry k v acc) xs))
    else onOthers? op a b
  | a, b =>
    match a.number?, b.number?, a.string?, b.string? with
    | some x, some y, _, _ => onFloats? op x y
    | _, _, some x, some y => onTexts? op x y
    | _, _, _, _ =>
      match op, a, b with
      | .add, .text x, b => some (.text (x ++ b.shown))
      | .add, a, .text y => some (.text (a.shown ++ y))
      | op, a, b => onOthers? op a b

def binary (op : Operator) (a b : Value) : Except Cause Value :=
  match a, b with
  | .int x, .int y => onInts op x y
  | a, b =>
    match binary? op a b with
    | some v => .ok v
    | none => .error (notFound op.text [a, b])

/-- Combines the old value with the new one for an assignment: a value that is no array is added to an
array as its last item. -/
def combine (op : Operator) (old new : Value) : Except Cause Value :=
  match op, old, new with
  | .add, .array xs, .array ys => .ok (.array (xs ++ ys))
  | .add, .array xs, v => .ok (.array (xs ++ [v]))
  | op, old, new => binary op old new

def unary (op : UnaryOperator) (v : Value) : Except Cause Value :=
  match op, v with
  | .minus, .int n => if Decimal.fitsInt64 (-n) then .ok (.int (-n)) else .error (.negation n)
  | .minus, .float x => .ok (.float (-x))
  | .plus, .int n => .ok (.int n)
  | .plus, .float x => .ok (.float x)
  | .not, .bool b => .ok (.bool (!b))
  | op, v => .error (notFound op.text [v])

def position? (length : Nat) (index : Int) : Option Nat :=
  let i := if index < 0 then (length : Int) + index else index
  if 0 ≤ i ∧ i < length then some i.toNat else none

def part (v index : Value) (place bracket : Position) : Except Fault Value :=
  match v, index with
  | .array items, .int i =>
    match (position? items.length i).bind (items[·]?) with
    | some item => .ok item
    | none => .error (.plain (.arrayBounds items.length i) place)
  | .array _, i => .error (.plain (.mismatch "i64" i.typeName) place)
  | .map entries, .text k => .ok ((Value.lookUp k entries).getD .unit)
  | .map _, i => .error (.plain (.mismatch "string" i.typeName) place)
  | .text s, .int i =>
    match (position? s.length i).bind (s.toList[·]?) with
    | some c => .ok (.char c)
    | none => .error (.plain (.textBounds s.length i) place)
  | .text _, i => .error (.plain (.mismatch "i64" i.typeName) place)
  | .int n, .int i =>
    match position? 64 i with
    | some k => .ok (.bool ((Int64.ofInt n).toBitVec.getLsbD k))
    | none => .error (.plain (.bitBounds i) place)
  | v, i => .error (.plain (.noIndexer (v.typeName ++ " [" ++ i.typeName ++ "]")) bracket)

def withPart (v index new : Value) (place bracket : Position) : Except Fault Value :=
  match v, index with
  | .array items, .int i =>
    match position? items.length i with
    | some k => .ok (.array (items.set k new))
    | none => .error (.plain (.arrayBounds items.length i) place)
  | .map entries, .text k => .ok (.map (Value.insertEntry k new entries))
  | .text s, .int i =>
    match position? s.length i, new with
    | some k, .char c => .ok (.text (String.ofList (s.toList.set k c)))
    | some _, new => .error (.plain (.mismatch "char" new.typeName) place)
    | none, _ => .error (.plain (.textBounds s.length i) place)
  | v, i =>
    match part v i place bracket with
    | .error f => .error f
    | .ok _ => .error (.plain (.noIndexer (v.typeName ++ " [" ++ i.typeName ++ "]")) bracket)

def property (v : Value) (name : String) : Except Cause Value :=
  match v with
  | .map entries => .ok ((Value.lookUp name entries).getD .unit)
  | .array items => if name = "len" then .ok (.int items.length) else .error (.noGetter name "array")
  | .text s => if name = "len" then .ok (.int s.length) else .error (.noGetter name "string")
  | v => .error (.noGetter name v.typeName)

def withProperty (v : Value) (name : String) (new : Value) : Except Cause Value :=
  match v with
  | .map entries => .ok (.map (Value.insertEntry name new entries))
  | v => .error (.noSetter name v.typeName)

end Operation

end Conduit.Script

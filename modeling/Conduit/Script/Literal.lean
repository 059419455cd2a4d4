import Conduit.Decimal.Shortest
import Conduit.Script.Token
import Conduit.Text.Blank

/-!
Numbers and quoted text as a script spells them.
-/
namespace Conduit.Script

structure Cursor where
  rest : List Char
  place : Position

namespace Cursor

def ofText (s : String) : Cursor := ⟨s.toList, Position.start⟩

def advance (c : Cursor) (n : Nat) : Cursor :=
  ⟨c.rest.drop n, c.place.right n⟩

def newLine (c : Cursor) : Cursor := { c with place := c.place.nextLine }

end Cursor

def isLetter (c : Char) : Bool := c.isAlpha

def hexValue? (c : Char) : Option Nat :=
  if c.isDigit then some (c.toNat - 48)
  else if 'a' ≤ c ∧ c ≤ 'f' then some (c.toNat - 87)
  else if 'A' ≤ c ∧ c ≤ 'F' then some (c.toNat - 55)
  else none

namespace Number

/-- The rest of a decimal number: its characters without separators, and how many characters they
take. A point belongs to the number unless a name, a separator or another point follows it. -/
def scanDecimal (point exponent : Bool) : List Char → List Char × Nat
  | [] => ([], 0)
  | '_' :: rest =>
    let (cs, n) := scanDecimal point exponent rest
    (cs, n + 1)
  | '.' :: c :: rest =>
    if point || c = '_' || c = '.' || isLetter c then ([], 0)
    else
      let (cs, n) := scanDecimal true exponent (c :: rest)
      if c.isDigit then ('.' :: cs, n + 1) else ('.' :: '0' :: cs, n + 1)
  | 'e' :: c :: rest =>
    if exponent then ([], 0)
    else if c.isDigit then
      let (cs, n) := scanDecimal true true (c :: rest)
      ('e' :: cs, n + 1)
    else if c = '+' || c = '-' then
      let (cs, n) := scanDecimal true true rest
      ('e' :: c :: cs, n + 2)
    else ([], 0)
  | c :: rest =>
    if c.isDigit then
      let (cs, n) := scanDecimal point exponent rest
      (c :: cs, n + 1)
    else ([], 0)

def scanBased (valid : Char → Bool) : List Char → List Char × Nat
  | [] => ([], 0)
  | c :: rest =>
    if c = '_' then
      let (cs, n) := scanBased valid rest
      (cs, n + 1)
    else if valid c then
      let (cs, n) := scanBased valid rest
      (c :: cs, n + 1)
    else ([], 0)

def float? (cs : List Char) : Option Float :=
  let body := cs.takeWhile (· ≠ 'e')
  let exponent := match cs.dropWhile (· ≠ 'e') with
    | [] => some 0
    | _ :: e => Decimal.int? (String.ofList e)
  let whole := body.takeWhile (· ≠ '.')
  let fraction := (body.dropWhile (· ≠ '.')).drop 1
  exponent.map fun e => Decimal.toFloat (Decimal.ofDigits (whole ++ fraction)) (e - fraction.length)

def decimalToken (negative : Bool) (cs : List Char) : Token :=
  let sign := if negative then "-" else ""
  match Decimal.ofDigits? cs with
  | some n =>
    let value : Int := if negative then -n else n
    if Decimal.fitsInt64 value then .int value
    else .float (if negative then -(Decimal.toFloat n 0) else Decimal.toFloat n 0)
  | none =>
    match float? cs with
    | some x => .float (if negative then -x else x)
    | none => .fault (.badNumber (sign ++ String.ofList cs))

def basedToken (negative : Bool) (base : Nat) (cs : List Char) : Token :=
  let value? := cs.foldl (fun acc c =>
    acc.bind fun n => (hexValue? c).bind fun d => if d < base then some (base * n + d) else none)
    (some 0)
  match value? with
  | some n =>
    if cs ≠ [] ∧ n < UInt64.size then
      let value : Int := (Int64.ofNat n).toInt
      .int (if negative then -value else value)
    else .fault (.badNumber (String.ofList cs))
  | none => .fault (.badNumber (String.ofList cs))

def base? : Char → Option (Nat × (Char → Bool))
  | 'x' | 'X' => some (16, fun c => (hexValue? c).isSome)
  | 'o' | 'O' => some (8, Char.isDigit)
  | 'b' | 'B' => some (2, Char.isDigit)
  | _ => none

def scan (negative : Bool) (cs : List Char) : Token × Nat :=
  match cs with
  | '0' :: b :: rest =>
    match base? b with
    | some (base, valid) =>
      let (ds, n) := scanBased valid rest
      (basedToken negative base ds, n + 2)
    | none =>
      let (ds, n) := scanDecimal false false cs
      (decimalToken negative ds, n)
  | _ =>
    let (ds, n) := scanDecimal false false cs
    (decimalToken negative ds, n)

end Number

structure Quotation where
  quote : Char
  /-- Line breaks and backslashes stand for themselves. -/
  verbatim : Bool := false
  /-- A backslash at the end of a line joins it with the next one. -/
  joinsLines : Bool := false
  embedsBlocks : Bool := false

def Quotation.string : Quotation := { quote := '"', joinsLines := true }

def Quotation.character : Quotation := { quote := '\'' }

def Quotation.verbatimText : Quotation :=
  { quote := Char.ofNat 96, verbatim := true, embedsBlocks := true }

inductive TextScan where
  | closed (text : List Char)
  /-- Stops before the opening brace of a block. -/
  | embedded (text : List Char)
  | unterminated
  | fault (f : LexFault) (place : Position)

def scanHex (value : Nat) (seen : List Char) : Nat → Cursor → Except (List Char × Position) (Nat × Cursor)
  | 0, cur => .ok (value, cur)
  | n + 1, cur =>
    match cur.rest with
    | [] => .error (seen, cur.place)
    | c :: _ =>
      let cur := cur.advance 1
      match hexValue? c with
      | some d => scanHex (16 * value + d) (seen ++ [c]) n cur
      | none => .error (seen ++ [c], cur.place)

def escapedChar? : Char → Option Char
  | '\\' => some '\\'
  | 't' => some '\t'
  | 'n' => some '\n'
  | 'r' => some '\r'
  | _ => none

def hexCount? : Char → Option Nat
  | 'x' => some 2
  | 'u' => some 4
  | 'U' => some 8
  | _ => none

/-- The text up to the closing quote, which `back` holds the start of in reverse. Blanks left of the
column `margin` are skipped after two lines have been joined. -/
def scanText (q : Quotation) (start : Position) :
    Nat → List Char → Bool → Nat → Cursor → TextScan × Cursor
  | 0, _, _, _, cur => (.unterminated, cur)
  | fuel + 1, back, escaped, margin, cur =>
    match cur.rest with
    | [] => (.unterminated, cur.advance 1)
    | c :: rest =>
      let cur := cur.advance 1
      if q.embedsBlocks && c = '$' && rest.head? = some '\x7b' then (.embedded back.reverse, cur)
      else if c = q.quote && !escaped then
        if rest.head? = some q.quote then
          scanText q start fuel (c :: back) false 0 (cur.advance 1)
        else (.closed back.reverse, cur)
      else if c = '\r' && rest.head? = some '\n' then
        scanText q start fuel back escaped margin cur
      else if escaped then
        match escapedChar? c, hexCount? c with
        | some d, _ => scanText q start fuel (d :: back) false margin cur
        | none, some n =>
          match scanHex 0 ['\\', c] n cur with
          | .error (seen, place) => (.fault (.badEscape (String.ofList seen)) place, cur)
          | .ok (value, after) =>
            if value.isValidChar then
              scanText q start fuel (Char.ofNat value :: back) false margin after
            else
              (.fault (.badEscape (String.ofList ('\\' :: c :: cur.rest.take n))) after.place, after)
        | none, none =>
          if c = q.quote then scanText q start fuel (c :: back) false margin cur
          else if c = '\n' then
            if q.joinsLines then
              scanText q start fuel back false (start.column + 1) cur.newLine
            else (.unterminated, cur)
          else (.fault (.badEscape (String.ofList ['\\', c])) cur.place, cur)
      else if c = '\\' && !q.verbatim then scanText q start fuel back true margin cur
      else if c = '\n' then
        if q.verbatim then scanText q start fuel (c :: back) false margin cur.newLine
        else (.unterminated, cur)
      else if Text.isBlank c && cur.place.column < margin then
        scanText q start fuel back false margin cur
      else scanText q start fuel (c :: back) false 0 cur

def Quotation.scan (q : Quotation) (cur : Cursor) : TextScan × Cursor :=
  scanText q cur.place (cur.rest.length + 1) [] false 0 cur

end Conduit.Script

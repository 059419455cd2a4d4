import Conduit.Decimal.Shortest
import Conduit.Json.Reader
import Conduit.Toml.Basic

/-!
Strings, numbers and dates of a TOML document. Each reader takes the characters still to come and
gives back those it left.
-/
namespace Conduit.Toml

def isSpace (c : Char) : Bool := c = ' ' || c = '\t'

def skipSpace (cs : List Char) : List Char := cs.dropWhile isSpace

def newline? : List Char → Option (List Char)
  | '\n' :: rest => some rest
  | '\r' :: '\n' :: rest => some rest
  | _ => none

def isCommentChar (c : Char) : Bool :=
  c = '\t' || (0x20 ≤ c.toNat && c.toNat ≠ 0x7F)

def isBasicChar (c : Char) : Bool := isCommentChar c && c ≠ '"' && c ≠ '\\'

def isLiteralChar (c : Char) : Bool := isCommentChar c && c ≠ '\''

/-! Strings -/

def hexRun? : Nat → Nat → List Char → Option (Nat × List Char)
  | 0, acc, rest => some (acc, rest)
  | _ + 1, _, [] => none
  | n + 1, acc, c :: rest =>
    match Json.hexValue? c with
    | some d => hexRun? n (acc * 16 + d) rest
    | none => none

def scalarChar? (n : Nat) : Option Char := if h : n.isValidChar then some (Char.ofNatAux n h) else none

def simpleEscape? (c : Char) : Option Char :=
  if c = 'b' then some (Char.ofNat 8)
  else if c = 't' then some '\t'
  else if c = 'n' then some '\n'
  else if c = 'f' then some (Char.ofNat 12)
  else if c = 'r' then some '\r'
  else if c = '"' then some '"'
  else if c = '\\' then some '\\'
  else none

def escape? : List Char → Option (Char × List Char)
  | [] => none
  | c :: rest =>
    if c = 'u' then do
      let (n, rest) ← hexRun? 4 0 rest
      some (← scalarChar? n, rest)
    else if c = 'U' then do
      let (n, rest) ← hexRun? 8 0 rest
      some (← scalarChar? n, rest)
    else (simpleEscape? c).map fun e => (e, rest)

def basicBody? : Nat → List Char → Option (List Char × List Char)
  | 0, _ | _, [] => none
  | fuel + 1, c :: rest =>
    if c = '"' then some ([], rest)
    else if c = '\\' then do
      let (e, rest) ← escape? rest
      let (body, rest) ← basicBody? fuel rest
      some (e :: body, rest)
    else if isBasicChar c then do
      let (body, rest) ← basicBody? fuel rest
      some (c :: body, rest)
    else none

def literalBody? (cs : List Char) : Option (List Char × List Char) :=
  match cs.dropWhile isLiteralChar with
  | '\'' :: rest => some (cs.takeWhile isLiteralChar, rest)
  | _ => none

def skipBlankLines : Nat → List Char → List Char
  | 0, cs => cs
  | fuel + 1, cs =>
    match skipSpace cs with
    | rest =>
      match newline? rest with
      | some rest => skipBlankLines fuel rest
      | none => rest

/-- Up to five quotes at the end of a string of several lines: the last three close it. -/
def closingQuotes? (q : Char) (cs : List Char) : Option (List Char × List Char) :=
  let run := (cs.takeWhile (· = q)).length
  if run < 3 then none
  else
    let run := min run 5
    some (List.replicate (run - 3) q, cs.drop run)

def multiBasicBody? : Nat → List Char → Option (List Char × List Char)
  | 0, _ | _, [] => none
  | fuel + 1, c :: rest =>
    if c = '"' then
      match closingQuotes? '"' (c :: rest) with
      | some r => some r
      | none => do
        let (body, rest) ← multiBasicBody? fuel rest
        some (c :: body, rest)
    else if c = '\\' then
      match newline? (skipSpace rest) with
      | some rest => multiBasicBody? fuel (skipBlankLines rest.length rest)
      | none => do
        let (e, rest) ← escape? rest
        let (body, rest) ← multiBasicBody? fuel rest
        some (e :: body, rest)
    else
      match newline? (c :: rest) with
      | some rest => do
        let (body, rest) ← multiBasicBody? fuel rest
        some ('\n' :: body, rest)
      | none =>
        if isBasicChar c then do
          let (body, rest) ← multiBasicBody? fuel rest
          some (c :: body, rest)
        else none

def multiLiteralBody? : Nat → List Char → Option (List Char × List Char)
  | 0, _ | _, [] => none
  | fuel + 1, c :: rest =>
    if c = '\'' then
      match closingQuotes? '\'' (c :: rest) with
      | some r => some r
      | none => do
        let (body, rest) ← multiLiteralBody? fuel rest
        some (c :: body, rest)
    else
      match newline? (c :: rest) with
      | some rest => do
        let (body, rest) ← multiLiteralBody? fuel rest
        some ('\n' :: body, rest)
      | none =>
        if isLiteralChar c then do
          let (body, rest) ← multiLiteralBody? fuel rest
          some (c :: body, rest)
        else none

def dropFirstBreak (cs : List Char) : List Char := (newline? cs).getD cs

def lineString? : List Char → Option (String × List Char)
  | '"' :: rest => (basicBody? rest.length rest).map fun (b, rest) => (String.ofList b, rest)
  | '\'' :: rest => (literalBody? rest).map fun (b, rest) => (String.ofList b, rest)
  | _ => none

def string? : List Char → Option (String × List Char)
  | '"' :: '"' :: '"' :: rest =>
    let rest := dropFirstBreak rest
    (multiBasicBody? rest.length rest).map fun (b, rest) => (String.ofList b, rest)
  | '\'' :: '\'' :: '\'' :: rest =>
    let rest := dropFirstBreak rest
    (multiLiteralBody? rest.length rest).map fun (b, rest) => (String.ofList b, rest)
  | cs => lineString? cs

/-! Numbers -/

def digitRun? (isDigit : Char → Bool) : List Char → Option (List Char × List Char)
  | [] => none
  | c :: rest =>
    if isDigit c then
      match rest with
      | '_' :: rest => (digitRun? isDigit rest).map fun (ds, rest) => (c :: ds, rest)
      | d :: rest' =>
        if isDigit d then (digitRun? isDigit (d :: rest')).map fun (ds, rest) => (c :: ds, rest)
        else some ([c], d :: rest')
      | [] => some ([c], [])
    else none

def sign : List Char → Bool × List Char
  | '-' :: rest => (true, rest)
  | '+' :: rest => (false, rest)
  | cs => (false, cs)

def wholeDigits? : List Char → Option (List Char × List Char)
  | '0' :: rest => some (['0'], rest)
  | cs => digitRun? Decimal.isDigit cs

def ofBase (base : Nat) (ds : List Char) : Nat :=
  ds.foldl (fun n c => n * base + (Json.hexValue? c).getD 0) 0

def isBinaryDigit (c : Char) : Bool := c = '0' || c = '1'

def isOctalDigit (c : Char) : Bool := 48 ≤ c.toNat && c.toNat ≤ 55

def isHexDigit (c : Char) : Bool := (Json.hexValue? c).isSome

def ranged? (n : Int) (rest : List Char) : Option (Int × List Char) :=
  if Decimal.fitsInt64 n then some (n, rest) else none

def integer? : List Char → Option (Int × List Char)
  | '0' :: 'x' :: rest => do
    let (ds, rest) ← digitRun? isHexDigit rest
    ranged? (ofBase 16 ds) rest
  | '0' :: 'o' :: rest => do
    let (ds, rest) ← digitRun? isOctalDigit rest
    ranged? (ofBase 8 ds) rest
  | '0' :: 'b' :: rest => do
    let (ds, rest) ← digitRun? isBinaryDigit rest
    ranged? (ofBase 2 ds) rest
  | cs => do
    let (negative, rest) := sign cs
    let (ds, rest) ← wholeDigits? rest
    let n : Int := Decimal.ofDigits ds
    ranged? (if negative then -n else n) rest

def word? (word : String) (cs : List Char) : Option (List Char) :=
  if word.toList.isPrefixOf cs then some (cs.drop word.length) else none

def specialFloat? (cs : List Char) : Option (Float × List Char) :=
  let (negative, rest) := sign cs
  match word? "inf" rest with
  | some rest => some (if negative then -(1.0 / 0.0) else 1.0 / 0.0, rest)
  | none => (word? "nan" rest).map fun rest => (0.0 / 0.0, rest)

def exponentPart? : List Char → Option (Int × List Char)
  | c :: rest =>
    if c = 'e' ∨ c = 'E' then do
      let (negative, rest) := sign rest
      let (ds, rest) ← digitRun? Decimal.isDigit rest
      let n : Int := Decimal.ofDigits ds
      some (if negative then -n else n, rest)
    else none
  | [] => none

/-- A number with a fraction, an exponent or both. One too large to be held is refused; one too far
below zero is negative infinity. -/
def decimalFloat? (cs : List Char) : Option (Float × List Char) := do
  let (negative, rest) := sign cs
  let (whole, rest) ← wholeDigits? rest
  let (frac, rest) ← match rest with
    | '.' :: rest => digitRun? Decimal.isDigit rest
    | _ => if (exponentPart? rest).isSome then some ([], rest) else none
  let (exp, rest) := (exponentPart? rest).getD (0, rest)
  let size := Decimal.toFloat (Decimal.ofDigits (whole ++ frac)) (exp - frac.length)
  let x := if negative then -size else size
  if x == 1.0 / 0.0 then none else some (x, rest)

def float? (cs : List Char) : Option (Float × List Char) :=
  match decimalFloat? cs with
  | some r => some r
  | none => specialFloat? cs

/-! Dates -/

def digits? (count : Nat) (cs : List Char) : Option (Nat × List Char) :=
  let ds := cs.take count
  if ds.length = count ∧ ds.all Decimal.isDigit then some (Decimal.ofDigits ds, cs.drop count) else none

def char? (c : Char) : List Char → Option (List Char)
  | d :: rest => if c = d then some rest else none
  | [] => none

def daysIn (year month : Nat) : Nat :=
  if month = 2 then
    if year % 4 = 0 ∧ (year % 100 ≠ 0 ∨ year % 400 = 0) then 29 else 28
  else if month = 4 ∨ month = 6 ∨ month = 9 ∨ month = 11 then 30
  else 31

def fullDate? (cs : List Char) : Option (List Char) := do
  let (year, rest) ← digits? 4 cs
  let rest ← char? '-' rest
  let (month, rest) ← digits? 2 rest
  let rest ← char? '-' rest
  let (day, rest) ← digits? 2 rest
  if 1 ≤ month ∧ month ≤ 12 ∧ 1 ≤ day ∧ day ≤ daysIn year month then some rest else none

def fractionOfSecond? (cs : List Char) : Option (List Char) :=
  match cs with
  | '.' :: rest =>
    if rest.head?.any Decimal.isDigit then some (rest.dropWhile Decimal.isDigit) else none
  | _ => some cs

def partialTime? (cs : List Char) : Option (List Char) := do
  let (hour, rest) ← digits? 2 cs
  let rest ← char? ':' rest
  let (minute, rest) ← digits? 2 rest
  let rest ← char? ':' rest
  let (second, rest) ← digits? 2 rest
  if hour ≤ 23 ∧ minute ≤ 59 ∧ second ≤ 60 then fractionOfSecond? rest else none

def offset? (cs : List Char) : Option (List Char) :=
  match cs with
  | c :: rest =>
    if c = 'Z' ∨ c = 'z' then some rest
    else if c = '+' ∨ c = '-' then do
      let (hour, rest) ← digits? 2 rest
      let rest ← char? ':' rest
      let (minute, rest) ← digits? 2 rest
      if hour ≤ 23 ∧ minute ≤ 59 then some rest else none
    else some cs
  | [] => some []

def date? (cs : List Char) : Option (List Char) :=
  match digits? 4 cs with
  | some (_, '-' :: _) => do
    let rest ← fullDate? cs
    match rest with
    | c :: after =>
      if c = 'T' ∨ c = 't' then do
        offset? (← partialTime? after)
      else if c = ' ' ∧ (digits? 2 after).isSome then do
        offset? (← partialTime? after)
      else some rest
    | [] => some []
  | _ =>
    match digits? 2 cs with
    | some (_, ':' :: _) => partialTime? cs
    | _ => none

def startsDate (cs : List Char) : Bool :=
  match digits? 4 cs with
  | some (_, '-' :: _) => true
  | _ =>
    match digits? 2 cs with
    | some (_, ':' :: _) => true
    | _ => false

end Conduit.Toml

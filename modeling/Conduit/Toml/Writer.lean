import Conduit.Decimal.Basic
import Conduit.Text.Quoted

/-!
Strings and integers as a TOML document spells them. A string takes the plainest form that can hold
it: double quotes, single quotes when it has quotes or backslashes of its own, and three quotes when
it has line breaks or both kinds of quotes.
-/
namespace Conduit.Toml

def needsEscape (c : Char) : Bool :=
  (c.toNat < 32 && c ≠ '\t' && c ≠ '\n') || c.toNat = 127

def longestRun (c : Char) (cs : List Char) : Nat :=
  (cs.foldl (fun (run, longest) d =>
    if d = c then (run + 1, max longest (run + 1)) else (0, longest)) (0, 0)).2

def upperHex (n : Nat) : List Char := (Text.hexDigits n).map Char.toUpper

def escapeChar (c : Char) : List Char :=
  if c = '"' then ['\\', '"']
  else if c = '\\' then ['\\', '\\']
  else if c = '\t' then ['\\', 't']
  else if c = '\n' then ['\\', 'n']
  else if c = '\r' then ['\\', 'r']
  else if c.toNat = 8 then ['\\', 'b']
  else if c.toNat = 12 then ['\\', 'f']
  else if needsEscape c then
    let ds := upperHex c.toNat
    '\\' :: 'u' :: (List.replicate (4 - ds.length) '0' ++ ds)
  else [c]

/-- The text between three double quotes: line feeds stand for themselves, and so do up to two quotes
in a row. -/
def escapeLong (quotes : Nat) : List Char → List Char
  | [] => []
  | c :: cs =>
    if c = '"' then
      if quotes < 2 then c :: escapeLong (quotes + 1) cs else '\\' :: '"' :: escapeLong 0 cs
    else if c = '\n' then c :: escapeLong 0 cs
    else escapeChar c ++ escapeLong 0 cs

def tripled (q : Char) (body : List Char) (broken : Bool) : List Char :=
  q :: q :: q :: ((if broken then ['\n'] else []) ++ body ++ [q, q, q])

def stringChars (cs : List Char) : List Char :=
  let controls := cs.any needsEscape
  let slashes := cs.contains '\\'
  let broken := cs.contains '\n'
  let doubles := longestRun '"' cs
  let singles := longestRun '\'' cs
  if !controls && !slashes && doubles = 0 && !broken then '"' :: (cs.flatMap escapeChar ++ ['"'])
  else if !controls && singles = 0 && !broken then '\'' :: (cs ++ ['\''])
  else if !controls && !slashes && doubles ≤ 2 then tripled '"' (escapeLong 0 cs) broken
  else if !controls && singles ≤ 2 then tripled '\'' cs broken
  else if broken then tripled '"' (escapeLong 0 cs) broken
  else '"' :: (cs.flatMap escapeChar ++ ['"'])

def stringText (s : String) : String := String.ofList (stringChars s.toList)

def natText? (n : Nat) : Option String :=
  if Decimal.fitsInt64 n then some (Decimal.natText n) else none

end Conduit.Toml

import Conduit.Decimal.Shortest
import Conduit.Text.Lines
import Conduit.Text.Quoted
import Conduit.Toml.Basic

/-!
What can be wrong with a value of a well-formed document, and how it is shown in its source.
-/
namespace Conduit.Toml

inductive Misfit where
  | wrongType (found expected : String)
  | negative (value : Int)
  | unknownName (name : String) (known : List String)
  | noChoice
  | choiceMissing
  | choiceRepeated
  | choiceFilled
  | choiceNotTable (found : String)
deriving DecidableEq, Repr

def plainFloat : Decimal.Layout := { lowest := none, highest := none, wholeFraction := true }

def Node.described : Node → String
  | .str _ s => "string " ++ Text.quoted s
  | .int _ n => "integer `" ++ Decimal.intText n ++ "`"
  | .float _ x => "floating point `" ++ plainFloat.text x ++ "`"
  | .bool _ b => "boolean `" ++ (if b then "true" else "false") ++ "`"
  | .array .. | .tables .. => "sequence"
  | .table .. | .date .. => "map"

def alternatives (names : List String) : String :=
  let ticked := names.map fun n => "`" ++ n ++ "`"
  match ticked with
  | [a, b] => a ++ " or " ++ b
  | _ => "one of " ++ String.intercalate ", " ticked

def Misfit.message : Misfit → String
  | .wrongType found expected => "invalid type: " ++ found ++ ", expected " ++ expected
  | .negative n => "invalid value: integer `" ++ Decimal.intText n ++ "`, expected usize"
  | .unknownName name known => "unknown variant `" ++ name ++ "`, expected " ++ alternatives known
  | .noChoice => "wanted string or table"
  | .choiceMissing => "wanted exactly 1 element, found 0 elements"
  | .choiceRepeated => "wanted exactly 1 element, more than 1 element"
  | .choiceFilled => "expected empty table"
  | .choiceNotTable found => "expected table, found " ++ found

structure Fault where
  misfit : Misfit
  span : Option Span := none
deriving DecidableEq, Repr

namespace Fault

def placedAt (f : Fault) (span : Option Span) : Fault := { f with span := f.span <|> span }

def excerpt (source : List Char) (span : Span) : String :=
  let before := source.take (source.length - span.before)
  let marked := (source.drop (source.length - span.before)).take (span.before - span.after)
  let earlier := Text.pieces '\n' before
  let column := (earlier.getLast?.getD []).length
  let number := Decimal.natText earlier.length
  let line := ((Text.pieces '\n' source)[earlier.length - 1]?).getD []
  let bytes (cs : List Char) : Nat := (String.ofList cs).utf8ByteSize
  let carets := max 1 (min (bytes marked) (bytes line - column))
  let blanks (n : Nat) : String := String.ofList (List.replicate n ' ')
  let gutter := blanks (number.length + 1) ++ "|"
  "TOML parse error at line " ++ number ++ ", column " ++ Decimal.natText (column + 1) ++ "\n" ++
    gutter ++ "\n" ++
    number ++ " | " ++ String.ofList line ++ "\n" ++
    gutter ++ blanks (column + 1) ++ String.ofList (List.replicate carets '^') ++ "\n"

def render (f : Fault) (source : String) : String :=
  (match f.span with
    | some span => excerpt source.toList span
    | none => "") ++ f.misfit.message ++ "\n"

end Fault

end Conduit.Toml

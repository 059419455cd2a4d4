import Conduit.Script.Literal
import Conduit.Script.Symbol

/-!
Cutting a script into tokens. Blanks and comments say nothing. Text in back quotes may embed blocks:
its parts are tokens of their own, with the tokens of each block between them.
-/
namespace Conduit.Script

/-- Where the next token starts, whether a sign there belongs to its operand, and how many braces are
open in each of the blocks that text around this place embeds. -/
structure LexState where
  cursor : Cursor
  operandNext : Bool := true
  blocks : List Nat := []

def isNameChar (c : Char) : Bool := c.isAlphanum || c = '_'

def isProperName (s : String) : Bool :=
  match s.toList.dropWhile (· = '_') with
  | [] => false
  | c :: rest => isLetter c && rest.all isNameChar

def wordToken (s : String) : Token :=
  if keywords.contains s then .keyword s
  else if reservedWords.contains s then .reserved s
  else if isProperName s then .name s
  else .fault (.badName s)

def skipLine : List Char → Position → Cursor
  | [], p => ⟨[], p⟩
  | c :: rest, p =>
    if c = '\n' then ⟨rest, p.nextLine⟩
    else if c = '\r' then
      match rest with
      | '\n' :: rest => ⟨rest, p.next.nextLine⟩
      | _ => ⟨rest, p.nextLine⟩
    else skipLine rest p.next

def skipComment (depth : Nat) : List Char → Position → Cursor
  | [], p => ⟨[], p⟩
  | '/' :: '*' :: rest, p => skipComment (depth + 1) rest p.next.next
  | '*' :: '/' :: rest, p =>
    if depth = 0 then ⟨rest, p.next.next⟩ else skipComment (depth - 1) rest p.next.next
  | c :: rest, p => skipComment depth rest (if c = '\n' then p.next.nextLine else p.next)

def skipBlanks : Nat → Cursor → Cursor
  | 0, cur => cur
  | fuel + 1, cur =>
    match cur.rest with
    | '\n' :: _ => skipBlanks fuel (cur.advance 1).newLine
    | '/' :: '/' :: rest => skipBlanks fuel (skipLine rest cur.place.next.next)
    | '/' :: '*' :: rest => skipBlanks fuel (skipComment 0 rest cur.place.next.next)
    | c :: _ => if Text.isBlank c then skipBlanks fuel (cur.advance 1) else cur
    | [] => cur

def skipFirstBreak (cur : Cursor) : Cursor :=
  match cur.rest with
  | '\r' :: '\n' :: _ => (cur.advance 2).newLine
  | '\r' :: _ => (cur.advance 1).newLine
  | '\n' :: _ => (cur.advance 1).newLine
  | _ => cur

def textToken (place : Position) : TextScan → PlacedToken
  | .closed cs => ⟨.text (String.ofList cs), place⟩
  | .embedded cs => ⟨.lead (String.ofList cs), place⟩
  | .unterminated => ⟨.fault .unterminated, place⟩
  | .fault f p => ⟨.fault f, p⟩

def charToken (place : Position) : TextScan → PlacedToken
  | .closed [c] => ⟨.char c, place⟩
  | .closed cs => ⟨.fault (.badCharacter (String.ofList cs)), place⟩
  | other => textToken place other

def LexState.after (s : LexState) (t : Token) (cursor : Cursor) : LexState :=
  { s with cursor, operandNext := t.beforeOperand }

def scanVerbatim (s : LexState) (place : Position) (cur : Cursor) : PlacedToken × LexState :=
  let (scan, cur) := Quotation.verbatimText.scan cur
  let t := textToken place scan
  let s := s.after t.token cur
  match scan with
  | .embedded _ => (t, { s with blocks := 0 :: s.blocks })
  | _ => (t, s)

def LexState.countBrace (s : LexState) : Token → LexState
  | .mark .leftBrace | .mark .mapStart =>
    match s.blocks with
    | n :: outer => { s with blocks := (n + 1) :: outer }
    | [] => s
  | .mark .rightBrace =>
    match s.blocks with
    | n :: outer => { s with blocks := (n - 1) :: outer }
    | [] => s
  | _ => s

def isNotIn : List Char → Bool
  | '!' :: 'i' :: 'n' :: rest => !(rest.head?.any isNameChar)
  | _ => false

def scanToken (s : LexState) (cur : Cursor) (c : Char) (rest : List Char) : PlacedToken × LexState :=
  let place := cur.place.next
  if c.isDigit then
    let (t, n) := Number.scan false cur.rest
    (⟨t, place⟩, s.after t (cur.advance n))
  else if c = '-' && s.operandNext && rest.head?.any Char.isDigit then
    let (t, n) := Number.scan true rest
    (⟨t, place⟩, s.after t (cur.advance (n + 1)))
  else if c = '"' then
    let (scan, cur) := Quotation.string.scan (cur.advance 1)
    let t := textToken place scan
    (t, s.after t.token cur)
  else if c.toNat = 96 then scanVerbatim s place (skipFirstBreak (cur.advance 1))
  else if c = '\'' then
    if rest.head? = some '\'' then
      (⟨.fault (.badCharacter ""), place⟩, s.after (.fault .unterminated) (cur.advance 2))
    else
      let (scan, cur) := Quotation.character.scan (cur.advance 1)
      let t := charToken place scan
      (t, s.after t.token cur)
  else if isLetter c || c = '_' then
    let word := cur.rest.takeWhile isNameChar
    let t := wordToken (String.ofList word)
    (⟨t, place⟩, s.after t (cur.advance word.length))
  else if isNotIn cur.rest then
    (⟨.mark .notIn, place⟩, s.after (.mark .notIn) (cur.advance 3))
  else
    match symbol? cur.rest with
    | some (spelling, t) =>
      (⟨t, place⟩, (s.after t (cur.advance spelling.length)).countBrace t)
    | none =>
      let t : Token := .fault (.unexpected (String.singleton c))
      (⟨t, place⟩, s.after t (cur.advance 1))

def LexState.blockEnds (s : LexState) (t : Token) : Bool :=
  t.isMark .rightBrace && s.blocks.head? = some 0

def tokensFrom : Nat → LexState → List PlacedToken
  | 0, s => [⟨.eof, s.cursor.place.next⟩]
  | fuel + 1, s =>
    let cur := skipBlanks (s.cursor.rest.length + 1) s.cursor
    match cur.rest with
    | [] => [⟨.eof, cur.place.next⟩]
    | c :: rest =>
      let (t, s) := scanToken s cur c rest
      if s.blockEnds t.token then
        let s := { s with blocks := s.blocks.drop 1 }
        let (u, s) := scanVerbatim s s.cursor.place s.cursor
        t :: u :: tokensFrom fuel s
      else t :: tokensFrom fuel s

def tokens (source : String) : List PlacedToken :=
  tokensFrom (source.length + 1) { cursor := Cursor.ofText source }

end Conduit.Script

import Conduit.Script.Position

/-!
The tokens of a script.
-/
namespace Conduit.Script

inductive Operator where
  | or | pipe | xor
  | and | ampersand
  | eq | ne
  | lt | le | gt | ge
  | range | rangeTo
  | add | sub
  | mul | div | mod
  | pow
  | shl | shr
deriving DecidableEq, Repr

namespace Operator

def text : Operator → String
  | or => "||" | pipe => "|" | xor => "^"
  | and => "&&" | ampersand => "&"
  | eq => "==" | ne => "!="
  | lt => "<" | le => "<=" | gt => ">" | ge => ">="
  | range => ".." | rangeTo => "..="
  | add => "+" | sub => "-"
  | mul => "*" | div => "/" | mod => "%"
  | pow => "**"
  | shl => "<<" | shr => ">>"

def precedence : Operator → Nat
  | or | pipe | xor => 30
  | and | ampersand => 60
  | eq | ne => 90
  | lt | le | gt | ge => 130
  | range | rangeTo => 140
  | add | sub => 150
  | mul | div | mod => 180
  | pow => 190
  | shl | shr => 210

def bindsRight : Operator → Bool
  | pow => true
  | _ => false

end Operator

def keywords : List String :=
  ["true", "false", "let", "const", "if", "else", "switch", "do", "while", "until", "loop", "for",
   "in", "fn", "private", "import", "export", "as", "continue", "break", "return", "throw", "try",
   "catch"]

def reservedWords : List String :=
  ["public", "protected", "super", "new", "use", "module", "package", "var", "static", "shared",
   "with", "is", "goto", "exit", "match", "case", "default", "void", "null", "nil", "spawn", "thread",
   "go", "sync", "async", "await", "yield", "print", "debug", "type_of", "eval", "Fn", "call",
   "curry", "this", "is_def_fn", "is_def_var", "is_shared"]

def callableWords : List String :=
  ["print", "debug", "type_of", "eval", "Fn", "call", "curry", "is_def_fn", "is_def_var", "is_shared"]

def methodWords : List String := ["type_of", "call", "curry", "is_shared"]

inductive Mark where
  | leftParen | rightParen | leftBracket | rightBracket | leftBrace | rightBrace
  /-- The two parentheses of the unit value, with nothing between them. -/
  | unit
  | mapStart
  | comma | semicolon | colon | doubleColon | period | bang | arrow
  | elvis | optionalBracket | coalesce | notIn
deriving DecidableEq, Repr

def Mark.text : Mark → String
  | leftParen => "(" | rightParen => ")" | leftBracket => "[" | rightBracket => "]"
  | leftBrace => "\x7b" | rightBrace => "\x7d" | unit => "()" | mapStart => "#\x7b"
  | comma => "," | semicolon => ";" | colon => ":" | doubleColon => "::" | period => "."
  | bang => "!" | arrow => "=>"
  | elvis => "?." | optionalBracket => "?[" | coalesce => "??" | notIn => "!in"

inductive LexFault where
  | unexpected (text : String)
  | badEscape (text : String)
  | badNumber (text : String)
  | badCharacter (text : String)
  | badName (text : String)
  | unterminated
  | misused (advice : String)
deriving DecidableEq, Repr

def LexFault.message : LexFault → String
  | unexpected t => "Unexpected '" ++ t ++ "'"
  | badEscape t => "Invalid escape sequence: '" ++ t ++ "'"
  | badNumber t => "Invalid number: '" ++ t ++ "'"
  | badCharacter t => "Invalid character: '" ++ t ++ "'"
  | badName t => "Variable name is not proper: '" ++ t ++ "'"
  | unterminated => "Open string is not terminated"
  | misused advice => advice

inductive Token where
  | int (n : Int)
  | float (x : Float)
  | char (c : Char)
  | text (s : String)
  /-- Text up to an embedded block. -/
  | lead (s : String)
  | name (s : String)
  | reserved (s : String)
  | keyword (s : String)
  | operator (o : Operator)
  /-- An assignment, which may first combine the old value with the new one. -/
  | assign (o : Option Operator)
  | mark (m : Mark)
  | fault (f : LexFault)
  | eof

structure PlacedToken where
  token : Token
  place : Position

namespace Token

def isEof : Token → Bool
  | eof => true
  | _ => false

def isMark (m : Mark) : Token → Bool
  | mark n => m = n
  | _ => false

def isKeyword (s : String) : Token → Bool
  | keyword k => s = k
  | _ => false

def beforeOperand : Token → Bool
  | operator _ => true
  | assign _ => true
  | mark m =>
    m = .semicolon || m = .colon || m = .comma || m = .leftBrace || m = .leftParen ||
      m = .leftBracket || m = .bang || m = .arrow
  | keyword k => ["if", "while", "until", "in", "return", "throw"].contains k
  | fault _ => true
  | _ => false

def shown : Token → String
  | int n => Decimal.intText n
  | float _ => "float"
  | char c => String.singleton c
  | text s => s
  | lead s => s
  | name s => s
  | reserved s => s
  | keyword s => s
  | operator o => o.text
  | assign none => "="
  | assign (some o) => o.text ++ "="
  | mark m => m.text
  | fault f => f.message
  | eof => "\x7bEOF\x7d"

end Token

end Conduit.Script

import Conduit.Script.Token

/-!
The symbols of a script by their spelling. Where several spellings fit, the longest one is meant.
-/
namespace Conduit.Script

def misusedSymbols : List (String × String) :=
  [("===", "'===' is not a valid operator. This is not JavaScript! Should it be '=='?"),
   ("!==", "'!==' is not a valid operator. This is not JavaScript! Should it be '!='?"),
   ("->", "'->' is not a valid symbol. This is not C or C++!"),
   ("<-", "'<-' is not a valid symbol. This is not Go! Should it be '<'?"),
   (":=", "':=' is not a valid assignment operator. This is not Go or Pascal! Should it be simply '='?"),
   (":;", "':;' is not a valid symbol. Should it be '::'?"),
   ("::<", "'::<>' is not a valid symbol. This is not Rust! Should it be '::'?"),
   ("(*", "'(* .. *)' is not a valid comment format. This is not Pascal! Should it be '/* .. */'?"),
   ("*)", "'(* .. *)' is not a valid comment format. This is not Pascal! Should it be '/* .. */'?"),
   ("# \x7b", "'#' is not a valid symbol. Should it be '#\x7b'?")]

def reservedSymbols : List String :=
  ["?", "++", "--", "@", "$", "#", "~", "...", "<|", "|>", "#!"]

def operatorSymbols : List Operator :=
  [.or, .pipe, .xor, .and, .ampersand, .eq, .ne, .lt, .le, .gt, .ge, .range, .rangeTo, .add, .sub,
   .mul, .div, .mod, .pow, .shl, .shr]

def assigningOperators : List Operator :=
  [.add, .sub, .mul, .div, .mod, .pow, .shl, .shr, .pipe, .ampersand, .xor]

def markSymbols : List Mark :=
  [.leftParen, .rightParen, .leftBracket, .rightBracket, .leftBrace, .rightBrace, .unit, .mapStart,
   .comma, .semicolon, .colon, .doubleColon, .period, .bang, .arrow, .elvis, .optionalBracket,
   .coalesce]

def spelled (s : String) (t : Token) : List Char × Token := (s.toList, t)

def spellings : List (List Char × Token) :=
  misusedSymbols.map (fun (s, advice) => spelled s (.fault (.misused advice))) ++
    reservedSymbols.map (fun s => spelled s (.reserved s)) ++
    operatorSymbols.map (fun o : Operator => spelled o.text (.operator o)) ++
    assigningOperators.map (fun o : Operator => spelled (o.text ++ "=") (.assign (some o))) ++
    markSymbols.map (fun m : Mark => spelled m.text (.mark m)) ++
    [spelled "=" (.assign none)]

def symbols : List (List Char × Token) :=
  [3, 2, 1].flatMap fun n => spellings.filter fun (spelling, _) => spelling.length = n

def symbol? (cs : List Char) : Option (List Char × Token) :=
  symbols.find? fun (spelling, _) => spelling.isPrefixOf cs

end Conduit.Script

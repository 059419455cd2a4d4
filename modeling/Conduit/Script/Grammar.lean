import Conduit.Script.Parse

/-!
The grammar of expressions. Readers that need one another take the deeper ones from a `Grammar`, so
that each level of nesting is built from the level below it.
-/
namespace Conduit.Script

structure Context where
  /-- Outside every block: functions may be defined. -/
  outermost : Bool := false
  inLoop : Bool := false
  /-- The last statement of a block gives its value to someone. -/
  valued : Bool := true
  /-- In the body of a function. -/
  inFunction : Bool := false

structure Block where
  body : List Stmt
  place : Position

structure Grammar where
  expr : Context → Parse Expr
  unary : Context → Parse Expr
  /-- Goes on with operators that bind more tightly than the given one. -/
  operators : Context → Nat → Expr → Parse Expr
  /-- Nothing stands for a statement that says nothing. -/
  statement : Context → Parse (Option Stmt)
  block : Context → Parse Block
  /-- Branches and loops, which are statements and expressions. -/
  control : Context → Parse Stmt

namespace Grammar

open Parse

def nowhere : Parse α := do
  let t ← peek
  fail .tooDeep t.place

def bottom : Grammar :=
  { expr := fun _ => nowhere
    unary := fun _ => nowhere
    operators := fun _ _ _ => nowhere
    statement := fun _ => nowhere
    block := fun _ => nowhere
    control := fun _ => nowhere }

def notBoolean? : Expr → Option String
  | .int _ _ => some "a number"
  | .float _ _ => some "a floating-point number"
  | .char _ _ => some "a character"
  | .text _ _ | .woven _ _ => some "a string"
  | .array _ _ => some "an array"
  | .map _ _ => some "an object map"
  | .unit _ => some "()"
  | _ => none

def notIterable? : Expr → Option String
  | .int _ _ => some "a number"
  | .float _ _ => some "a floating-point number"
  | .bool _ _ => some "a boolean"
  | .char _ _ => some "a character"
  | .map _ _ => some "an object map"
  | .unit _ => some "()"
  | _ => none

def ensureBoolean (e : Expr) : Parse Unit :=
  match notBoolean? e with
  | some kind => fail (.mismatch "a boolean expression" kind) e.startPlace
  | none => return

def ensureIterable (e : Expr) : Parse Unit :=
  match notIterable? e with
  | some kind => fail (.mismatch "an iterable value" kind) e.startPlace
  | none => return

def ensureNoBlock : Parse Unit := do
  let t ← peek
  if t.token.isMark .leftBrace then fail (.expressionExpected "a boolean") t.place else return

def typoAdvice : LexFault := .misused "Possibly a typo of '=='?"

def ensureNoAssignment : Parse Unit := do
  let t ← peek
  match t.token with
  | .assign none => failLexical typoAdvice t.place
  | _ => return

def arguments (g : Grammar) (ctx : Context) (name : String) : Nat → List Expr → Parse (List Expr)
  | 0, _ => nowhere
  | fuel + 1, back => do
    let t ← peek
    let back ← if t.token.isMark .rightParen then pure back else do
      pure ((← g.expr ctx) :: back)
    let t ← peek
    match t.token with
    | .mark .rightParen => do
      let _ ← next
      return back.reverse
    | .mark .comma => do
      let _ ← next
      arguments g ctx name fuel back
    | .eof =>
      fail (.missing ")" ("to close the arguments list of this function call '" ++ name ++ "'"))
        t.place
    | _ => missing t "," ("to separate the arguments to function call '" ++ name ++ "'")

def callArguments (g : Grammar) (ctx : Context) (name : String) : Parse (List Expr) := do
  let t ← next
  if t.token.isMark .unit then return []
  else
    let t ← peek
    match t.token with
    | .eof =>
      fail (.missing ")" ("to close the arguments list of this function call '" ++ name ++ "'"))
        t.place
    | .fault f => failLexical f t.place
    | _ => arguments g ctx name (← remaining) []

def arrayPurpose : String := "to end this array literal"

def arrayItems (g : Grammar) (ctx : Context) : Nat → List Expr → Parse (List Expr)
  | 0, _ => nowhere
  | fuel + 1, back => do
    let t ← peek
    match t.token with
    | .mark .rightBracket => do
      let _ ← next
      return back.reverse
    | .eof => fail (.missing "]" arrayPurpose) t.place
    | _ => do
      let e ← g.expr ctx
      let t ← peek
      match t.token with
      | .mark .comma => do
        let _ ← next
        arrayItems g ctx fuel (e :: back)
      | .mark .rightBracket => arrayItems g ctx fuel (e :: back)
      | .eof => fail (.missing "]" arrayPurpose) t.place
      | _ => missing t "," "to separate the items of this array literal"

def mapPurpose : String := "to end this object map literal"

def ensureNewKey (entries : List (String × Expr)) (key : String) (place : Position) : Parse Unit :=
  if entries.any (·.1 = key) then fail (.duplicateProperty key) place else return

def mapKey (seen : List (String × Expr)) : Parse String := do
  let t ← next
  match t.token with
  | .name s => do
    ensureNewKey seen s t.place
    return s
  | .text s => do
    ensureNewKey seen s t.place
    return s
  | .lead _ => fail .propertyExpected t.place
  | .reserved s =>
    if isProperName s then fail (.reserved s) t.place
    else if seen.isEmpty then fail (.missing "\x7d" mapPurpose) t.place
    else fail .propertyExpected t.place
  | .fault f => failLexical f t.place
  | _ =>
    if seen.isEmpty then fail (.missing "\x7d" mapPurpose) t.place
    else fail .propertyExpected t.place

def mapEntries (g : Grammar) (ctx : Context) :
    Nat → List (String × Expr) → Parse (List (String × Expr))
  | 0, _ => nowhere
  | fuel + 1, back => do
    let t ← peek
    match t.token with
    | .mark .rightBrace => do
      let _ ← next
      return back.reverse
    | .eof => fail (.missing "\x7d" mapPurpose) t.place
    | _ => do
      let key ← mapKey back
      let t ← next
      if t.token.isMark .colon then
        let e ← g.expr ctx
        let t ← peek
        match t.token with
        | .mark .comma => do
          let _ ← next
          mapEntries g ctx fuel ((key, e) :: back)
        | .mark .rightBrace => mapEntries g ctx fuel ((key, e) :: back)
        | .name _ =>
          fail (.missing "," "to separate the items of this object map literal") t.place
        | _ => missing t "\x7d" mapPurpose
      else missing t ":" ("to follow the property '" ++ key ++ "' in this object map literal")

def addPiece (s : String) (place : Position) (back : List Expr) : List Expr :=
  if s.isEmpty then back else .text s place :: back

def wovenParts (g : Grammar) (ctx : Context) : Nat → List Expr → Parse (List Expr)
  | 0, _ => nowhere
  | fuel + 1, back => do
    let b ← g.block ctx
    let back := .statement (.block b.body b.place) :: back
    let t ← next
    match t.token with
    | .text s => return (addPiece s t.place back).reverse
    | .lead s => wovenParts g ctx fuel (addPiece s t.place back)
    | .fault f => failLexical f t.place
    | _ => fail .incomplete t.place

def badIndex? (base index : Expr) : Option String :=
  match base with
  | .map _ _ =>
    let expects := "Object map expects string index, not "
    match index with
    | .int _ _ => some (expects ++ "a number")
    | .float _ _ => some (expects ++ "a float")
    | .char _ _ => some (expects ++ "a character")
    | .unit _ => some (expects ++ "()")
    | .both _ _ _ | .either _ _ _ | .bool _ _ => some (expects ++ "a boolean")
    | _ => none
  | .int _ _ | .array _ _ | .text _ _ | .woven _ _ =>
    let expects := "Array, string or bit-field expects integer index, not "
    match index with
    | .text _ _ | .woven _ _ =>
      some "Array, string or bit-field expects numeric index, not a string"
    | .float _ _ => some (expects ++ "a float")
    | .char _ _ => some (expects ++ "a character")
    | .unit _ => some (expects ++ "()")
    | .both _ _ _ | .either _ _ _ | .bool _ _ => some (expects ++ "a boolean")
    | _ => none
  | _ => none

/-- An index, after its opening bracket; only the first one into a literal is checked against it. -/
def index (g : Grammar) (ctx : Context) (base : Option Expr) : Parse Expr := do
  let e ← g.expr ctx
  match base.bind (badIndex? · e) with
  | some text => fail (.badIndex text) e.startPlace
  | none =>
    let t ← peek
    if t.token.isMark .rightBracket then
      let _ ← next
      return e
    else missing t "]" "for a matching [ in this index expression"

def opensCall (t : Token) : Bool := t.isMark .leftParen || t.isMark .unit

def member (g : Grammar) (ctx : Context) : Parse Link := do
  let t ← peek
  match t.token with
  | .name s => do
    let _ ← next
    let u ← peek
    if opensCall u.token then return .method s (← callArguments g ctx s) t.place
    else return .property s t.place
  | .reserved s =>
    if methodWords.contains s then do
      let _ ← next
      let u ← peek
      if opensCall u.token then return .method s (← callArguments g ctx s) t.place
      else fail (.reserved s) t.place
    else fail (.reserved s) t.place
  | _ => fail .propertyExpected t.place

def links (g : Grammar) (ctx : Context) (base : Expr) : Nat → List Link → Parse (List Link)
  | 0, _ => nowhere
  | fuel + 1, back => do
    let t ← peek
    match t.token with
    | .mark .period => do
      let _ ← next
      let l ← member g ctx
      links g ctx base fuel (l :: back)
    | .mark .leftBracket => do
      let _ ← next
      let e ← index g ctx (if back.isEmpty then some base else none)
      links g ctx base fuel (.index e t.place :: back)
    | _ => return back.reverse

def withLinks (g : Grammar) (ctx : Context) (base : Expr) : Parse Expr := do
  let t ← peek
  let ls ← links g ctx base (← remaining) []
  if ls.isEmpty then return base else return .path base ls t.place

def named (g : Grammar) (ctx : Context) (s : String) (place : Position) : Parse Expr := do
  let t ← peek
  if opensCall t.token then return .call s (← callArguments g ctx s) place
  else if t.token.isMark .bang then
    let _ ← next
    let t ← peek
    fail (.missing "(" "to start arguments list of function call") t.place
  else return .variable s place

def reservedName (g : Grammar) (ctx : Context) (s : String) (place : Position) : Parse Expr := do
  let t ← peek
  if opensCall t.token && callableWords.contains s then
    return .call s (← callArguments g ctx s) place
  else if s = "this" && !ctx.inFunction then
    failLexical (.misused "'this' can only be used in functions") place
  else fail (.reserved s) place

def grouped (g : Grammar) (ctx : Context) : Parse Expr := do
  let e ← g.expr ctx
  let t ← next
  if t.token.isMark .rightParen then return e
  else missing t ")" "for a matching ( in this expression"

def operandBase (g : Grammar) (ctx : Context) : Parse Expr := do
  let t ← peek
  let place := t.place
  match t.token with
  | .eof => fail .incomplete place
  | .mark .leftBrace => do
    let b ← g.block ctx
    return .statement (.block b.body b.place)
  | .keyword k =>
    if ["if", "while", "loop", "do", "for"].contains k then return .statement (← g.control ctx)
    else if k = "true" || k = "false" then
      let _ ← next
      return .bool (k = "true") place
    else failLexical (.unexpected k) place
  | other => do
    let _ ← next
    match other with
    | .mark .unit => return .unit place
    | .int n => return .int n place
    | .float x => return .float x place
    | .char c => return .char c place
    | .text s => return .text s place
    | .lead s => do
      let parts ← wovenParts g ctx (← remaining) (addPiece s place [])
      return .woven parts place
    | .mark .leftParen => grouped g ctx
    | .mark .leftBracket => return .array (← arrayItems g ctx (← remaining) []) place
    | .mark .mapStart => return .map (← mapEntries g ctx (← remaining) []) place
    | .name s => named g ctx s place
    | .reserved s => reservedName g ctx s place
    | .fault f => failLexical f place
    | unexpected => failLexical (.unexpected unexpected.shown) place

def operand (g : Grammar) (ctx : Context) : Parse Expr := do
  let ctx := { ctx with valued := true }
  withLinks g ctx (← operandBase g ctx)

/-- The sign of a literal belongs to it; the least integer has no opposite. -/
def negate (e : Expr) (place : Position) : Expr :=
  match e with
  | .int n _ =>
    if Decimal.fitsInt64 (-n) then .int (-n) place else .float (-(Float.ofInt n)) place
  | .float x _ => .float (-x) place
  | e => .unary .minus e place

def affirm (e : Expr) (place : Position) : Expr :=
  match e with
  | .int _ _ | .float _ _ => e
  | e => .unary .plus e place

def unaryExpr (g : Grammar) (ctx : Context) : Parse Expr := do
  let t ← peek
  match t.token with
  | .operator .sub => do
    let _ ← next
    return negate (← g.unary ctx) t.place
  | .operator .add => do
    let _ ← next
    return affirm (← g.unary ctx) t.place
  | .mark .bang => do
    let _ ← next
    return .unary .not (← g.unary ctx) t.place
  | .eof => fail .incomplete t.place
  | _ => operand g ctx

def peekOperator : Parse (Option Operator) := do
  let t ← peek
  match t.token with
  | .operator o => return some o
  | .reserved s => if isProperName s then return none else fail (.unknownOperator s) t.place
  | _ => return none

/-- Of two operands that have to be truth values the right one is looked at first. -/
def joined (op : Operator) (l r : Expr) (place : Position) : Parse Expr :=
  match op with
  | .and => do
    ensureBoolean r
    ensureBoolean l
    return .both l r place
  | .or => do
    ensureBoolean r
    ensureBoolean l
    return .either l r place
  | op => return .binary op l r place

def operatorsFrom (g : Grammar) (ctx : Context) (parent : Nat) : Nat → Expr → Parse Expr
  | 0, _ => nowhere
  | fuel + 1, l => do
    match ← peekOperator with
    | none => return l
    | some op =>
      if op.precedence < parent || (op.precedence = parent && !op.bindsRight) then return l
      else
        let t ← next
        let r ← g.unary ctx
        let following ← peekOperator
        let r ← match following with
          | some op' =>
            if op.precedence < op'.precedence ||
                (op.precedence = op'.precedence && op.bindsRight) then
              g.operators ctx op.precedence r
            else pure r
          | none => pure r
        operatorsFrom g ctx parent fuel (← joined op l r t.place)

def binaryExpr (g : Grammar) (ctx : Context) (parent : Nat) (l : Expr) : Parse Expr := do
  operatorsFrom g ctx parent (← remaining) l

def expression (g : Grammar) (ctx : Context) : Parse Expr := do
  let e ← unaryExpr g ctx
  binaryExpr g ctx 1 e

end Grammar

end Conduit.Script

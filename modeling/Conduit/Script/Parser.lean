import Conduit.Script.Grammar

/-!
The grammar of statements, and reading a whole script.
-/
namespace Conduit.Script

namespace Grammar

open Parse

def variableName : Parse String := do
  let t ← next
  match t.token with
  | .name s => return s
  | .reserved s =>
    if isProperName s then fail (.reserved s) t.place else fail .variableExpected t.place
  | .fault f => failLexical f t.place
  | _ => fail .variableExpected t.place

def statementPurpose : String := "to terminate this statement"

def blockBody (g : Grammar) (ctx : Context) : Nat → List Stmt → Parse (List Stmt)
  | 0, _ => nowhere
  | fuel + 1, back => do
    let t ← peek
    match t.token with
    | .mark .rightBrace => do
      let _ ← next
      return back.reverse
    | .eof => fail (.missing "\x7d" "to terminate this block") t.place
    | _ => do
      match ← g.statement { ctx with outermost := false } with
      | none => blockBody g ctx fuel back
      | some s =>
        let t ← peek
        if t.token.isMark .rightBrace then blockBody g ctx fuel (s :: back)
        else if t.token.isMark .semicolon then
          let _ ← next
          blockBody g ctx fuel (s :: back)
        else if s.isClosed then blockBody g ctx fuel (s :: back)
        else missing t ";" statementPurpose

def blockOf (g : Grammar) (ctx : Context) : Parse Block := do
  let t ← next
  if t.token.isMark .leftBrace then
    let body ← inScope (do blockBody g ctx (← remaining) [])
    return ⟨prune ctx.valued body, t.place⟩
  else missing t "\x7b" "to start a statement block"

def condition (g : Grammar) (ctx : Context) : Parse Expr := do
  ensureNoBlock
  let e ← expression g ctx
  ensureBoolean e
  ensureNoAssignment
  return e

def branch (g : Grammar) (ctx : Context) (place : Position) : Parse Stmt := do
  let c ← condition g ctx
  let yes ← blockOf g ctx
  if ← nextIf (·.isKeyword "else") then
    let t ← peek
    if t.token.isKeyword "if" then return .branch c yes.body [← g.control ctx] place
    else return .branch c yes.body (← blockOf g ctx).body place
  else return .branch c yes.body [] place

def loopBody (g : Grammar) (ctx : Context) : Parse Block :=
  blockOf g { ctx with inLoop := true, valued := false }

def doWhile (g : Grammar) (ctx : Context) (place : Position) : Parse Stmt := do
  let body ← loopBody g ctx
  let t ← next
  if t.token.isKeyword "while" then return .doWhile body.body (← condition g ctx) place
  else fail (.missing "while" "for the do statement") t.place

def forEach (g : Grammar) (ctx : Context) (place : Position) : Parse Stmt := do
  let name ← variableName
  let t ← next
  if t.token.isKeyword "in" then
    ensureNoBlock
    let items ← expression g ctx
    ensureIterable items
    let body ← inScope (do
      bindName name false
      loopBody g ctx)
    return .forEach name items body.body place body.place
  else missing t "in" "after the iteration variable"

def controlStmt (g : Grammar) (ctx : Context) : Parse Stmt := do
  let t ← next
  match t.token with
  | .keyword "if" => branch g ctx t.place
  | .keyword "while" => do
    let c ← condition g ctx
    return .whileLoop c (← loopBody g ctx).body t.place
  | .keyword "loop" => do
    let body ← loopBody g ctx
    return .forever body.body t.place body.place
  | .keyword "do" => doWhile g ctx t.place
  | _ => forEach g ctx t.place

def attempt (g : Grammar) (ctx : Context) (place : Position) : Parse Stmt := do
  let body ← blockOf g ctx
  let t ← peek
  if ← nextIf (·.isKeyword "catch") then
    if ← nextIf (·.isMark .leftParen) then
      let name ← variableName
      let t ← peek
      if ← nextIf (·.isMark .rightParen) then
        let handler ← inScope (do
          bindName name false
          blockOf g ctx)
        return .attempt body.body (some name) handler.body place
      else fail (.missing ")" "to enclose the catch variable") t.place
    else return .attempt body.body none (← blockOf g ctx).body place
  else fail (.missing "catch" "for the 'try' statement") t.place

def define (g : Grammar) (ctx : Context) (constant : Bool) (place : Position) : Parse Stmt := do
  let name ← variableName
  let t ← peek
  let value ← match t.token with
    | .assign none => do
      let _ ← next
      pure (some (← expression g ctx))
    | _ => pure none
  bindName name constant
  return .define constant name value place

def optionalValue (g : Grammar) (ctx : Context) : Parse (Option Expr) := do
  let t ← peek
  match t.token with
  | .eof | .mark .semicolon => return none
  | .mark .rightBrace =>
    if ctx.outermost then return some (← expression g ctx) else return none
  | _ => return some (← expression g ctx)

def parameters (name : String) : Nat → List String → Parse (List String)
  | 0, _ => nowhere
  | fuel + 1, back => do
    let t ← next
    match t.token with
    | .mark .rightParen => return back.reverse
    | .name p => do
      if back.contains p then fail (.duplicateParameter name p) t.place
      else
        let t ← next
        match t.token with
        | .mark .rightParen => return (p :: back).reverse
        | .mark .comma => parameters name fuel (p :: back)
        | _ => missing t "," ("to separate the parameters of function '" ++ name ++ "'")
    | .reserved s => fail (.reserved s) t.place
    | _ => missing t ")" ("to close the parameters list of function '" ++ name ++ "'")

def function (g : Grammar) : Parse Function := do
  let t ← next
  match t.token with
  | .name name => do
    let t ← peek
    let params ← match t.token with
      | .mark .leftParen => do
        let _ ← next
        parameters name (← remaining) []
      | .mark .unit => do
        let _ ← next
        pure []
      | _ => fail (.functionParameters name) t.place
    let t ← peek
    if t.token.isMark .leftBrace then
      let body ← inScope (do
        setScope (params.reverse.map fun p => ⟨p, false⟩)
        blockOf g { inFunction := true })
      return ⟨name, params, body.body⟩
    else fail (.functionBody name) t.place
  | .reserved s => fail (.reserved s) t.place
  | _ => fail .functionName t.place

def defineFunction (g : Grammar) (place : Position) : Parse Unit := do
  let f ← function g
  let known ← functions
  if known.any fun f' => f'.name = f.name && f'.parameters.length = f.parameters.length then
    fail (.duplicateFunction f.name f.parameters.length) place
  else addFunction f

/-- The first method on the way to a part: what a method gives cannot be assigned to. -/
def firstMethod? : List Link → Option Position
  | [] => none
  | .method _ _ p :: _ => some p
  | _ :: rest => firstMethod? rest

def ensureAssignable (op : Option Operator) (target : Expr) (place : Position) : Parse Unit :=
  match target with
  | .variable name p => do
    if ← isConstant name then fail (.assignToConstant name) p else return
  | .path base links _ =>
    match firstMethod? links, base with
    | some p, _ => fail .assignToExpression p
    | none, .variable _ _ => return
    | none, base => fail .assignToExpression base.place
  | .both _ _ _ | .either _ _ _ =>
    if op.isNone then failLexical typoAdvice place else fail .assignToExpression target.place
  | e => fail (if e.isLiteral then .assignToLiteral else .assignToExpression)
      (if e.isLiteral then e.startPlace else e.place)

def assignment (op : Option Operator) (target value : Expr) (place : Position) : Stmt :=
  match op, target, value with
  | none, .variable name _, .binary o (.variable name' _) r p =>
    if name = name' && assigningOperators.contains o then .assign (some o) target r p
    else .assign op target value place
  | _, _, _ => .assign op target value place

def expressionStmt (g : Grammar) (ctx : Context) : Parse Stmt := do
  let e ← expression g ctx
  let t ← peek
  match t.token with
  | .assign op => do
    let _ ← next
    let value ← expression g ctx
    ensureAssignable op e t.place
    return assignment op e value t.place
  | _ => return .expr e

def keywordStmt (g : Grammar) (ctx : Context) (k : String) (place : Position) :
    Parse (Option Stmt) := do
  match k with
  | "if" | "while" | "loop" | "do" | "for" => return some (← controlStmt g ctx)
  | "fn" => do
    if ctx.outermost then
      let _ ← next
      defineFunction g place
      return none
    else fail .misplacedFunction place
  | "break" | "continue" => do
    if ctx.inLoop then
      let _ ← next
      if k = "break" then
        return some (.leave (← optionalValue g { ctx with outermost := false }) place)
      else return some (.skip place)
    else fail .strayLoopExit place
  | "return" => do
    let _ ← next
    return some (.giveBack (← optionalValue g ctx) place)
  | "throw" => do
    let _ ← next
    return some (.throw (← optionalValue g ctx) place)
  | "try" => do
    let _ ← next
    return some (← attempt g ctx place)
  | "let" => do
    let _ ← next
    return some (← define g ctx false place)
  | "const" => do
    let _ ← next
    return some (← define g ctx true place)
  | _ => return some (← expressionStmt g ctx)

def statementOf (g : Grammar) (ctx : Context) : Parse (Option Stmt) := do
  let t ← peek
  match t.token with
  | .eof => return none
  | .mark .semicolon => do
    let _ ← next
    return none
  | .mark .leftBrace => do
    let b ← blockOf g ctx
    return some (.block b.body b.place)
  | .keyword k => keywordStmt g ctx k t.place
  | _ => return some (← expressionStmt g ctx)

def above (g : Grammar) : Grammar :=
  { expr := expression g
    unary := unaryExpr g
    operators := binaryExpr g
    statement := statementOf g
    block := blockOf g
    control := controlStmt g }

def ofDepth : Nat → Grammar
  | 0 => bottom
  | n + 1 => (ofDepth n).above

def scriptBody (g : Grammar) : Nat → List Stmt → Parse (List Stmt)
  | 0, _ => nowhere
  | fuel + 1, back => do
    let t ← peek
    if t.token.isEof then return back.reverse
    else
      match ← statementOf g { outermost := true } with
      | none => scriptBody g fuel back
      | some s =>
        let t ← peek
        if t.token.isEof then return (s :: back).reverse
        else if t.token.isMark .semicolon then
          let _ ← next
          scriptBody g fuel (s :: back)
        else if s.isClosed then scriptBody g fuel (s :: back)
        else missing t ";" statementPurpose

end Grammar

/-- Each level of nesting takes a token or two of its own, so this depth is enough. -/
def parse (source : String) : Except ParseFault Program :=
  let ts := tokens source
  let g := Grammar.ofDepth (2 * ts.length + 8)
  match Grammar.scriptBody g (ts.length + 1) [] { tokens := ts } with
  | .error f => .error f
  | .ok (body, s) => .ok { body := prune true body, functions := s.functions }

structure Report where
  functions : List String
  problem : Option Diagnostic

def Report.isClean (r : Report) : Bool := r.problem.isNone

def sortedNames (names : List String) : List String :=
  (names.mergeSort fun a b => !(b < a)).eraseReps

def check (source : String) : Report :=
  match parse source with
  | .ok p => { functions := sortedNames (p.functions.map (·.name)), problem := none }
  | .error f => { functions := [], problem := some f.diagnostic }

end Conduit.Script

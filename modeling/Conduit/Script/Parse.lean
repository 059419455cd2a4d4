import Conduit.Diagnostic
import Conduit.Script.Lexer
import Conduit.Script.Syntax

/-!
Readers of tokens: what they pass on, and the ways in which a script can be ill-formed.
-/
namespace Conduit.Script

inductive ParseCause where
  | lexical (f : LexFault)
  | incomplete
  | missing (token purpose : String)
  | reserved (s : String)
  | unknownOperator (s : String)
  | variableExpected
  | propertyExpected
  | functionName
  | functionParameters (function : String)
  | functionBody (function : String)
  | duplicateFunction (function : String) (arity : Nat)
  | duplicateParameter (function parameter : String)
  | misplacedFunction
  | strayLoopExit
  | assignToConstant (name : String)
  | assignToLiteral
  | assignToExpression
  | expressionExpected (kind : String)
  | mismatch (expected actual : String)
  | duplicateProperty (name : String)
  | badIndex (text : String)
  | tooDeep
deriving DecidableEq, Repr

namespace ParseCause

def arityText : Nat → String
  | 0 => "no parameters"
  | 1 => "1 parameter"
  | n => Decimal.natText n ++ " parameters"

def message : ParseCause → String
  | lexical f => f.message
  | incomplete => "Script is incomplete"
  | missing token purpose => "Expecting '" ++ token ++ "' " ++ purpose
  | reserved s =>
    "'" ++ s ++ "' is a reserved " ++ (if isProperName s then "keyword" else "symbol")
  | unknownOperator s => "Unknown operator: '" ++ s ++ "'"
  | variableExpected => "Expecting name of a variable"
  | propertyExpected => "Expecting name of a property"
  | functionName => "Expecting function name in function declaration"
  | functionParameters f => "Expecting parameters for function " ++ f
  | functionBody f => "Expecting body statement block for function " ++ f
  | duplicateFunction f n => "Function " ++ f ++ " with " ++ arityText n ++ " already exists"
  | duplicateParameter f p => "Duplicated parameter " ++ p ++ " for function " ++ f
  | misplacedFunction =>
    "Function definitions must be at global level and cannot be inside a block or another function"
  | strayLoopExit => "Break statement should only be used inside a loop"
  | assignToConstant name => "Cannot assign to constant " ++ name
  | assignToLiteral => "Cannot assign to a constant value"
  | assignToExpression => "Expression cannot be assigned to"
  | expressionExpected kind => "Expecting " ++ kind ++ " expression"
  | mismatch expected actual => "Expecting " ++ expected ++ ", not " ++ actual
  | duplicateProperty name => "Duplicated property for object map literal: " ++ name
  | badIndex text => text
  | tooDeep => "Expression exceeds maximum complexity"

end ParseCause

structure ParseFault where
  cause : ParseCause
  place : Position
deriving DecidableEq, Repr

def ParseFault.diagnostic (f : ParseFault) : Diagnostic :=
  { message := f.cause.message, line := some f.place.line, column := some f.place.column }

structure Binding where
  name : String
  constant : Bool
deriving DecidableEq, Repr

structure ParseState where
  tokens : List PlacedToken
  scope : List Binding := []
  functions : List Function := []

def Parse (α : Type) : Type := ParseState → Except ParseFault (α × ParseState)

namespace Parse

instance : Monad Parse where
  pure a := fun s => .ok (a, s)
  bind p f := fun s =>
    match p s with
    | .error e => .error e
    | .ok (a, s) => f a s

def fail (cause : ParseCause) (place : Position) : Parse α := fun _ => .error ⟨cause, place⟩

def failLexical (f : LexFault) (place : Position) : Parse α := fail (.lexical f) place

def peek : Parse PlacedToken := fun s =>
  match s.tokens with
  | t :: _ => .ok (t, s)
  | [] => .ok (⟨.eof, Position.start⟩, s)

def next : Parse PlacedToken := fun s =>
  match s.tokens with
  | [] => .ok (⟨.eof, Position.start⟩, s)
  | [t] => .ok (t, s)
  | t :: rest => .ok (t, { s with tokens := rest })

def nextIf (p : Token → Bool) : Parse Bool := do
  let t ← peek
  if p t.token then
    let _ ← next
    return true
  else
    return false

def remaining : Parse Nat := fun s => .ok (s.tokens.length + 1, s)

def scope : Parse (List Binding) := fun s => .ok (s.scope, s)

def setScope (bindings : List Binding) : Parse Unit := fun s => .ok ((), { s with scope := bindings })

def bindName (name : String) (constant : Bool) : Parse Unit := fun s =>
  .ok ((), { s with scope := ⟨name, constant⟩ :: s.scope })

def inScope (p : Parse α) : Parse α := do
  let outer ← scope
  let a ← p
  setScope outer
  return a

def isConstant (name : String) : Parse Bool := fun s =>
  .ok ((s.scope.find? (·.name = name)).any (·.constant), s)

def functions : Parse (List Function) := fun s => .ok (s.functions, s)

def addFunction (f : Function) : Parse Unit := fun s =>
  .ok ((), { s with functions := s.functions ++ [f] })

def missing (t : PlacedToken) (token purpose : String) : Parse α :=
  match t.token with
  | .fault f => failLexical f t.place
  | _ => fail (.missing token purpose) t.place

end Parse

end Conduit.Script

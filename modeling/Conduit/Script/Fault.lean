import Conduit.Diagnostic
import Conduit.Script.Position
import Conduit.Script.Token
import Conduit.Script.Value

/-!
Failures of a running script. Each has a cause and a place; one that left a function is wrapped in the
call it left.
-/
namespace Conduit.Script

inductive Cause where
  | divisionByZero (a b : Int)
  | remainder (a b : Int)
  | overflow (op : Operator) (a b : Int)
  | negation (a : Int)
  | negativePower (a b : Int)
  | variableNotFound (name : String)
  | functionNotFound (signature : String)
  | arrayBounds (length : Nat) (index : Int)
  | textBounds (length : Nat) (index : Int)
  | bitBounds (index : Int)
  | noIndexer (signature : String)
  | noGetter (property type : String)
  | noSetter (property type : String)
  | mismatch (expected actual : String)
  | notIterable
  | constantModified (name : String)
  | constantMutated (method : String)
  | thrown (v : Value)
  /-- The run was called off. -/
  | terminated
  | stackOverflow
  /-- The bound on the number of operations was reached. -/
  | exhausted

namespace Cause

def operationText (a : Int) (op : String) (b : Int) : String :=
  Decimal.intText a ++ " " ++ op ++ " " ++ Decimal.intText b

def overflowName : Operator → String
  | .add => "Addition"
  | .sub => "Subtraction"
  | .mul => "Multiplication"
  | .div => "Division"
  | _ => "Exponential"

def boundsText (kind one many whole : String) (length : Nat) (index : Int) : String :=
  kind ++ " index " ++ Decimal.intText index ++ " out of bounds: " ++
    match length with
    | 0 => whole ++ " is empty"
    | 1 => "only 1 " ++ one ++ " in " ++ whole
    | n => "only " ++ Decimal.natText n ++ " " ++ many ++ " in " ++ whole

def propertyText (property accessor type : String) : String :=
  "Unknown property '" ++ property ++ "' - a " ++ accessor ++ " is not registered for type '" ++
    type ++ "'"

def message : Cause → String
  | divisionByZero a b => "Division by zero: " ++ operationText a "/" b
  | remainder a b => "Modulo division by zero or overflow: " ++ operationText a "%" b
  | overflow op a b => overflowName op ++ " overflow: " ++ operationText a op.text b
  | negation a => "Negation overflow: -" ++ Decimal.intText a
  | negativePower a b => "Integer raised to a negative power: " ++ operationText a "**" b
  | variableNotFound name => "Variable not found: " ++ name
  | functionNotFound signature => "Function not found: " ++ signature
  | arrayBounds n i => boundsText "Array" "element" "elements" "array" n i
  | textBounds n i => boundsText "String" "character" "characters" "string" n i
  | bitBounds i => boundsText "Bit-field" "bit" "bits" "bit-field" 64 i
  | noIndexer signature => "Indexer unavailable: " ++ signature
  | noGetter property type => propertyText property "getter" type
  | noSetter property type => propertyText property "setter" type
  | mismatch expected actual => "Data type incorrect: " ++ actual ++ " (expecting " ++ expected ++ ")"
  | notIterable => "For loop expects iterable type"
  | constantModified name => "Cannot modify constant: " ++ name
  | constantMutated method => "Non-pure method '" ++ method ++ "' cannot be called on constant"
  | thrown v => if v.shown.isEmpty then "Runtime error" else "Runtime error: " ++ v.shown
  | terminated => "Script terminated"
  | stackOverflow => "Stack overflow"
  | exhausted => "Too many operations"

def isFinal : Cause → Bool
  | terminated | stackOverflow | exhausted => true
  | _ => false

def particulars : Cause → String × List (String × Value)
  | divisionByZero _ _ | remainder _ _ | overflow _ _ _ | negation _ | negativePower _ _ =>
    ("ErrorArithmetic", [])
  | variableNotFound name => ("ErrorVariableNotFound", [("variable", .text name)])
  | functionNotFound signature => ("ErrorFunctionNotFound", [("function", .text signature)])
  | arrayBounds n i => ("ErrorArrayBounds", [("length", .int n), ("index", .int i)])
  | textBounds n i => ("ErrorStringBounds", [("length", .int n), ("index", .int i)])
  | bitBounds i => ("ErrorBitFieldBounds", [("length", .int 64), ("index", .int i)])
  | noIndexer signature => ("ErrorIndexingType", [("type", .text signature)])
  | noGetter p t => ("ErrorDotExpr", [("property", .text (propertyText p "getter" t))])
  | noSetter p t => ("ErrorDotExpr", [("property", .text (propertyText p "setter" t))])
  | mismatch expected actual =>
    ("ErrorMismatchDataType", [("requested", .text expected), ("actual", .text actual)])
  | notIterable => ("ErrorFor", [])
  | constantModified name => ("ErrorAssignmentToConstant", [("variable", .text name)])
  | constantMutated _ => ("ErrorNonPureMethodCallOnConstant", [])
  | thrown _ => ("ErrorRuntime", [])
  | terminated => ("ErrorTerminated", [])
  | stackOverflow => ("ErrorStackOverflow", [])
  | exhausted => ("ErrorTooManyOperations", [])

end Cause

inductive Fault where
  | plain (cause : Cause) (place : Position)
  /-- A failure that left a function; the place is that of the call. -/
  | inCall (function : String) (inner : Fault) (place : Position)

namespace Fault

def place : Fault → Position
  | plain _ p => p
  | inCall _ _ p => p

def withPlace (f : Fault) (p : Position) : Fault :=
  match f with
  | plain cause _ => .plain cause p
  | inCall function inner _ => .inCall function inner p

def root : Fault → Cause
  | plain cause _ => cause
  | inCall _ inner _ => inner.root

def isFinal (f : Fault) : Bool := f.root.isFinal

def isTermination (f : Fault) : Bool :=
  match f.root with
  | .terminated => true
  | _ => false

def ending (p : Position) : String := " (" ++ p.text ++ ")"

def text : Fault → String
  | plain cause p => cause.message ++ ending p
  | inCall function inner p => inner.text ++ "\nin call to function '" ++ function ++ "'" ++ ending p

def message : Fault → String
  | plain cause _ => cause.message
  | inCall function inner _ => inner.text ++ "\nin call to function '" ++ function ++ "'"

def withoutPlace (text : String) (p : Position) : String :=
  let chars := text.toList
  let last := (ending p).toList
  if last.isSuffixOf chars then String.ofList (chars.take (chars.length - last.length)) else text

def diagnostic (f : Fault) : Diagnostic :=
  { message := withoutPlace f.text f.place, line := some f.place.line, column := some f.place.column }

def caught (f : Fault) : Value :=
  match f.root with
  | .thrown v => v
  | _ =>
    let (kind, fields) := match f with
      | plain cause _ => cause.particulars
      | inCall function _ _ =>
        ("ErrorInFunctionCall", [("function", Value.text function), ("source", .text "")])
    Value.ofEntries (("error", .text kind) :: ("message", .text f.message) ::
      ("line", .int f.place.line) :: ("position", .int f.place.column) :: fields)

end Fault

end Conduit.Script

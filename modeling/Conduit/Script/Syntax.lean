import Conduit.Script.Token

/-!
Expressions and statements. Each keeps the place that errors and interruptions in it are reported at:
an operation that of its operator, a call that of the name.
-/
namespace Conduit.Script

inductive UnaryOperator where
  | plus | minus | not
deriving DecidableEq, Repr

def UnaryOperator.text : UnaryOperator → String
  | plus => "+"
  | minus => "-"
  | not => "!"

mutual

inductive Expr where
  | unit (at_ : Position)
  | bool (b : Bool) (at_ : Position)
  | int (n : Int) (at_ : Position)
  | float (x : Float) (at_ : Position)
  | char (c : Char) (at_ : Position)
  | text (s : String) (at_ : Position)
  /-- Text with values between its parts. -/
  | woven (parts : List Expr) (at_ : Position)
  | array (items : List Expr) (at_ : Position)
  | map (entries : List (String × Expr)) (at_ : Position)
  | variable (name : String) (at_ : Position)
  | call (name : String) (args : List Expr) (at_ : Position)
  | unary (op : UnaryOperator) (operand : Expr) (at_ : Position)
  | binary (op : Operator) (left right : Expr) (at_ : Position)
  | both (left right : Expr) (at_ : Position)
  | either (left right : Expr) (at_ : Position)
  /-- A value and the way from it to one of its parts; the place is that of the first dot or bracket. -/
  | path (base : Expr) (links : List Link) (at_ : Position)
  | statement (s : Stmt)

inductive Link where
  | property (name : String) (at_ : Position)
  | method (name : String) (args : List Expr) (at_ : Position)
  /-- The place is that of the bracket. -/
  | index (e : Expr) (at_ : Position)

inductive Stmt where
  | expr (e : Expr)
  | define (constant : Bool) (name : String) (value : Option Expr) (at_ : Position)
  | assign (op : Option Operator) (target value : Expr) (at_ : Position)
  | block (body : List Stmt) (at_ : Position)
  | branch (condition : Expr) (yes no : List Stmt) (at_ : Position)
  | whileLoop (condition : Expr) (body : List Stmt) (at_ : Position)
  /-- The second place is that of the body. -/
  | forever (body : List Stmt) (at_ bodyAt : Position)
  | doWhile (body : List Stmt) (condition : Expr) (at_ : Position)
  | forEach (name : String) (items : Expr) (body : List Stmt) (at_ bodyAt : Position)
  | leave (value : Option Expr) (at_ : Position)
  | skip (at_ : Position)
  | giveBack (value : Option Expr) (at_ : Position)
  | throw (value : Option Expr) (at_ : Position)
  | attempt (body : List Stmt) (name : Option String) (handler : List Stmt) (at_ : Position)

end

structure Function where
  name : String
  parameters : List String
  body : List Stmt

structure Program where
  body : List Stmt
  /-- In the order of their definitions. -/
  functions : List Function

def Program.find? (p : Program) (name : String) (arity : Nat) : Option Function :=
  p.functions.find? fun f => f.name = name && f.parameters.length = arity

mutual

def Expr.place : Expr → Position
  | .unit p | .bool _ p | .int _ p | .float _ p | .char _ p | .text _ p => p
  | .woven _ p | .array _ p | .map _ p => p
  | .variable _ p | .call _ _ p | .unary _ _ p | .binary _ _ _ p => p
  | .both _ _ p | .either _ _ p => p
  | .path _ _ p => p
  | .statement s => s.place

def Stmt.place : Stmt → Position
  | .expr e => e.place
  | .define _ _ _ p | .assign _ _ _ p | .block _ p | .branch _ _ _ p | .whileLoop _ _ p => p
  | .forever _ p _ | .doWhile _ _ p | .forEach _ _ _ p _ => p
  | .leave _ p | .skip p | .giveBack _ p | .throw _ p | .attempt _ _ _ p => p

end

def Expr.startPlace : Expr → Position
  | .both l _ _ | .either l _ _ => l.startPlace
  | .path base _ _ => base.startPlace
  | e => e.place

mutual

def Expr.isLiteral : Expr → Bool
  | .unit _ | .bool _ _ | .int _ _ | .float _ _ | .char _ _ | .text _ _ => true
  | .woven parts _ => Expr.allLiteral parts
  | .array items _ => Expr.allLiteral items
  | .map entries _ => Expr.entriesLiteral entries
  | _ => false

def Expr.allLiteral : List Expr → Bool
  | [] => true
  | e :: rest => e.isLiteral && Expr.allLiteral rest

def Expr.entriesLiteral : List (String × Expr) → Bool
  | [] => true
  | (_, e) :: rest => e.isLiteral && Expr.entriesLiteral rest

end

mutual

def Expr.isPure : Expr → Bool
  | .unit _ | .bool _ _ | .int _ _ | .float _ _ | .char _ _ | .text _ _ => true
  | .variable _ _ => true
  | .woven parts _ => Expr.allPure parts
  | .array items _ => Expr.allPure items
  | .map entries _ => Expr.entriesPure entries
  | .both l r _ | .either l r _ => l.isPure && r.isPure
  | .binary .range (.int _ _) (.int _ _) _ => true
  | .binary .rangeTo (.int _ _) (.int _ _) _ => true
  | .statement s => s.isPure
  | _ => false

def Expr.allPure : List Expr → Bool
  | [] => true
  | e :: rest => e.isPure && Expr.allPure rest

def Expr.entriesPure : List (String × Expr) → Bool
  | [] => true
  | (_, e) :: rest => e.isPure && Expr.entriesPure rest

def Stmt.isPure : Stmt → Bool
  | .expr e => e.isPure
  | .block body _ => Stmt.allPure body
  | .branch c yes no _ => c.isPure && Stmt.allPure yes && Stmt.allPure no
  | .forEach _ items body _ _ => items.isPure && Stmt.allPure body
  | .attempt body _ handler _ => Stmt.allPure body && Stmt.allPure handler
  | _ => false

def Stmt.allPure : List Stmt → Bool
  | [] => true
  | s :: rest => s.isPure && Stmt.allPure rest

end

/-- Statements without those that are pure: they are not carried out, unless the last one gives the
block its value. -/
def prune (keepLast : Bool) : List Stmt → List Stmt
  | [] => []
  | [s] => if s.isPure && !keepLast then [] else [s]
  | s :: rest => if s.isPure then prune keepLast rest else s :: prune keepLast rest

def Stmt.isClosed : Stmt → Bool
  | .block _ _ | .branch _ _ _ _ | .whileLoop _ _ _ | .forever _ _ _ => true
  | .forEach _ _ _ _ _ | .attempt _ _ _ _ => true
  | _ => false

end Conduit.Script

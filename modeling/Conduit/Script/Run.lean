import Conduit.Script.Console
import Conduit.Script.Parser

/-!
Evaluating expressions and statements. One step of an evaluation is given the evaluation of everything
smaller; the whole is a number of such steps that no script comes near to.
-/
namespace Conduit.Script

inductive Task where
  | expr (e : Expr)
  | stmt (s : Stmt)
  /-- The next round of a loop. -/
  | again (s : Stmt)

inductive Hop where
  | property (name : String) (place : Position)
  | method (name : String) (args : List Value) (place : Position)
  | index (v : Value) (place bracket : Position)

def maxDepth : Nat := 4096

structure Functions where
  program : Program
  builtIn : String → List Value → Position → Eval Eval.Applied

namespace Eval

variable (fs : Functions) (rec_ : Task → Eval Value)

def sequence : List Stmt → Eval Value
  | [] => pure .unit
  | [x] => rec_ (.stmt x)
  | x :: rest => do
    let _ ← rec_ (.stmt x)
    sequence rest

def values : List Expr → Eval (List Value)
  | [] => pure []
  | e :: rest => do
    let v ← rec_ (.expr e)
    let vs ← values rest
    pure (v :: vs)

/-- The arguments of a call. A variable that comes first is looked at after all the others. -/
def arguments : List Expr → Eval (List Value)
  | .variable name place :: rest => do
    poll place
    let vs ← values rec_ rest
    pure ((← find name place).value :: vs)
  | args => values rec_ args

/-- How an exit from the body of a function looks from outside. A failure that is final is moved to
the call; any other one is wrapped in it. -/
def leaveFunction (name : String) (place : Position) : Except Exit Value → Eval Value
  | .ok v => pure v
  | .error (.returned v) => pure v
  | .error (.fault f) =>
    raise (.fault (if f.isFinal then f.withPlace place else .inCall name f place))
  | .error x => raise x

def callFunction (f : Function) (args : List Value) (place : Position) : Eval Value := do
  poll place
  let outer ← env
  if maxDepth ≤ outer.depth then fail .stackOverflow place
  else
    let slots := (f.parameters.zip args).map fun (name, value) => Slot.mk name value false
    setEnv { scope := slots.reverse, depth := outer.depth + 1 }
    let r ← capture (sequence rec_ f.body)
    setEnv outer
    leaveFunction f.name place r

/-- A function of the script comes before any other of its name. -/
def apply (name : String) (args : List Value) (place : Position) : Eval Applied := do
  match fs.program.find? name args.length with
  | some f => pure ⟨← callFunction rec_ f args place, none⟩
  | none => fs.builtIn name args place

/-- A call. A function that changes its first argument changes the variable given for it. -/
def call (name : String) (args : List Expr) (place : Position) : Eval Value := do
  let vs ← arguments rec_ args
  let r ← apply fs rec_ name vs place
  match args.head?, r.receiver with
  | some (.variable v p), some new => do
    if !(← find v p).constant then store v new
    pure r.result
  | _, _ => pure r.result

/-- A function of the script does not see the value it is called on. -/
def callMethod (v : Value) (name : String) (args : List Value) (place : Position) : Eval Applied := do
  match fs.program.find? name args.length with
  | some f => pure ⟨← callFunction rec_ f args place, none⟩
  | none => fs.builtIn name (v :: args) place

def hops : List Link → Eval (List Hop)
  | [] => pure []
  | .property name place :: rest => do
    pure (.property name place :: (← hops rest))
  | .method name args place :: rest => do
    let vs ← values rec_ args
    pure (.method name vs place :: (← hops rest))
  | .index e bracket :: rest => do
    let v ← rec_ (.expr e)
    pure (.index v e.startPlace bracket :: (← hops rest))

def follow (constant : Bool) (v : Value) : List Hop → Eval (Value × Option Value)
  | [] => pure (v, none)
  | .property name place :: rest => do
    let w ← ofExcept place (Operation.property v name)
    let (result, changed) ← follow constant w rest
    pure (result, changed.bind fun w => (Operation.withProperty v name w).toOption)
  | .index i place bracket :: rest => do
    let w ← ofFault (Operation.part v i place bracket)
    let (result, changed) ← follow constant w rest
    pure (result, changed.bind fun w => (Operation.withPart v i w place bracket).toOption)
  | .method name args place :: rest => do
    let r ← callMethod fs rec_ v name args place
    if constant && r.receiver.isSome then fail (.constantMutated name) place
    else
      let (result, _) ← follow constant r.result rest
      pure (result, r.receiver)

def path (base : Expr) (links : List Link) : Eval Value := do
  let hs ← hops rec_ links
  match base with
  | .variable name place => do
    poll place
    let slot ← find name place
    let (result, changed) ← follow fs rec_ slot.constant slot.value hs
    match changed with
    | some v => do
      store name v
      pure result
    | none => pure result
  | e => do
    let v ← rec_ (.expr e)
    let (result, _) ← follow fs rec_ false v hs
    pure result

def combined (op : Option Operator) (old new : Value) (place : Position) : Eval Value :=
  match op with
  | none => pure new
  | some o => do
    poll place
    ofExcept place (Operation.combine o old new)

def assignAt (op : Option Operator) (new : Value) (place : Position) (v : Value) :
    List Hop → Eval Value
  | [] => combined op v new place
  | .property name p :: rest => do
    if rest.isEmpty && op.isNone then ofExcept p (Operation.withProperty v name new)
    else
      let w ← ofExcept p (Operation.property v name)
      let w ← assignAt op new place w rest
      ofExcept p (Operation.withProperty v name w)
  | .index i p bracket :: rest => do
    if rest.isEmpty && op.isNone then ofFault (Operation.withPart v i new p bracket)
    else
      let w ← ofFault (Operation.part v i p bracket)
      let w ← assignAt op new place w rest
      ofFault (Operation.withPart v i w p bracket)
  | .method _ _ _ :: _ => pure v

/-- The new value is evaluated before the target is looked at. -/
def assign (op : Option Operator) (target value : Expr) (place : Position) : Eval Unit := do
  let new ← rec_ (.expr value)
  let (name, at_, links) := match target with
    | .variable name p => (name, p, [])
    | .path (.variable name p) links _ => (name, p, links)
    | e => ("", e.place, [])
  let hs ← hops rec_ links
  poll at_
  let slot ← find name at_
  let v ← assignAt op new place slot.value hs
  if slot.constant then fail (.constantModified name) at_ else store name v

def condition (e : Expr) : Eval Bool := do
  match ← rec_ (.expr e) with
  | .bool b => pure b
  | v => fail (.mismatch "bool" v.typeName) e.place

def both (l r : Expr) : Eval Value :=
  match l, r with
  | .bool true _, r => rec_ (.expr r)
  | .bool false _, _ => pure (.bool false)
  | l, .bool true _ => rec_ (.expr l)
  | l, r => do
    if ← condition rec_ l then pure (.bool (← condition rec_ r)) else pure (.bool false)

def either (l r : Expr) : Eval Value :=
  match l, r with
  | .bool false _, r => rec_ (.expr r)
  | .bool true _, _ => pure (.bool true)
  | l, .bool false _ => rec_ (.expr l)
  | l, r => do
    if ← condition rec_ l then pure (.bool true) else pure (.bool (← condition rec_ r))

def entries : List (String × Expr) → Eval (List (String × Value))
  | [] => pure []
  | (k, e) :: rest => do
    let v ← rec_ (.expr e)
    pure ((k, v) :: (← entries rest))

def operation (op : Operator) (l r : Expr) (place : Position) : Eval Value := do
  let operands ← arguments rec_ [l, r]
  poll place
  match operands with
  | [a, b] => ofExcept place (Operation.binary op a b)
  | _ => pure .unit

def signed (op : UnaryOperator) (e : Expr) (place : Position) : Eval Value := do
  let operands ← arguments rec_ [e]
  poll place
  match operands with
  | [v] => ofExcept place (Operation.unary op v)
  | _ => pure .unit

def expression (e : Expr) : Eval Value := do
  poll e.place
  match e with
  | .unit _ => pure .unit
  | .bool b _ => pure (.bool b)
  | .int n _ => pure (.int n)
  | .float x _ => pure (.float x)
  | .char c _ => pure (.char c)
  | .text t _ => pure (.text t)
  | .woven parts _ => do
    pure (.text (String.join ((← values rec_ parts).map Value.shown)))
  | .array items _ => do pure (.array (← values rec_ items))
  | .map es _ => do pure (Value.ofEntries (← entries rec_ es))
  | .variable name place => do pure (← find name place).value
  | .call name args place => call fs rec_ name args place
  | .unary op e place => signed rec_ op e place
  | .binary op l r place => operation rec_ op l r place
  | .both l r _ => both rec_ l r
  | .either l r _ => either rec_ l r
  | .path base links _ => path fs rec_ base links
  | .statement x => rec_ (.stmt x)

def optional : Option Expr → Eval Value
  | none => pure .unit
  | some e => rec_ (.expr e)

def block (body : List Stmt) : Eval Value := inBlock (sequence rec_ body)

def forEach (name : String) (items : Expr) (body : List Stmt) (bodyAt : Position) : Eval Value := do
  match (← rec_ (.expr items)).items? with
  | none => fail .notIterable items.startPlace
  | some is =>
    forItems (fun v => do
      poll bodyAt
      round (inBlock (do
        bindSlot ⟨name, v, false⟩
        block rec_ body))) is

/-- A handler that throws nothing throws again what it caught. -/
def attempt (body : List Stmt) (name : Option String) (handler : List Stmt) : Eval Value := do
  match ← capture (block rec_ body) with
  | .ok v => pure v
  | .error (.fault f) =>
    if f.isFinal then raise (.fault f)
    else
      let r ← capture (inBlock (do
        match name with
        | some n => bindSlot ⟨n, f.caught, false⟩
        | none => pure ()
        block rec_ handler))
      match r with
      | .ok _ => pure .unit
      | .error (.fault (.plain (.thrown .unit) p)) => raise (.fault (f.withPlace p))
      | .error x => raise x
  | .error x => raise x

def rounds (x : Stmt) : Eval Value := do
  match x with
  | .whileLoop c body _ => do
    if ← condition rec_ c then
      match ← round (block rec_ body) with
      | some v => pure v
      | none => rec_ (.again x)
    else pure .unit
  | .forever body _ bodyAt => do
    if body.isEmpty then poll bodyAt
    match ← round (block rec_ body) with
    | some v => pure v
    | none => rec_ (.again x)
  | .doWhile body c _ => do
    match ← capture (block rec_ body) with
    | .ok _ => if ← condition rec_ c then rec_ (.again x) else pure .unit
    | .error .skipped => rec_ (.again x)
    | .error (.left v) => pure v
    | .error e => raise e
  | _ => pure .unit

def statement (x : Stmt) : Eval Value := do
  poll x.place
  match x with
  | .expr e => rec_ (.expr e)
  | .define constant name value _ => do
    let v ← optional rec_ value
    bindSlot ⟨name, v, constant⟩
    pure .unit
  | .assign op target value place => do
    assign rec_ op target value place
    pure .unit
  | .block body _ => block rec_ body
  | .branch c yes no _ => do
    if ← condition rec_ c then block rec_ yes else block rec_ no
  | .whileLoop _ _ _ | .forever _ _ _ | .doWhile _ _ _ => rounds rec_ x
  | .forEach name items body _ bodyAt => forEach rec_ name items body bodyAt
  | .leave value _ => do raise (.left (← optional rec_ value))
  | .skip _ => raise .skipped
  | .giveBack value _ => do raise (.returned (← optional rec_ value))
  | .throw value place => do fail (.thrown (← optional rec_ value)) place
  | .attempt body name handler _ => attempt rec_ body name handler

def step : Task → Eval Value
  | .expr e => expression fs rec_ e
  | .stmt x => statement rec_ x
  | .again x => rounds rec_ x

def bounded (fs : Functions) : Nat → Task → Eval Value
  | 0, _ => fail .exhausted Position.start
  | n + 1, t => step fs (bounded fs n) t

def patience : Nat := 1000000000000000

end Eval

def failure? : Except Exit Value → Option Fault
  | .error (.fault f) => some f
  | _ => none

def Functions.run (fs : Functions) : Conduct :=
  Eval.sequence (Eval.bounded fs Eval.patience) fs.program.body {} fun r _ => .done (failure? r)

def Setting.functions (s : Setting) : Functions := ⟨s.program, Eval.builtIn s⟩

def Setting.run (s : Setting) : Conduct := s.functions.run

end Conduit.Script

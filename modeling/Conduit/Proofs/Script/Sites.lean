import Conduit.Script.Run

/-!
Where a script can fail, and with what. Every expression and every statement has its sites, the places that
failures in it are told at, and what stands at a site decides what can go wrong there. A failure that leaves
functions lies at a site of the innermost of them, and each call on its way at a site of the next one.
-/
namespace Conduit.Script

inductive Part where
  /-- Any expression, any statement and the body of a loop: a script may end there that is called off. -/
  | step
  | operator (op : Operator)
  | sign (op : UnaryOperator)
  | name (name : String)
  | call (name : String)
  | property (name : String)
  | index
  | bracket
  | condition
  | items
  | throw

inductive Part.FailsWith : Part → Cause → Prop
  | division (a : Int) : FailsWith (.operator .div) (.divisionByZero a 0)
  | remainder (a b : Int) : FailsWith (.operator .mod) (.remainder a b)
  | power (a b : Int) : FailsWith (.operator .pow) (.negativePower a b)
  | overflow (op : Operator) (a b : Int) : FailsWith (.operator op) (.overflow op a b)
  | operands (op : Operator) (v w : Value) :
      FailsWith (.operator op) (Operation.notFound op.text [v, w])
  | negation (a : Int) : FailsWith (.sign .minus) (.negation a)
  | operand (op : UnaryOperator) (v : Value) : FailsWith (.sign op) (Operation.notFound op.text [v])
  | unknown (name : String) : FailsWith (.name name) (.variableNotFound name)
  | constant (name : String) : FailsWith (.name name) (.constantModified name)
  | missing (name : String) (args : List Value) :
      FailsWith (.call name) (Operation.notFound name args)
  | deep (name : String) : FailsWith (.call name) .stackOverflow
  | spent (name : String) : FailsWith (.call name) .exhausted
  | noInteger (line : String) :
      FailsWith (.call "read_int") (.thrown (.text (Eval.integerMessage line)))
  | mutation (name : String) : FailsWith (.call name) (.constantMutated name)
  | getter (name type : String) : FailsWith (.property name) (.noGetter name type)
  | setter (name type : String) : FailsWith (.property name) (.noSetter name type)
  | array (length : Nat) (i : Int) : FailsWith .index (.arrayBounds length i)
  | text (length : Nat) (i : Int) : FailsWith .index (.textBounds length i)
  | bit (i : Int) : FailsWith .index (.bitBounds i)
  | kind (expected actual : String) : FailsWith .index (.mismatch expected actual)
  | noIndexer (signature : String) : FailsWith .bracket (.noIndexer signature)
  | truth (type : String) : FailsWith .condition (.mismatch "bool" type)
  | notIterable : FailsWith .items .notIterable
  | thrown (v : Value) : FailsWith .throw (.thrown v)

theorem Part.FailsWith.ne_terminated {part : Part} {c : Cause} (h : part.FailsWith c) :
    c ≠ .terminated := by
  cases h <;> exact nofun

structure Site where
  part : Part
  place : Position

def Expr.target : Expr → Site
  | .variable name p | .path (.variable name p) _ _ => ⟨.name name, p⟩
  | e => ⟨.name "", e.place⟩

def Site.ofOperator (op : Option Operator) (p : Position) : List Site :=
  match op with
  | none => []
  | some op => [⟨.operator op, p⟩]

mutual

/-- The places that failures in an expression itself are told at. What it calls has its own. -/
def Expr.sites : Expr → List Site
  | .unit p | .bool _ p | .int _ p | .float _ p | .char _ p | .text _ p => [⟨.step, p⟩]
  | .woven parts p => ⟨.step, p⟩ :: Expr.allSites parts
  | .array items p => ⟨.step, p⟩ :: Expr.allSites items
  | .map entries p => ⟨.step, p⟩ :: Expr.entrySites entries
  | .variable name p => [⟨.step, p⟩, ⟨.name name, p⟩]
  | .call name args p => ⟨.step, p⟩ :: ⟨.call name, p⟩ :: Expr.allSites args
  | .unary op e p => ⟨.step, p⟩ :: ⟨.sign op, p⟩ :: e.sites
  | .binary op l r p => ⟨.step, p⟩ :: ⟨.operator op, p⟩ :: (l.sites ++ r.sites)
  | .both l r p | .either l r p =>
    ⟨.step, p⟩ :: ⟨.condition, l.place⟩ :: ⟨.condition, r.place⟩ :: (l.sites ++ r.sites)
  | .path base links p => ⟨.step, p⟩ :: (base.sites ++ Link.allSites links)
  | .statement x => ⟨.step, x.place⟩ :: x.sites

def Expr.allSites : List Expr → List Site
  | [] => []
  | e :: rest => e.sites ++ Expr.allSites rest

def Expr.entrySites : List (String × Expr) → List Site
  | [] => []
  | (_, e) :: rest => e.sites ++ Expr.entrySites rest

def Expr.optionalSites : Option Expr → List Site
  | none => []
  | some e => e.sites

def Link.sites : Link → List Site
  | .property name p => [⟨.property name, p⟩]
  | .method name args p => ⟨.call name, p⟩ :: Expr.allSites args
  | .index e bracket => ⟨.index, e.startPlace⟩ :: ⟨.bracket, bracket⟩ :: e.sites

def Link.allSites : List Link → List Site
  | [] => []
  | link :: rest => link.sites ++ Link.allSites rest

def Stmt.sites : Stmt → List Site
  | .expr e => ⟨.step, e.place⟩ :: e.sites
  | .define _ _ value p => ⟨.step, p⟩ :: Expr.optionalSites value
  | .assign op target value p =>
    ⟨.step, p⟩ :: target.target :: (Site.ofOperator op p ++ target.sites ++ value.sites)
  | .block body p => ⟨.step, p⟩ :: Stmt.allSites body
  | .branch c yes no p =>
    ⟨.step, p⟩ :: ⟨.condition, c.place⟩ :: (c.sites ++ Stmt.allSites yes ++ Stmt.allSites no)
  | .whileLoop c body p => ⟨.step, p⟩ :: ⟨.condition, c.place⟩ :: (c.sites ++ Stmt.allSites body)
  | .forever body p bodyAt => ⟨.step, p⟩ :: ⟨.step, bodyAt⟩ :: Stmt.allSites body
  | .doWhile body c p => ⟨.step, p⟩ :: ⟨.condition, c.place⟩ :: (c.sites ++ Stmt.allSites body)
  | .forEach _ items body p bodyAt =>
    ⟨.step, p⟩ :: ⟨.items, items.startPlace⟩ :: ⟨.step, bodyAt⟩ :: (items.sites ++ Stmt.allSites body)
  | .leave value p | .giveBack value p => ⟨.step, p⟩ :: Expr.optionalSites value
  | .skip p => [⟨.step, p⟩]
  | .throw value p => ⟨.step, p⟩ :: ⟨.throw, p⟩ :: Expr.optionalSites value
  | .attempt body _ handler p => ⟨.step, p⟩ :: (Stmt.allSites body ++ Stmt.allSites handler)

def Stmt.allSites : List Stmt → List Site
  | [] => []
  | x :: rest => x.sites ++ Stmt.allSites rest

end

theorem Expr.step_mem_sites (e : Expr) : ⟨.step, e.place⟩ ∈ e.sites := by
  cases e <;> exact List.mem_cons_self

theorem Stmt.step_mem_sites (x : Stmt) : ⟨.step, x.place⟩ ∈ x.sites := by
  cases x <;> exact List.mem_cons_self

/-! What the operators can fail with -/

namespace Operation

theorem failsWith_checked {op : Operator} {a b r : Int} {c : Cause}
    (h : checked op a b r = .error c) : (Part.operator op).FailsWith c := by
  unfold checked at h
  split at h
  · cases h
  · cases h
    exact .overflow op a b

theorem failsWith_divide {a b : Int} {c : Cause} (h : divide a b = .error c) :
    (Part.operator .div).FailsWith c := by
  unfold divide at h
  split at h
  · rename_i hb
    cases h
    rw [hb]
    exact .division a
  · exact failsWith_checked h

theorem failsWith_remainder {a b : Int} {c : Cause} (h : remainder a b = .error c) :
    (Part.operator .mod).FailsWith c := by
  unfold remainder at h
  split at h
  · cases h
    exact .remainder a b
  · cases h

theorem failsWith_power {a b : Int} {c : Cause} (h : power a b = .error c) :
    (Part.operator .pow).FailsWith c := by
  unfold power at h
  split at h
  · cases h
    exact .power a b
  · split at h
    · cases h
      exact .overflow .pow a b
    · split at h
      · cases h
      · split at h
        · cases h
          exact .overflow .pow a b
        · exact failsWith_checked h

theorem failsWith_onInts {op : Operator} {a b : Int} {c : Cause} (h : onInts op a b = .error c) :
    (Part.operator op).FailsWith c := by
  cases op with
  | add | sub | mul => exact failsWith_checked h
  | div => exact failsWith_divide h
  | mod => exact failsWith_remainder h
  | pow => exact failsWith_power h
  | and | or =>
    cases h
    exact .operands _ _ _
  | _ => cases h

theorem failsWith_binary {op : Operator} {v w : Value} {c : Cause} (h : binary op v w = .error c) :
    (Part.operator op).FailsWith c := by
  unfold binary at h
  split at h
  · exact failsWith_onInts h
  · split at h <;> cases h
    exact .operands _ _ _

theorem failsWith_combine {op : Operator} {old new : Value} {c : Cause}
    (h : combine op old new = .error c) : (Part.operator op).FailsWith c := by
  unfold combine at h
  split at h
  · cases h
  · cases h
  · exact failsWith_binary h

theorem failsWith_unary {op : UnaryOperator} {v : Value} {c : Cause} (h : unary op v = .error c) :
    (Part.sign op).FailsWith c := by
  unfold unary at h
  split at h
  · split at h <;> cases h
    exact .negation _
  all_goals cases h
  exact .operand _ _

theorem failsWith_property {v : Value} {name : String} {c : Cause} (h : property v name = .error c) :
    (Part.property name).FailsWith c := by
  unfold property at h
  split at h
  · cases h
  · split at h <;> cases h
    exact .getter _ _
  · split at h <;> cases h
    exact .getter _ _
  · cases h
    exact .getter _ _

theorem failsWith_withProperty {v new : Value} {name : String} {c : Cause}
    (h : withProperty v name new = .error c) : (Part.property name).FailsWith c := by
  unfold withProperty at h
  split at h <;> cases h
  exact .setter _ _

variable {v index new : Value} {place bracket : Position} {f : Fault}

def FailsAt (place bracket : Position) (f : Fault) : Prop :=
  ∃ c, (f = .plain c place ∧ Part.index.FailsWith c) ∨ (f = .plain c bracket ∧ Part.bracket.FailsWith c)

theorem failsAt_part (h : part v index place bracket = .error f) : FailsAt place bracket f := by
  unfold part at h
  split at h
  · split at h <;> cases h
    exact ⟨_, .inl ⟨rfl, .array _ _⟩⟩
  · cases h
    exact ⟨_, .inl ⟨rfl, .kind _ _⟩⟩
  · cases h
  · cases h
    exact ⟨_, .inl ⟨rfl, .kind _ _⟩⟩
  · split at h <;> cases h
    exact ⟨_, .inl ⟨rfl, .text _ _⟩⟩
  · cases h
    exact ⟨_, .inl ⟨rfl, .kind _ _⟩⟩
  · split at h <;> cases h
    exact ⟨_, .inl ⟨rfl, .bit _⟩⟩
  · cases h
    exact ⟨_, .inr ⟨rfl, .noIndexer _⟩⟩

theorem failsAt_withPart (h : withPart v index new place bracket = .error f) :
    FailsAt place bracket f := by
  unfold withPart at h
  split at h
  · split at h <;> cases h
    exact ⟨_, .inl ⟨rfl, .array _ _⟩⟩
  · cases h
  · split at h <;> cases h
    · exact ⟨_, .inl ⟨rfl, .kind _ _⟩⟩
    · exact ⟨_, .inl ⟨rfl, .text _ _⟩⟩
  · split at h
    · cases h
      exact failsAt_part ‹_›
    · cases h
      exact ⟨_, .inr ⟨rfl, .noIndexer _⟩⟩

end Operation

/-! How a failure comes about -/

namespace Fault

/-- A failure in a piece of a program with these sites. One that no script can catch is moved out of every
function that it leaves; any other one keeps the calls on its way. -/
inductive Arises (program : Program) : List Site → Fault → Prop
  | here {sites : List Site} {part : Part} {c : Cause} {p : Position} (hp : ⟨part, p⟩ ∈ sites)
      (hc : part.FailsWith c) : Arises program sites (.plain c p)
  | off {sites : List Site} {part : Part} {p : Position} (hp : ⟨part, p⟩ ∈ sites) :
      Arises program sites (.plain .terminated p)
  /-- The number of steps is bounded as a whole. -/
  | spent {sites : List Site} : Arises program sites (.plain .exhausted .start)
  /-- A handler throws what it caught. -/
  | again {sites : List Site} {f : Fault} {p : Position} (h : Arises program sites f)
      (hf : f.isFinal = false) (hp : ⟨.throw, p⟩ ∈ sites) : Arises program sites (f.withPlace p)
  | called {sites : List Site} {function : Function} {f : Fault} {p : Position}
      (hm : function ∈ program.functions) (h : Arises program (Stmt.allSites function.body) f)
      (hf : f.isFinal = false) (hp : ⟨.call function.name, p⟩ ∈ sites) :
      Arises program sites (.inCall function.name f p)

variable {program : Program} {sites : List Site} {f : Fault}

theorem place_withPlace (f : Fault) (p : Position) : (f.withPlace p).place = p := by
  cases f <;> rfl

theorem isFinal_withPlace (f : Fault) (p : Position) : (f.withPlace p).isFinal = f.isFinal := by
  cases f <;> rfl

theorem Arises.plain_of_isFinal (h : f.Arises program sites) (hf : f.isFinal = true) :
    ∃ c p, f = .plain c p ∧ c.isFinal = true := by
  cases h with
  | here hp hc => exact ⟨_, _, rfl, hf⟩
  | off hp => exact ⟨_, _, rfl, rfl⟩
  | spent => exact ⟨_, _, rfl, rfl⟩
  | again h hg hp => exact absurd ((isFinal_withPlace _ _).symm.trans hf) (by simp [hg])
  | called hm h hg hp => exact absurd hf (by simpa [isFinal, root] using hg)

theorem Arises.throw_mem {p : Position} (h : (plain (.thrown .unit) p).Arises program sites) :
    ⟨.throw, p⟩ ∈ sites := by
  generalize hf : plain (.thrown .unit) p = f at h
  cases h with
  | here hp hc =>
    cases hf
    cases hc
    exact hp
  | off hp => cases hf
  | spent => cases hf
  | @again _ g q hg hfinal hq =>
    obtain rfl : p = q := (congrArg place hf).trans (place_withPlace g q)
    exact hq
  | called hm h hf' hp => cases hf

theorem Arises.leaves {function : Function} {p : Position}
    (h : f.Arises program (Stmt.allSites function.body)) (hm : function ∈ program.functions)
    (hp : ⟨.call function.name, p⟩ ∈ sites) :
    (if f.isFinal then f.withPlace p else .inCall function.name f p).Arises program sites := by
  split
  · rename_i hf
    obtain ⟨c, q, rfl, hc⟩ := h.plain_of_isFinal hf
    cases c with
    | terminated => exact .off hp
    | stackOverflow => exact .here hp (.deep _)
    | exhausted => exact .here hp (.spent _)
    | _ => cases hc
  · exact .called hm h (Bool.eq_false_iff.mpr ‹_›) hp

/-! How a failure is told -/

def origin : Fault → Position
  | plain _ p => p
  | inCall _ inner _ => inner.origin

def calls : Fault → List (String × Position)
  | plain _ _ => []
  | inCall function inner p => inner.calls ++ [(function, p)]

/-- The place of the outermost call that a failure has left; its own one if it has left none. -/
def outermost (f : Fault) : Position := (f.calls.getLast?.map Prod.snd).getD f.origin

def trail (call : String × Position) : String :=
  "\nin call to function '" ++ call.1 ++ "'" ++ ending call.2

theorem outermost_eq_place (f : Fault) : f.outermost = f.place := by
  cases f with
  | plain c p => rfl
  | inCall function inner p => simp [outermost, calls, place]

theorem text_eq_message (f : Fault) : f.text = f.message ++ ending f.place := by
  cases f <;> rfl

theorem text_inCall (function : String) (f : Fault) (p : Position) :
    (inCall function f p).text = f.text ++ trail (function, p) := by
  -- With the words themselves in place of the variables they would be computed.
  have h : ∀ a b c d e : String, a ++ b ++ c ++ d ++ e = a ++ (b ++ c ++ d ++ e) := by
    intro a b c d e
    simp only [String.append_assoc]
  exact h _ _ _ _ _

/-- A failure is told by its cause and its place, and by the calls it left in their order. -/
theorem text_eq_trail (f : Fault) :
    f.text = f.root.message ++ ending f.origin ++ String.join (f.calls.map trail) := by
  induction f with
  | plain c p => rw [calls, List.map_nil, String.join_nil, String.append_empty, text, root, origin]
  | inCall function inner p ih =>
    rw [text_inCall, ih, calls, List.map_append, String.join_append, List.map_cons, List.map_nil,
      String.join_cons, String.join_nil, String.append_empty, root, origin, String.append_assoc]

theorem withoutPlace_append (t : String) (p : Position) : withoutPlace (t ++ ending p) p = t := by
  have hsuffix : (ending p).toList.isSuffixOf (t.toList ++ (ending p).toList) = true :=
    List.isSuffixOf_iff_suffix.mpr (List.suffix_append _ _)
  simp only [withoutPlace, String.toList_append, hsuffix, if_true, List.length_append,
    Nat.add_sub_cancel, List.take_left, String.ofList_toList]

/-- The place is taken off the end of the text once, whatever comes before it. -/
theorem diagnostic_eq (f : Fault) :
    f.diagnostic = ⟨f.message, some f.place.line, some f.place.column⟩ := by
  rw [diagnostic, text_eq_message, withoutPlace_append]

end Fault

end Conduit.Script

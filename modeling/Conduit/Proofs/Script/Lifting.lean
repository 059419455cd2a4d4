import Conduit.Proofs.Script.Sites

/-!
What all evaluations have in common. An evaluation is given what comes after it, so two of them are alike if
they are so whenever what follows them is. This is kept by whatever evaluations are put together with, even
if they are given different built-in functions, which alone do anything that others can notice. What follows
may rely on two things: a failure that it is told of arises at a site of what was evaluated, and only a look
at the token ends a script because its run was called off.
-/
namespace Conduit.Script

namespace Fault

theorem isTermination_withPlace (f : Fault) (p : Position) :
    (f.withPlace p).isTermination = f.isTermination := by
  cases f <;> rfl

theorem isTermination_inCall (name : String) (f : Fault) (p : Position) :
    (inCall name f p).isTermination = f.isTermination := rfl

theorem isTermination_of_not_isFinal {f : Fault} (h : f.isFinal = false) : f.isTermination = false := by
  unfold isFinal Cause.isFinal at h
  unfold isTermination
  split
  · rename_i hr
    rw [hr] at h
    cases h
  · rfl

end Fault

namespace Exit

def isTermination : Exit → Bool
  | .fault f => f.isTermination
  | _ => false

def Blamed (program : Program) (sites : List Site) : Exit → Prop
  | .fault f => f.Arises program sites
  | _ => True

structure Allowed (program : Program) (off : Bool) (sites : List Site) (x : Exit) : Prop where
  ended : x.isTermination = true → off = true
  blamed : x.Blamed program sites

end Exit

def Task.sites : Task → List Site
  | .expr e => e.sites
  | .stmt x => x.sites
  | .again x => x.sites

def Hop.sites : Hop → List Site
  | .property name p => [⟨.property name, p⟩]
  | .method name _ p => [⟨.call name, p⟩]
  | .index _ p bracket => [⟨.index, p⟩, ⟨.bracket, bracket⟩]

theorem Program.mem_of_find? {program : Program} {name : String} {arity : Nat} {f : Function}
    (h : program.find? name arity = some f) : f ∈ program.functions ∧ f.name = name := by
  have hf := List.find?_some h
  simp only [Bool.and_eq_true, decide_eq_true_eq] at hf
  exact ⟨List.mem_of_find?_eq_some h, hf.1⟩

namespace Eval
variable {α β γ : Type}

def wasEnded : Except Exit α → Bool
  | .error x => x.isTermination
  | .ok _ => false

theorem bind_assoc (m : Eval α) (f : α → Eval β) (g : β → Eval γ) :
    m >>= f >>= g = m >>= fun a => f a >>= g := by
  funext env k
  refine congrArg (m env) (funext fun r => funext fun env => ?_)
  cases r <;> rfl

theorem blamed_off {program : Program} {sites : List Site} {part : Part} {p : Position}
    (hp : ⟨part, p⟩ ∈ sites) :
    ∀ x, (.error (.fault (.plain .terminated p)) : Except Exit α) = .error x → x.Blamed program sites := by
  rintro _ ⟨⟩
  exact .off hp

/-- The evaluations are alike, in the sense of `C`, if what follows them is, outcome by outcome: `C off` is
for what may come where the run is known to be called off if `off` says so. -/
def Lifts (C : Bool → Conduct → Conduct → Prop) (program : Program) (off : Bool) (sites : List Site)
    (m m' : Eval α) : Prop :=
  ∀ env k k', (∀ r env, (∀ x, r = .error x → x.Blamed program sites) →
    C (off || wasEnded r) (k r env) (k' r env)) → C off (m env k) (m' env k')

/-- A relation that a look at the token keeps. It asks for less where the run is known to be called off. -/
structure Passing (C : Bool → Conduct → Conduct → Prop) : Prop where
  weaken : ∀ {off off' : Bool} {c c' : Conduct}, C off c c' → (off = true → off' = true) → C off' c c'
  looked : ∀ {off : Bool} {next next' : Bool → Conduct}, C true (next true) (next' true) →
    C off (next false) (next' false) → C off (.ask .isCancelled next) (.ask .isCancelled next')

namespace Lifts
variable {C : Bool → Conduct → Conduct → Prop} {program : Program} {off : Bool} {sites : List Site}

theorem value (a : α) : Lifts C program off sites (pure a : Eval α) (pure a) := by
  intro env k k' hk
  have ha := hk (.ok a) env nofun
  rwa [wasEnded, Bool.or_false] at ha

theorem envRead : Lifts C program off sites env env := fun env k k' hk => value env env k k' hk

theorem envSet (e : Env) : Lifts C program off sites (setEnv e) (setEnv e) :=
  fun _ k k' hk => value () e k k' hk

end Lifts

open Lifts (value envRead envSet)

namespace Passing
variable {C : Bool → Conduct → Conduct → Prop} {program : Program} {off : Bool} {sites : List Site}
  (h : Passing C)
include h

theorem exits {x : Exit} (hx : x.Allowed program off sites) :
    Lifts C program off sites (raise x : Eval α) (raise x) := by
  intro env k k' hk
  refine h.weaken (hk (.error x) env ?_) fun ho => ?_
  · rintro _ ⟨⟩
    exact hx.blamed
  · exact (Bool.or_eq_true _ _ ▸ ho).elim id hx.ended

theorem andThen {m m' : Eval α} {f f' : α → Eval β} (hm : Lifts C program off sites m m')
    (hf : ∀ a, Lifts C program off sites (f a) (f' a)) :
    Lifts C program off sites (m >>= f) (m' >>= f') := by
  intro env k k' hk
  refine hm env _ _ fun r env hr => ?_
  cases r with
  | ok a => exact h.weaken (hf a env k k' hk) fun ho => by simp [ho]
  | error x => exact hk (.error x) env fun y hy => hr y (by cases hy; rfl)

theorem captured {t : List Site} {m m' : Eval α} {f f' : Except Exit α → Eval β}
    (hm : Lifts C program off t m m')
    (hf : ∀ {off : Bool} r, (∀ x, r = .error x → x.Allowed program off t) →
      Lifts C program off sites (f r) (f' r)) :
    Lifts C program off sites (capture m >>= f) (capture m' >>= f') := by
  intro env k k' hk
  refine hm env _ _ fun r env hr => ?_
  have hended : ∀ x, r = .error x → x.Allowed program (off || wasEnded r) t := by
    rintro x rfl
    exact ⟨fun hx => by rw [wasEnded, hx, Bool.or_true], hr x rfl⟩
  refine hf r hended env k k' fun r' env hr' => h.weaken (hk r' env hr') fun ho => ?_
  rw [Bool.or_right_comm, ho, Bool.true_or]

/-! Variables and outcomes -/

theorem fails {part : Part} {c : Cause} {p : Position} (hp : ⟨part, p⟩ ∈ sites)
    (hc : part.FailsWith c) : Lifts C program off sites (fail c p : Eval α) (fail c p) := by
  refine h.exits ⟨fun ht => ?_, .here hp hc⟩
  cases c with
  | terminated => exact absurd rfl hc.ne_terminated
  | _ => cases ht

theorem ofExcept {part : Part} {p : Position} {r : Except Cause α} (hp : ⟨part, p⟩ ∈ sites)
    (hr : ∀ c, r = .error c → part.FailsWith c) :
    Lifts C program off sites (ofExcept p r) (ofExcept p r) := by
  cases r with
  | ok a => exact value a
  | error c => exact h.fails hp (hr c rfl)

theorem ofFault {p bracket : Position} {r : Except Fault α} (hp : ⟨.index, p⟩ ∈ sites)
    (hb : ⟨.bracket, bracket⟩ ∈ sites) (hr : ∀ f, r = .error f → Operation.FailsAt p bracket f) :
    Lifts C program off sites (ofFault r) (ofFault r) := by
  cases r with
  | ok a => exact value a
  | error f =>
    obtain ⟨c, ⟨rfl, hc⟩ | ⟨rfl, hc⟩⟩ := hr f rfl
    · exact h.fails hp hc
    · exact h.fails hb hc

theorem ofOutcome {r : Except Exit α} (hr : ∀ x, r = .error x → x.Allowed program off sites) :
    Lifts C program off sites (ofOutcome r) (ofOutcome r) := by
  cases r with
  | ok a => exact value a
  | error x => exact h.exits (hr x rfl)

theorem polled {part : Part} {p : Position} (hp : ⟨part, p⟩ ∈ sites) :
    Lifts C program off sites (poll p) (poll p) := by
  intro env k k' hk
  have hon := hk _ env (blamed_off hp)
  have hoff := hk (.ok ()) env nofun
  rw [wasEnded, Bool.or_false] at hoff
  exact h.looked (h.weaken hon fun _ => rfl) hoff

theorem bindSlot (x : Slot) : Lifts C program off sites (bindSlot x) (bindSlot x) :=
  h.andThen envRead fun _ => envSet _

theorem find {name : String} {p : Position} (hp : ⟨.name name, p⟩ ∈ sites) :
    Lifts C program off sites (find name p) (find name p) := by
  refine h.andThen envRead fun e => ?_
  split
  · exact value _
  · exact h.fails hp (.unknown name)

theorem store (name : String) (v : Value) : Lifts C program off sites (store name v) (store name v) :=
  h.andThen envRead fun _ => envSet _

theorem inBlock {m m' : Eval α} (hm : Lifts C program off sites m m') :
    Lifts C program off sites (inBlock m) (inBlock m') :=
  h.andThen envRead fun _ => h.captured hm fun _ hr => h.andThen envRead fun _ =>
    h.andThen (envSet _) fun _ => h.ofOutcome hr

/-! Loops -/

theorem round {m m' : Eval Value} (hm : Lifts C program off sites m m') :
    Lifts C program off sites (round m) (round m') := by
  refine h.captured hm fun r hr => ?_
  split
  · exact value _
  · exact value _
  · exact value _
  · exact h.exits (hr _ rfl)

section
variable {body body' : Value → Eval (Option Value)}
  (hb : ∀ v, Lifts C program off sites (body v) (body' v))
include hb

theorem forListed (vs : List Value) :
    Lifts C program off sites (forListed body vs) (forListed body' vs) := by
  induction vs with
  | nil => exact value _
  | cons v vs ih =>
    refine h.andThen (hb v) fun r => ?_
    cases r with
    | some result => exact value _
    | none => exact ih

theorem forCounting (i : Int) (n : Nat) :
    Lifts C program off sites (forCounting body i n) (forCounting body' i n) := by
  induction n generalizing i with
  | zero => exact value _
  | succ n ih =>
    refine h.andThen (hb _) fun r => ?_
    cases r with
    | some result => exact value _
    | none => exact ih (i + 1)

theorem forItems (items : Value.Items) :
    Lifts C program off sites (forItems body items) (forItems body' items) := by
  cases items with
  | counting first count => exact h.forCounting hb first count
  | listed values => exact h.forListed hb values

end

end Passing

/-- A relation that evaluations keep which may call the functions `fs` in the one case and `fs'` in the
other. -/
structure Closed (C : Bool → Conduct → Conduct → Prop) (fs fs' : Functions) : Prop extends Passing C where
  program : fs'.program = fs.program
  builtIn : ∀ {off : Bool} {sites : List Site} {name : String} {p : Position}, ⟨.call name, p⟩ ∈ sites →
    ∀ args, Lifts C fs.program off sites (fs.builtIn name args p) (fs'.builtIn name args p)

namespace Closed
variable {C : Bool → Conduct → Conduct → Prop} {fs fs' : Functions} {off : Bool} {sites : List Site}
  (h : Closed C fs fs')
include h

/-! One step, given what is smaller -/

variable {rec_ rec_' : Task → Eval Value}
  (hr : ∀ {off : Bool} {sites : List Site} (t : Task), t.sites ⊆ sites →
    Lifts C fs.program off sites (rec_ t) (rec_' t))
include hr

theorem sequence {body : List Stmt} (hs : Stmt.allSites body ⊆ sites) :
    Lifts C fs.program off sites (sequence rec_ body) (sequence rec_' body) := by
  induction body with
  | nil => exact value _
  | cons x rest ih =>
    obtain ⟨hx, hrest⟩ := List.append_subset.mp hs
    cases rest with
    | nil => exact hr (.stmt x) hx
    | cons y rest => exact h.andThen (hr (.stmt x) hx) fun _ => ih hrest

theorem values {es : List Expr} (hs : Expr.allSites es ⊆ sites) :
    Lifts C fs.program off sites (values rec_ es) (values rec_' es) := by
  induction es with
  | nil => exact value _
  | cons e rest ih =>
    obtain ⟨he, hrest⟩ := List.append_subset.mp hs
    exact h.andThen (hr (.expr e) he) fun _ => h.andThen (ih hrest) fun _ => value _

theorem arguments {es : List Expr} (hs : Expr.allSites es ⊆ sites) :
    Lifts C fs.program off sites (arguments rec_ es) (arguments rec_' es) := by
  unfold Eval.arguments
  split
  · rename_i name p rest
    obtain ⟨hname, hrest⟩ := List.append_subset.mp hs
    exact h.andThen (h.polled (hname List.mem_cons_self)) fun _ => h.andThen (h.values hr hrest) fun _ =>
      h.andThen (h.find (hname (by simp [Expr.sites]))) fun _ => value _
  · exact h.values hr hs

omit hr in
theorem leaveFunction {f : Function} {p : Position} {r : Except Exit Value}
    (hf : f ∈ fs.program.functions) (hp : ⟨.call f.name, p⟩ ∈ sites)
    (hr : ∀ x, r = .error x → x.Allowed fs.program off (Stmt.allSites f.body)) :
    Lifts C fs.program off sites (leaveFunction f.name p r) (leaveFunction f.name p r) := by
  unfold Eval.leaveFunction
  split
  · exact value _
  · exact value _
  · obtain ⟨hended, hblamed⟩ := hr _ rfl
    refine h.exits ⟨fun ht => hended ?_, Fault.Arises.leaves hblamed hf hp⟩
    rw [Exit.isTermination] at ht
    split at ht
    · rwa [Fault.isTermination_withPlace] at ht
    · rwa [Fault.isTermination_inCall] at ht
  · rename_i x _ hx
    refine h.exits ⟨(hr x rfl).ended, ?_⟩
    cases x with
    | fault f => exact absurd rfl (hx f)
    | _ => trivial

theorem callFunction {f : Function} {p : Position} (hf : f ∈ fs.program.functions)
    (hp : ⟨.call f.name, p⟩ ∈ sites) (args : List Value) :
    Lifts C fs.program off sites (callFunction rec_ f args p) (callFunction rec_' f args p) := by
  refine h.andThen (h.polled hp) fun _ => h.andThen envRead fun outer => ?_
  split
  · exact h.fails hp (.deep _)
  · -- The body has sites of its own; what leaves it is told at the call.
    exact h.andThen (envSet _) fun _ => h.captured (h.sequence hr fun _ hs => hs) fun r hended =>
      h.andThen (envSet _) fun _ => h.leaveFunction hf hp hended

section
variable {name : String} {p : Position} (hp : ⟨.call name, p⟩ ∈ sites)
include hp

theorem apply (args : List Value) :
    Lifts C fs.program off sites (apply fs rec_ name args p) (apply fs' rec_' name args p) := by
  unfold Eval.apply
  rw [h.program]
  split
  · rename_i f hf
    obtain ⟨hm, rfl⟩ := Program.mem_of_find? hf
    exact h.andThen (h.callFunction hr hm hp args) fun _ => value _
  · exact h.builtIn hp args

theorem callMethod (v : Value) (args : List Value) :
    Lifts C fs.program off sites (callMethod fs rec_ v name args p)
      (callMethod fs' rec_' v name args p) := by
  unfold Eval.callMethod
  rw [h.program]
  split
  · rename_i f hf
    obtain ⟨hm, rfl⟩ := Program.mem_of_find? hf
    exact h.andThen (h.callFunction hr hm hp args) fun _ => value _
  · exact h.builtIn hp _

theorem call {args : List Expr} (hs : Expr.allSites args ⊆ sites) :
    Lifts C fs.program off sites (call fs rec_ name args p) (call fs' rec_' name args p) := by
  refine h.andThen (h.arguments hr hs) fun vs => h.andThen (h.apply hr hp vs) fun r => ?_
  split
  · rename_i v q new hv hnew
    have hname : ⟨.name v, q⟩ ∈ sites := by
      cases args with
      | nil => cases hv
      | cons e rest =>
        cases hv
        exact hs (by simp [Expr.allSites, Expr.sites])
    refine h.andThen (h.find hname) fun slot => ?_
    split
    · exact h.andThen (h.store _ _) fun _ => value _
    · exact h.andThen (value _) fun _ => value _
  · exact value _

end

/-! Paths -/

theorem hops {links : List Link} (hs : Link.allSites links ⊆ sites) {f f' : List Hop → Eval α}
    (hf : ∀ hs, (∀ hop ∈ hs, hop.sites ⊆ sites) → Lifts C fs.program off sites (f hs) (f' hs)) :
    Lifts C fs.program off sites (hops rec_ links >>= f) (hops rec_' links >>= f') := by
  induction links generalizing f f' with
  | nil => exact hf [] (List.forall_mem_nil _)
  | cons link rest ih =>
    obtain ⟨hlink, hrest⟩ := List.append_subset.mp hs
    have next : ∀ {hop : Hop}, hop.sites ⊆ sites → Lifts C fs.program off sites
        ((Eval.hops rec_ rest >>= fun hs => pure (hop :: hs)) >>= f)
        ((Eval.hops rec_' rest >>= fun hs => pure (hop :: hs)) >>= f') := by
      intro hop hhop
      rw [bind_assoc, bind_assoc]
      exact ih hrest fun hs hhs => hf (hop :: hs) (List.forall_mem_cons.mpr ⟨hhop, hhs⟩)
    cases link with
    | property name p => exact next hlink
    | method name args p =>
      obtain ⟨hp, hargs⟩ := List.cons_subset.mp hlink
      rw [Eval.hops, Eval.hops, bind_assoc, bind_assoc]
      exact h.andThen (h.values hr hargs) fun vs => next (by simpa [Hop.sites] using hp)
    | index e bracket =>
      obtain ⟨hp, hb, he⟩ : _ ∧ _ ∧ _ := by simpa [Link.sites] using hlink
      rw [Eval.hops, Eval.hops, bind_assoc, bind_assoc]
      exact h.andThen (hr (.expr e) he) fun v => next (by simpa [Hop.sites] using ⟨hp, hb⟩)

theorem follow {hs : List Hop} (hhs : ∀ hop ∈ hs, hop.sites ⊆ sites) (constant : Bool) (v : Value) :
    Lifts C fs.program off sites (follow fs rec_ constant v hs) (follow fs' rec_' constant v hs) := by
  induction hs generalizing v with
  | nil => exact value _
  | cons hop rest ih =>
    obtain ⟨hhop, hrest⟩ := List.forall_mem_cons.mp hhs
    cases hop with
    | property name p =>
      exact h.andThen (h.ofExcept (hhop List.mem_cons_self) fun _ => Operation.failsWith_property)
        fun w => h.andThen (ih hrest w) fun _ => value _
    | index i p bracket =>
      exact h.andThen (h.ofFault (hhop List.mem_cons_self)
        (hhop (List.mem_cons_of_mem _ List.mem_cons_self)) fun _ => Operation.failsAt_part) fun w =>
          h.andThen (ih hrest w) fun _ => value _
    | method name args p =>
      have hp : ⟨.call name, p⟩ ∈ sites := hhop List.mem_cons_self
      refine h.andThen (h.callMethod hr hp v args) fun r => ?_
      split
      · exact h.fails hp (.mutation name)
      · exact h.andThen (ih hrest _) fun _ => value _

theorem path {base : Expr} {links : List Link} (hb : base.sites ⊆ sites)
    (hs : Link.allSites links ⊆ sites) :
    Lifts C fs.program off sites (path fs rec_ base links) (path fs' rec_' base links) := by
  refine h.hops hr hs fun hs hhs => ?_
  split
  · refine h.andThen (h.polled (hb List.mem_cons_self)) fun _ =>
      h.andThen (h.find (hb (by simp [Expr.sites]))) fun slot =>
        h.andThen (h.follow hr hhs _ _) fun (result, changed) => ?_
    cases changed with
    | some v => exact h.andThen (h.store _ _) fun _ => value _
    | none => exact value _
  · exact h.andThen (hr (.expr base) hb) fun _ => h.andThen (h.follow hr hhs _ _) fun _ => value _

section
variable {op : Option Operator} {p : Position} (hp : ⟨.step, p⟩ ∈ sites)
  (hop : Site.ofOperator op p ⊆ sites)
include hp hop

omit hr in
theorem combined (old new : Value) :
    Lifts C fs.program off sites (combined op old new p) (combined op old new p) := by
  cases op with
  | none => exact value _
  | some o =>
    exact h.andThen (h.polled hp) fun _ =>
      h.ofExcept (hop List.mem_cons_self) fun _ => Operation.failsWith_combine

omit hr in
theorem assignAt {hs : List Hop} (hhs : ∀ hop ∈ hs, hop.sites ⊆ sites) (new v : Value) :
    Lifts C fs.program off sites (assignAt op new p v hs) (assignAt op new p v hs) := by
  induction hs generalizing v with
  | nil => exact h.combined hp hop v new
  | cons hop rest ih =>
    obtain ⟨hhop, hrest⟩ := List.forall_mem_cons.mp hhs
    cases hop with
    | property name q =>
      have hq : ⟨.property name, q⟩ ∈ sites := hhop List.mem_cons_self
      unfold Eval.assignAt
      split
      · exact h.ofExcept hq fun _ => Operation.failsWith_withProperty
      · exact h.andThen (h.ofExcept hq fun _ => Operation.failsWith_property) fun w =>
          h.andThen (ih hrest w) fun _ => h.ofExcept hq fun _ => Operation.failsWith_withProperty
    | index i q bracket =>
      have hq : ⟨.index, q⟩ ∈ sites := hhop List.mem_cons_self
      have hbracket : ⟨.bracket, bracket⟩ ∈ sites := hhop (List.mem_cons_of_mem _ List.mem_cons_self)
      unfold Eval.assignAt
      split
      · exact h.ofFault hq hbracket fun _ => Operation.failsAt_withPart
      · exact h.andThen (h.ofFault hq hbracket fun _ => Operation.failsAt_part) fun w =>
          h.andThen (ih hrest w) fun _ => h.ofFault hq hbracket fun _ => Operation.failsAt_withPart
    | method name args q => exact value _

theorem assign {target v : Expr} (ht : target.target ∈ sites) (hts : target.sites ⊆ sites)
    (hv : v.sites ⊆ sites) :
    Lifts C fs.program off sites (assign rec_ op target v p) (assign rec_' op target v p) := by
  have next : ∀ {name : String} {q : Position} {links : List Link} (new : Value),
      ⟨.name name, q⟩ ∈ sites → Link.allSites links ⊆ sites →
      ∀ goOn, goOn = (fun hs : List Hop => do
        poll q
        let slot ← Eval.find name q
        let v ← Eval.assignAt op new p slot.value hs
        if slot.constant then fail (.constantModified name) q else Eval.store name v) →
      Lifts C fs.program off sites (Eval.hops rec_ links >>= goOn) (Eval.hops rec_' links >>= goOn) := by
    rintro name q links new hq hlinks _ rfl
    refine h.hops hr hlinks fun hs hhs => h.andThen (h.polled hq) fun _ => h.andThen (h.find hq)
      fun slot => h.andThen (h.assignAt hp hop hhs new _) fun v => ?_
    split
    · exact h.fails hq (.constant name)
    · exact h.store _ _
  refine h.andThen (hr (.expr v) hv) fun new => ?_
  -- Only a variable has links that lead to a part of it.
  cases target with
  | «variable» name q => exact next new ht (List.nil_subset _) _ rfl
  | path base links q =>
    cases base with
    | «variable» name q' =>
      exact next new ht (List.append_subset.mp (List.cons_subset.mp hts).2).2 _ rfl
    | _ => exact next new ht (List.nil_subset _) _ rfl
  | _ => exact next new ht (List.nil_subset _) _ rfl

end

theorem condition {e : Expr} (hs : e.sites ⊆ sites) (hc : ⟨.condition, e.place⟩ ∈ sites) :
    Lifts C fs.program off sites (condition rec_ e) (condition rec_' e) := by
  refine h.andThen (hr (.expr e) hs) fun v => ?_
  split
  · exact value _
  · exact h.fails hc (.truth _)

section
variable {l r : Expr} (hl : l.sites ⊆ sites) (hl' : ⟨.condition, l.place⟩ ∈ sites)
  (hs : r.sites ⊆ sites) (hs' : ⟨.condition, r.place⟩ ∈ sites)
include hl hl' hs hs'

theorem both : Lifts C fs.program off sites (both rec_ l r) (both rec_' l r) := by
  unfold Eval.both
  split
  · exact hr (.expr r) hs
  · exact value _
  · exact hr (.expr l) hl
  · refine h.andThen (h.condition hr hl hl') fun c => ?_
    split
    · exact h.andThen (h.condition hr hs hs') fun _ => value _
    · exact value _

theorem either : Lifts C fs.program off sites (either rec_ l r) (either rec_' l r) := by
  unfold Eval.either
  split
  · exact hr (.expr r) hs
  · exact value _
  · exact hr (.expr l) hl
  · refine h.andThen (h.condition hr hl hl') fun c => ?_
    split
    · exact value _
    · exact h.andThen (h.condition hr hs hs') fun _ => value _

end

theorem entries {es : List (String × Expr)} (hs : Expr.entrySites es ⊆ sites) :
    Lifts C fs.program off sites (entries rec_ es) (entries rec_' es) := by
  induction es with
  | nil => exact value _
  | cons e rest ih =>
    obtain ⟨he, hrest⟩ := List.append_subset.mp hs
    exact h.andThen (hr (.expr e.2) he) fun _ => h.andThen (ih hrest) fun _ => value _

theorem operation {op : Operator} {l r : Expr} {p : Position} (hp : ⟨.operator op, p⟩ ∈ sites)
    (hl : l.sites ⊆ sites) (hs : r.sites ⊆ sites) :
    Lifts C fs.program off sites (operation rec_ op l r p) (operation rec_' op l r p) := by
  have hboth : Expr.allSites [l, r] ⊆ sites :=
    List.append_subset.mpr ⟨hl, List.append_subset.mpr ⟨hs, List.nil_subset _⟩⟩
  refine h.andThen (h.arguments hr hboth) fun vs => h.andThen (h.polled hp) fun _ => ?_
  split
  · exact h.ofExcept hp fun _ => Operation.failsWith_binary
  · exact value _

theorem signed {op : UnaryOperator} {e : Expr} {p : Position} (hp : ⟨.sign op, p⟩ ∈ sites)
    (he : e.sites ⊆ sites) :
    Lifts C fs.program off sites (signed rec_ op e p) (signed rec_' op e p) := by
  have hs : Expr.allSites [e] ⊆ sites := List.append_subset.mpr ⟨he, List.nil_subset _⟩
  refine h.andThen (h.arguments hr hs) fun vs => h.andThen (h.polled hp) fun _ => ?_
  split
  · exact h.ofExcept hp fun _ => Operation.failsWith_unary
  · exact value _

theorem expression {e : Expr} (hs : e.sites ⊆ sites) :
    Lifts C fs.program off sites (expression fs rec_ e) (expression fs' rec_' e) := by
  refine h.andThen (h.polled (hs e.step_mem_sites)) fun _ => ?_
  cases e with
  | woven parts p => exact h.andThen (h.values hr (List.cons_subset.mp hs).2) fun _ => value _
  | array items p => exact h.andThen (h.values hr (List.cons_subset.mp hs).2) fun _ => value _
  | map es p => exact h.andThen (h.entries hr (List.cons_subset.mp hs).2) fun _ => value _
  | «variable» name p => exact h.andThen (h.find (hs (by simp [Expr.sites]))) fun _ => value _
  | call name args p =>
    obtain ⟨-, hp, hargs⟩ : _ ∧ _ ∧ _ := by simpa [Expr.sites] using hs
    exact h.call hr hp hargs
  | unary op e p =>
    obtain ⟨-, hp, he⟩ : _ ∧ _ ∧ _ := by simpa [Expr.sites] using hs
    exact h.signed hr hp he
  | binary op l r p =>
    obtain ⟨-, hp, hl, hr'⟩ : _ ∧ _ ∧ _ ∧ _ := by simpa [Expr.sites] using hs
    exact h.operation hr hp hl hr'
  | both l r p =>
    obtain ⟨-, hl', hr', hl, hrs⟩ : _ ∧ _ ∧ _ ∧ _ ∧ _ := by simpa [Expr.sites] using hs
    exact h.both hr hl hl' hrs hr'
  | either l r p =>
    obtain ⟨-, hl', hr', hl, hrs⟩ : _ ∧ _ ∧ _ ∧ _ ∧ _ := by simpa [Expr.sites] using hs
    exact h.either hr hl hl' hrs hr'
  | path base links p =>
    obtain ⟨-, hb, hlinks⟩ : _ ∧ _ ∧ _ := by simpa [Expr.sites] using hs
    exact h.path hr hb hlinks
  | statement x => exact hr (.stmt x) (List.cons_subset.mp hs).2
  | _ => exact value _

omit h in
theorem optional {e : Option Expr} (hs : Expr.optionalSites e ⊆ sites) :
    Lifts C fs.program off sites (optional rec_ e) (optional rec_' e) := by
  cases e with
  | none => exact value _
  | some e => exact hr (.expr e) hs

theorem block {body : List Stmt} (hs : Stmt.allSites body ⊆ sites) :
    Lifts C fs.program off sites (block rec_ body) (block rec_' body) :=
  h.inBlock (h.sequence hr hs)

theorem forEach {name : String} {items : Expr} {body : List Stmt} {bodyAt : Position}
    (hi : items.sites ⊆ sites) (hp : ⟨.items, items.startPlace⟩ ∈ sites)
    (hb : Stmt.allSites body ⊆ sites) (hbodyAt : ⟨.step, bodyAt⟩ ∈ sites) :
    Lifts C fs.program off sites (forEach rec_ name items body bodyAt)
      (forEach rec_' name items body bodyAt) := by
  refine h.andThen (hr (.expr items) hi) fun v => ?_
  split
  · exact h.fails hp .notIterable
  · exact h.forItems (fun v => h.andThen (h.polled hbodyAt) fun _ => h.round (h.inBlock
      (h.andThen (h.bindSlot _) fun _ => h.block hr hb))) _

theorem attempt {body handler : List Stmt} (hb : Stmt.allSites body ⊆ sites)
    (hh : Stmt.allSites handler ⊆ sites) (name : Option String) :
    Lifts C fs.program off sites (attempt rec_ body name handler)
      (attempt rec_' body name handler) := by
  refine h.captured (h.block hr hb) fun r hfirst => ?_
  split
  · exact value _
  · rename_i f
    split
    · exact h.exits (hfirst _ rfl)
    · rename_i hfinal
      have hf : f.isFinal = false := Bool.eq_false_iff.mpr hfinal
      have harises : f.Arises fs.program sites := (hfirst _ rfl).blamed
      refine h.captured (t := sites) (h.inBlock ?_) fun r hagain => ?_
      · cases name with
        | none => exact h.block hr hh
        | some n => exact h.andThen (h.bindSlot _) fun _ => h.block hr hh
      · split
        · exact value _
        · -- What was thrown without a value stands for the first failure.
          rename_i p
          have hthrow : (Fault.plain (.thrown .unit) p).Arises fs.program sites := (hagain _ rfl).blamed
          refine h.exits ⟨fun ht => ?_, .again harises hf hthrow.throw_mem⟩
          rw [Exit.isTermination, Fault.isTermination_withPlace,
            Fault.isTermination_of_not_isFinal hf] at ht
          cases ht
        · exact h.exits (hagain _ rfl)
  · exact h.exits (hfirst _ rfl)

theorem rounds {x : Stmt} (hs : x.sites ⊆ sites) :
    Lifts C fs.program off sites (rounds rec_ x) (rounds rec_' x) := by
  have next : ∀ {f f' : Option Value → Eval Value},
      (∀ v, Lifts C fs.program off sites (f (some v)) (f' (some v))) →
      Lifts C fs.program off sites (f none) (f' none) →
      ∀ r, Lifts C fs.program off sites (f r) (f' r) := by
    intro f f' hsome hnone r
    cases r with
    | some v => exact hsome v
    | none => exact hnone
  unfold Eval.rounds
  split
  · obtain ⟨-, hp, hc, hb⟩ : _ ∧ _ ∧ _ ∧ _ := by simpa [Stmt.sites] using hs
    refine h.andThen (h.condition hr hc hp) fun c => ?_
    split
    · exact h.andThen (h.round (h.block hr hb)) (next value (hr (.again _) hs))
    · exact value _
  · obtain ⟨-, hp, hb⟩ : _ ∧ _ ∧ _ := by simpa [Stmt.sites] using hs
    split
    · exact h.andThen (h.polled hp) fun _ =>
        h.andThen (h.round (h.block hr hb)) (next value (hr (.again _) hs))
    · exact h.andThen (h.round (h.block hr hb)) (next value (hr (.again _) hs))
  · obtain ⟨-, hp, hc, hb⟩ : _ ∧ _ ∧ _ ∧ _ := by simpa [Stmt.sites] using hs
    refine h.captured (h.block hr hb) fun r hended => ?_
    split
    · refine h.andThen (h.condition hr hc hp) fun c => ?_
      split
      · exact hr (.again _) hs
      · exact value _
    · exact hr (.again _) hs
    · exact value _
    · exact h.exits (hended _ rfl)
  · exact value _

theorem statement {x : Stmt} (hs : x.sites ⊆ sites) :
    Lifts C fs.program off sites (statement rec_ x) (statement rec_' x) := by
  refine h.andThen (h.polled (hs x.step_mem_sites)) fun _ => ?_
  cases x with
  | expr e => exact hr (.expr e) (List.cons_subset.mp hs).2
  | define constant name v p =>
    exact h.andThen (optional hr (List.cons_subset.mp hs).2) fun _ =>
      h.andThen (h.bindSlot _) fun _ => value _
  | assign op target v p =>
    obtain ⟨hp, ht, hop, hts, hv⟩ : _ ∧ _ ∧ _ ∧ _ ∧ _ := by simpa [Stmt.sites] using hs
    exact h.andThen (h.assign hr hp hop ht hts hv) fun _ => value _
  | block body p => exact h.block hr (List.cons_subset.mp hs).2
  | branch c yes no p =>
    obtain ⟨-, hp, hc, hyes, hno⟩ : _ ∧ _ ∧ _ ∧ _ ∧ _ := by simpa [Stmt.sites] using hs
    refine h.andThen (h.condition hr hc hp) fun c => ?_
    split
    · exact h.block hr hyes
    · exact h.block hr hno
  | whileLoop c body p => exact h.rounds hr hs
  | forever body p bodyAt => exact h.rounds hr hs
  | doWhile body c p => exact h.rounds hr hs
  | forEach name items body p bodyAt =>
    obtain ⟨-, hp, hbodyAt, hi, hb⟩ : _ ∧ _ ∧ _ ∧ _ ∧ _ := by simpa [Stmt.sites] using hs
    exact h.forEach hr hi hp hb hbodyAt
  | leave v p =>
    exact h.andThen (optional hr (List.cons_subset.mp hs).2) fun _ => h.exits ⟨nofun, trivial⟩
  | skip p => exact h.exits ⟨nofun, trivial⟩
  | giveBack v p =>
    exact h.andThen (optional hr (List.cons_subset.mp hs).2) fun _ => h.exits ⟨nofun, trivial⟩
  | throw v p =>
    obtain ⟨-, hp, hv⟩ : _ ∧ _ ∧ _ := by simpa [Stmt.sites] using hs
    exact h.andThen (optional hr hv) fun v => h.fails hp (.thrown v)
  | attempt body name handler p =>
    obtain ⟨-, hb, hh⟩ : _ ∧ _ ∧ _ := by simpa [Stmt.sites] using hs
    exact h.attempt hr hb hh name

theorem step {t : Task} (hs : t.sites ⊆ sites) :
    Lifts C fs.program off sites (step fs rec_ t) (step fs' rec_' t) := by
  cases t with
  | expr e => exact h.expression hr hs
  | stmt x => exact h.statement hr hs
  | again x => exact h.rounds hr hs

omit hr

/-- Whatever is kept from part to whole holds of every evaluation, in however many steps. -/
theorem bounded (n : Nat) {t : Task} (hs : t.sites ⊆ sites) :
    Lifts C fs.program off sites (bounded fs n t) (bounded fs' n t) := by
  induction n generalizing off sites t with
  | zero => exact h.exits ⟨nofun, .spent⟩
  | succ n ih => exact h.step (fun t hs => ih hs) hs

theorem run (off : Bool) (hd : ∀ failure : Option Fault,
      (∀ f, failure = some f → f.Arises fs.program (Stmt.allSites fs.program.body)) →
      C (off || (failure.map Fault.isTermination).getD false) (.done failure) (.done failure)) :
    C off fs.run fs'.run := by
  have hbody : Lifts C fs.program off (Stmt.allSites fs.program.body)
      (Eval.sequence (Eval.bounded fs patience) fs.program.body)
      (Eval.sequence (Eval.bounded fs' patience) fs.program.body) :=
    h.sequence (fun t hs => h.bounded patience hs) fun _ hs => hs
  unfold Functions.run
  rw [h.program]
  refine hbody {} _ _ fun r env hr => ?_
  cases r with
  | ok v => exact hd none nofun
  | error x =>
    cases x with
    | fault f =>
      refine hd (some f) ?_
      rintro _ ⟨⟩
      exact hr _ rfl
    | _ => exact hd none nofun

end Closed

end Eval

end Conduit.Script

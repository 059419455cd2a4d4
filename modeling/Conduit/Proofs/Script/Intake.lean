import Conduit.Proofs.Decimal.Integers
import Conduit.Proofs.Script.Execution

/-!
Calls of `read_int`. A call asks for one line, tells that it was read, and gives the integer that the line
holds or fails; unless the run is called off on the way, this is all that is said in it.
-/
namespace Conduit

/-- Whether there was a line tells whether the run is then found to be called off. -/
theorem Station.Path.look_after_read {q q' : Station} {logged off : Bool} {reply : Option String}
    {xs : List Exchange} (h : q.Path (⟨.read logged, reply⟩ :: Engine.look off :: xs) q') :
    off = reply.isNone := by
  obtain - | ⟨hread, - | ⟨hlook, -⟩⟩ := h
  cases hread <;> cases hlook <;> rfl

namespace Script
open Engine (look)

namespace Eval
variable {α : Type} {place : Position} {env : Env}

def calledOff (place : Position) : Except Exit α := .error (.fault (.plain .terminated place))

def integerIn (place : Position) (line : String) : Except Exit Value :=
  match Decimal.int64? (Text.trim line) with
  | some n => .ok (.int n)
  | none => .error (.fault (.plain (.thrown (.text (integerMessage line))) place))

theorem poll_bind (f : Unit → Eval α) (k : Except Exit α → Env → Conduct) :
    (poll place >>= f) env k =
      .ask .isCancelled fun (off : Bool) => if off then k (calledOff place) env else f () env k := by
  refine congrArg (Behaviour.ask _) (funext fun off => ?_)
  cases off <;> rfl

theorem readLine_bind (f : String → Eval α) (k : Except Exit α → Env → Conduct) :
    (readLine place >>= f) env k =
      .ask (.read true) fun (line : Option String) =>
      .ask .isCancelled fun (off : Bool) => if off then k (calledOff place) env else
      .ask (.tell (.readExecuted place.line)) fun _ => f (line.getD "") env k := by
  refine congrArg (Behaviour.ask _) (funext fun line => congrArg (Behaviour.ask _) (funext fun off => ?_))
  cases off <;> rfl

theorem readInt_bind (place : Position) :
    (readInt place >>= fun n => pure (.int n)) =
      readLine place >>= fun line => ofOutcome (integerIn place line) := by
  unfold readInt
  rw [bind_assoc]
  refine congrArg (readLine place >>= ·) (funext fun line => ?_)
  unfold integerIn
  cases Decimal.int64? (Text.trim line) <;> rfl

section
variable {s : Setting} (hc : s.console = true) (hfree : s.program.find? "read_int" 0 = none)
include hc hfree

/-- A script that defines no such function of its own calls the one it was given. -/
theorem call_read_int (rec_ : Task → Eval Value) (place : Position) :
    call s.functions rec_ "read_int" [] place =
      poll place >>= fun _ => readLine place >>= fun line => ofOutcome (integerIn place line) := by
  have hnative : native s "read_int" [] place = readInt place >>= fun n => pure ⟨.int n, none⟩ := by
    change (if s.console then consoleFunction "read_int" [] place else _) = _
    rw [hc]
    rfl
  have happly : apply s.functions rec_ "read_int" [] place =
      poll place >>= fun _ => native s "read_int" [] place := by
    have hnone : s.functions.program.find? "read_int" ([] : List Value).length = none := hfree
    rw [apply, hnone]
    rfl
  change apply s.functions rec_ "read_int" [] place >>= (fun r => pure r.result) = _
  rw [happly, hnative, bind_assoc, ← readInt_bind]
  refine congrArg (poll place >>= ·) (funext fun _ => ?_)
  rw [bind_assoc]
  rfl

theorem bounded_read_int (n : Nat) (k : Except Exit Value → Env → Conduct) :
    bounded s.functions (n + 1) (.expr (.call "read_int" [] place)) env k =
      .ask .isCancelled fun (off : Bool) => if off then k (calledOff place) env else
      .ask .isCancelled fun (off : Bool) => if off then k (calledOff place) env else
      .ask (.read true) fun (line : Option String) =>
      .ask .isCancelled fun (off : Bool) => if off then k (calledOff place) env else
      .ask (.tell (.readExecuted place.line)) fun _ => k (integerIn place (line.getD "")) env := by
  change (poll place >>= fun _ => call s.functions (bounded s.functions n) "read_int" [] place) env k = _
  rw [call_read_int hc hfree]
  simp only [poll_bind, readLine_bind]
  have houtcome : ∀ line, ofOutcome (integerIn place line) env k = k (integerIn place line) env := by
    intro line
    cases integerIn place line <;> rfl
  simp only [houtcome]

end

end Eval

/-! What is said in a call -/

def intake (place : Position) (line : String) : List Exchange :=
  [look false, look false, ⟨.read true, some line⟩, look false, ⟨.tell (.readExecuted place.line), ()⟩]

def cutShort : List (List Exchange) :=
  [[look true], [look false, look true], [look false, look false, ⟨.read true, none⟩, look true]]

theorem exists_not_agrees {cut : List Exchange} (h : cut ∈ cutShort) : ∃ x ∈ cut, ¬ x.Agrees false := by
  have hlook : ¬ (look true).Agrees false := Bool.noConfusion
  simp only [cutShort, List.mem_cons, List.not_mem_nil, or_false] at h
  rcases h with rfl | rfl | rfl <;> exact ⟨look true, by simp, hlook⟩

/-- What a call of `read_int` comes to that gets the line: the integer that the line holds, or a failure
that names the line as it is. -/
structure Gives (place : Position) (line : String) (outcome : Except Exit Value) : Prop where
  integer : ∀ n, outcome = .ok (.int n) ↔ Decimal.Holds line n
  failure : (∀ n, ¬ Decimal.Holds line n) →
    outcome = .error (.fault (.plain (.thrown (.text ("expected an integer, got '" ++ line ++ "'"))) place))

theorem gives_integerIn (place : Position) (line : String) :
    Gives place line (Eval.integerIn place line) where
  integer n := by
    rw [← Decimal.int64?_trim_eq_some_iff, Eval.integerIn]
    cases Decimal.int64? (Text.trim line) <;> simp
  failure h := by
    have hnone : Decimal.int64? (Text.trim line) = none :=
      Option.eq_none_iff_forall_ne_some.mpr fun n hn => h n (Decimal.int64?_trim_eq_some_iff.mp hn)
    rw [Eval.integerIn, hnone]
    rfl

section
variable {s : Setting} (hc : s.console = true) (hfree : s.program.find? "read_int" 0 = none)
  {n : Nat} {place : Position} {env : Env} {k : Except Exit Value → Env → Conduct}
include hc hfree

theorem reaches_intake (line : String) :
    (Eval.bounded s.functions (n + 1) (.expr (.call "read_int" [] place)) env k).Reaches
      (intake place line) (k (Eval.integerIn place line) env) := by
  rw [Eval.bounded_read_int hc hfree]
  exact .more (.more (.more (.more (.more (.refl _)))))

theorem reaches_cutShort {cut : List Exchange} (h : cut ∈ cutShort) :
    (Eval.bounded s.functions (n + 1) (.expr (.call "read_int" [] place)) env k).Reaches
      cut (k (Eval.calledOff place) env) := by
  rw [Eval.bounded_read_int hc hfree]
  simp only [cutShort, List.mem_cons, List.not_mem_nil, or_false] at h
  rcases h with rfl | rfl | rfl
  · exact .more (.refl _)
  · exact .more (.more (.refl _))
  · exact .more (.more (.more (.more (.refl _))))

/-- A run on its way through a call is cut short in it, waits for a line, or has got through. -/
theorem reaches_read_int {α : Type} {f : Option Fault → Behaviour α} {rest : Behaviour α}
    {zs : List Exchange} {q q' : Station} (hpath : q.Path zs q') (hrest : rest.IsHeldUp)
    (h : ((Eval.bounded s.functions (n + 1) (.expr (.call "read_int" [] place)) env k).bind f).Reaches
      zs rest) :
    (∃ cut ∈ cutShort, ∃ more, zs = cut ++ more) ∨
    (zs = [look false, look false] ∧ ∃ next, rest = .ask (.read true) next ∧ ∀ line,
      (next (some line)).Reaches [look false, ⟨.tell (.readExecuted place.line), ()⟩]
        ((k (Eval.integerIn place line) env).bind f)) ∨
    ∃ line more, zs = intake place line ++ more := by
  rw [Eval.bounded_read_int hc hfree] at h
  obtain ⟨off, zs₁, rfl, h₁⟩ := h.past hrest id
  cases off with
  | true => exact .inl ⟨_, .head _, zs₁, rfl⟩
  | false =>
    obtain ⟨off, zs₂, rfl, h₂⟩ := h₁.past hrest id
    cases off with
    | true => exact .inl ⟨_, .tail _ (.head _), zs₂, rfl⟩
    | false =>
      obtain - | @⟨_, _, reply, zs₃, _, h₃⟩ := h₂
      · exact .inr (.inl ⟨rfl, _, rfl, fun line => .more (.more (.refl _))⟩)
      obtain ⟨off, zs₄, rfl, h₄⟩ := h₃.past hrest id
      obtain - | ⟨-, - | ⟨-, hpath⟩⟩ := hpath
      obtain rfl := hpath.look_after_read
      cases reply with
      | none => exact .inl ⟨_, .tail _ (.tail _ (.head _)), zs₄, rfl⟩
      | some line =>
        obtain ⟨-, zs₅, rfl, -⟩ := h₄.past hrest id
        exact .inr (.inr ⟨line, zs₅, rfl⟩)

end

end Script

end Conduit

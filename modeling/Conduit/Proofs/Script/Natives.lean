import Conduit.Proofs.Script.Lifting

/-!
The functions that every script has. All of them but `print` make requests of a plain kind, so that they keep
whatever such requests keep; and scripts are alike if the functions are that were given to them.
-/
namespace Conduit

def Request.IsPlain : Request → Prop
  | .print .err _ | .print _ (.line _) => False
  | .tell .runtimeError | .tell (.stackPushed _) | .tell (.executionPaused _ true) => False
  | _ => True

namespace Script

structure Utterance where
  line : Nat
  text : String
  given : Bool
deriving DecidableEq, Repr

namespace Utterance

/-- The line that is told of the call. One without a value keeps it to itself. -/
def shownLine (u : Utterance) : Option Nat := if u.given then some u.line else none

def of? (name : String) (args : List Value) (place : Position) : Option Utterance :=
  match name, args with
  | "print", [] => some ⟨place.line, "", false⟩
  | "print", [v] => some ⟨place.line, v.shown, true⟩
  | _, _ => none

end Utterance

namespace Eval

theorem native_of_utterance {name : String} {args : List Value} {place : Position} {u : Utterance}
    (s : Setting) (h : Utterance.of? name args place = some u) :
    native s name args place = printLine s u.text u.shownLine >>= fun _ => pure ⟨.unit, none⟩ := by
  unfold Utterance.of? at h
  split at h <;> cases h <;> rfl

def Respected (C : Conduct → Conduct → Prop) : Prop :=
  ∀ (r : Request) (next next' : r.Reply → Conduct), r.IsPlain →
    (∀ reply, C (next reply) (next' reply)) → C (.ask r next) (.ask r next')

namespace Respected
variable {C : Conduct → Conduct → Prop} {program : Program} {off : Bool} {sites : List Site}
  (hC : Respected C)
include hC

theorem passing : Passing fun _ => C where
  weaken h _ := h
  looked hon hoff := hC _ _ _ trivial fun reply => by
    cases reply
    · exact hoff
    · exact hon

theorem asks {r : Request} (hr : r.IsPlain) :
    Lifts (fun _ => C) program off sites (ask r) (ask r) :=
  fun env _ _ hk => hC r _ _ hr fun reply => hk (.ok reply) env nofun

theorem logs (s : Setting) (text : String) (place : Position) :
    Lifts (fun _ => C) program off sites (logValue s text place) (logValue s text place) := by
  unfold logValue
  cases s.console with
  | true => exact hC.asks trivial
  | false => exact .value ()

section
variable {name : String} {place : Position} (hp : ⟨.call name, place⟩ ∈ sites)
include hp

omit hC in
theorem ends {α : Type} :
    Lifts (fun _ => C) program off sites (fail .terminated place : Eval α) (fail .terminated place) :=
  fun env _ _ hk => hk _ env (blamed_off hp)

theorem reads : Lifts (fun _ => C) program off sites (readLine place) (readLine place) := by
  refine hC.passing.andThen (hC.asks trivial) fun line => hC.passing.andThen (hC.asks trivial)
    fun cancelled => ?_
  cases cancelled
  · exact hC.passing.andThen (hC.asks trivial) fun _ => .value _
  · exact ends hp

theorem readsInt (hn : name = "read_int") :
    Lifts (fun _ => C) program off sites (readInt place) (readInt place) := by
  refine hC.passing.andThen (hC.reads hp) fun line => ?_
  split
  · exact .value _
  · rw [hn] at hp
    exact hC.passing.fails hp (.noInteger line)

theorem pauses : Lifts (fun _ => C) program off sites (pause place) (pause place) := by
  refine hC.passing.andThen (hC.asks trivial) fun _ => hC.passing.andThen (hC.asks trivial)
    fun outcome => ?_
  cases outcome
  · exact .value ()
  · exact ends hp

theorem ofConsole (args : List Value) :
    Lifts (fun _ => C) program off sites (consoleFunction name args place)
      (consoleFunction name args place) := by
  unfold consoleFunction
  split
  · exact hC.passing.andThen (hC.asks trivial) fun _ => .value _
  · exact hC.passing.andThen (hC.asks trivial) fun _ => .value _
  · exact hC.passing.andThen (hC.reads hp) fun _ => .value _
  · exact hC.passing.andThen (hC.readsInt hp rfl) fun _ => .value _
  · exact hC.passing.andThen (hC.pauses hp) fun _ => .value _
  · exact hC.passing.fails hp (.missing _ _)

theorem ofNative (s : Setting) {args : List Value} (hn : Utterance.of? name args place = none) :
    Lifts (fun _ => C) program off sites (native s name args place) (native s name args place) := by
  unfold native
  split
  · cases hn
  · cases hn
  · exact hC.passing.andThen (hC.logs s _ _) fun _ => .value _
  · exact hC.passing.andThen (hC.logs s _ _) fun _ => .value _
  · exact .value _
  · exact .value _
  · exact .value _
  · exact .value _
  · exact .value _
  · split
    · exact hC.ofConsole hp args
    · exact hC.passing.fails hp (.missing _ _)

end

/-- Scripts are alike if the functions are that were given to them. What they end with arises at their
sites. -/
theorem run {fs fs' : Functions} (hprogram : fs'.program = fs.program)
    (hb : ∀ {off : Bool} {sites : List Site} {name : String} {p : Position}, ⟨.call name, p⟩ ∈ sites →
      ∀ args, Lifts (fun _ => C) fs.program off sites (fs.builtIn name args p) (fs'.builtIn name args p))
    (hd : ∀ failure : Option Fault,
      (∀ f, failure = some f → f.Arises fs.program (Stmt.allSites fs.program.body)) →
      C (.done failure) (.done failure)) : C fs.run fs'.run :=
  have closed : Closed (fun _ => C) fs fs' := { hC.passing with program := hprogram, builtIn := hb }
  closed.run false hd

end Respected

end Eval

end Script

end Conduit

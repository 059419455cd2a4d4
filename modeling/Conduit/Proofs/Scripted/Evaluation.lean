import Conduit.Engine.Scripted
import Conduit.Proofs.Bridge.Course

/-!
What a script comes to on given input lines, evaluated statement by statement. The course of a run of
the script prints, pauses, reads and ends as the evaluation says.
-/
namespace Conduit.Scripted

structure Evaluation where
  output : List OutputEvent := []
  /-- None if a read finds no line. -/
  outcome : Option RunOutcome
  pauses : Nat := 0
  reads : Nat := 0
deriving DecidableEq, Repr

namespace Evaluation

def printing (v : Evaluation) (e : OutputEvent) : Evaluation := { v with output := e :: v.output }

def pausing (v : Evaluation) : Evaluation := { v with pauses := v.pauses + 1 }

def reading (v : Evaluation) : Evaluation := { v with reads := v.reads + 1 }

end Evaluation

def evaluate (name : String) : Program → List String → Evaluation
  | [], _ => { outcome := some .completed }
  | ⟨_, .print t⟩ :: rest, lines => (evaluate name rest lines).printing (.text t)
  | ⟨_, .println t⟩ :: rest, lines => (evaluate name rest lines).printing (.line t)
  | ⟨_, .newline⟩ :: rest, lines => (evaluate name rest lines).printing .newline
  | ⟨_, .read _⟩ :: _, [] => { outcome := none }
  | ⟨_, .read lead⟩ :: rest, line :: lines =>
    ((evaluate name rest lines).printing (.line (lead ++ line))).reading
  | ⟨_, .pause _⟩ :: rest, lines => (evaluate name rest lines).pausing
  | ⟨_, .error m⟩ :: _, _ => { output := [.line m], outcome := some .runtimeError }
  | ⟨_, .sleep _⟩ :: rest, lines => evaluate name rest lines
  | ⟨_, .threadName⟩ :: rest, lines => (evaluate name rest lines).printing (.line name)
  | ⟨_, .panic⟩ :: _, _ => { outcome := some .panicked }

variable {name : String} {policy : PausePolicy} {t : Tally} {lines : List String}
  {α : Type} {v : Evaluation} {c : List Deed × Stop α} {ds : List Deed}

structure Evaluates (t : Tally) (v : Evaluation) (c : List Deed × Stop α) : Prop where
  prints : Deed.prints c.1 = v.output
  resumes : Deed.resumes c.1 = v.pauses
  pauses : (Deed.publications c.1).countP SessionEvent.isPause = v.pauses
  reads : (Deed.publications c.1).countP SessionEvent.isRead = v.reads
  failed : (t.after c.1).failed = (t.failed || v.outcome = some .runtimeError)
  stop : match c.2 with
    | .done _ _ => v.outcome = some .completed ∨ v.outcome = some .runtimeError
    | .panicked _ => v.outcome = some .panicked
    | .starved => v.outcome = none

theorem Evaluates.before {v' : Evaluation} (ds : List Deed) (h : Evaluates (t.after ds) v c)
    (hout : v'.output = Deed.prints ds ++ v.output) (houtcome : v'.outcome = v.outcome)
    (hpauses : v'.pauses = v.pauses + Deed.resumes ds)
    (hp : (Deed.publications ds).countP SessionEvent.isPause = Deed.resumes ds)
    (hr : v'.reads = v.reads + (Deed.publications ds).countP SessionEvent.isRead)
    (hf : (t.after ds).failed = t.failed) : Evaluates t v' (Behaviour.before ds c) where
  prints := by rw [Behaviour.before, Deed.prints_append, h.prints, hout]
  resumes := by rw [Behaviour.before, Deed.resumes_append, h.resumes, hpauses, Nat.add_comm]
  pauses := by
    rw [Behaviour.before, Deed.publications_append, List.countP_append, h.pauses, hp, hpauses,
      Nat.add_comm]
  reads := by
    rw [Behaviour.before, Deed.publications_append, List.countP_append, h.reads, hr, Nat.add_comm]
  failed := by rw [Behaviour.before, Tally.after_append, h.failed, hf, houtcome]
  stop := by
    have hs := h.stop
    simp only [Behaviour.before, houtcome]
    exact hs

theorem evaluates_execute (name : String) (policy : PausePolicy) (program : Program) (t : Tally)
    (lines : List String) :
    Evaluates t (evaluate name program lines) ((execute program).course name policy t lines) := by
  induction program generalizing t lines with
  | nil => exact ⟨rfl, rfl, rfl, rfl, (Bool.or_false _).symm, .inl rfl⟩
  | cons step rest ih =>
    obtain ⟨line, statement⟩ := step
    cases statement with
    | print text => exact (ih t lines).before [.print (.text text)] rfl rfl rfl rfl rfl rfl
    | println text => exact (ih t lines).before [.print (.line text)] rfl rfl rfl rfl rfl rfl
    | newline => exact (ih t lines).before [.print .newline] rfl rfl rfl rfl rfl rfl
    | threadName => exact (ih t lines).before [.print (.line name)] rfl rfl rfl rfl rfl rfl
    | sleep milliseconds => exact (ih t lines).before [] rfl rfl rfl rfl rfl rfl
    | read lead =>
      cases lines with
      | nil => exact ⟨rfl, rfl, rfl, rfl, (Bool.or_false _).symm, rfl⟩
      | cons input lines =>
        refine (ih (t.note (.readExecuted line.toNat)) lines).before
          [.receive input, .publish (.readExecuted line.toNat), .print (.line (lead ++ input))]
          rfl rfl rfl rfl rfl rfl
    | pause at_ =>
      -- Where pauses are resumed by themselves the event of it is published too.
      cases policy with
      | host =>
        exact (ih (t.note (.executionPaused (some at_.toNat) false)) lines).before
          [.publish (.executionPaused (some at_.toNat) false), .pass .resumed] rfl rfl rfl rfl rfl rfl
      | autoResume =>
        exact (ih (t.note (.executionPaused (some at_.toNat) false)) lines).before
          [.publish (.executionPaused (some at_.toNat) false), .publish .resumed, .pass .resumed]
          rfl rfl rfl rfl rfl rfl
    | error m => exact ⟨rfl, rfl, rfl, rfl, (Bool.or_true _).symm, .inr rfl⟩
    | panic => exact ⟨rfl, rfl, rfl, rfl, (Bool.or_false _).symm, rfl⟩

def opening : List Deed :=
  [.publish (.analysisFinished true), .publish .executionStarted,
    .publish (.stackPushed 1 "global")]

def closing : Behaviour Ending :=
  .ask (.tell .stackPopped) fun _ => .ask (.tell .executionStopped) fun _ =>
    .ask .isCancelled fun (cancelled : Bool) =>
      if cancelled then .done .cancelled else .done .executed

theorem course_drive {source : String} {program : Program} (hp : parse source = .ok program)
    (name : String) (policy : PausePolicy) (debug : Bool) (lines : List String) :
    (engine.drive debug source).course name policy {} lines =
      Behaviour.before opening (((execute program).bind fun _ => closing).course name policy
        (({} : Tally).after opening) lines) := by
  have ha : engine.analyze debug (engine.load source) =
      .ask (.tell (.analysisFinished true)) fun _ => .done (true, { source, program }) := by
    simp only [engine, hp]
    rfl
  let told (_ : Unit) : Behaviour State :=
    .ask (.tell .stackPopped) fun _ => .ask (.tell .executionStopped) fun _ => .done { source }
  let judged (_ : State) : Behaviour Ending := .ask .isCancelled fun (cancelled : Bool) =>
    if cancelled then .done .cancelled else .done .executed
  have hd : (engine.drive debug source).course name policy {} lines =
      Behaviour.before opening ((((execute program).bind told).bind judged).course name policy
        (({} : Tally).after opening) lines) := by
    unfold Engine.drive
    rw [ha]
    rfl
  rw [hd, Behaviour.bind_assoc]
  rfl

structure ComesTo (v : Evaluation) (c : List Deed × Stop Ending) : Prop where
  prints : Deed.prints c.1 = v.output
  resumes : Deed.resumes c.1 = v.pauses
  pauses : (Deed.publications c.1).countP SessionEvent.isPause = v.pauses
  reads : (Deed.publications c.1).countP SessionEvent.isRead = v.reads
  outcome : c.2.outcome? (({} : Tally).after c.1) = v.outcome

theorem comesTo_drive {source : String} {program : Program} (hp : parse source = .ok program)
    (name : String) (policy : PausePolicy) (debug : Bool) (lines : List String) :
    ComesTo (evaluate name program lines)
      ((engine.drive debug source).course name policy {} lines) := by
  have h : Evaluates {} (evaluate name program lines) (Behaviour.before opening
      ((execute program).course name policy (({} : Tally).after opening) lines)) :=
    (evaluates_execute name policy program _ lines).before opening rfl rfl rfl rfl rfl rfl
  rw [course_drive hp, Behaviour.course_bind]
  cases hc : (execute program).course name policy (({} : Tally).after opening) lines with
  | mk ds stop =>
    rw [hc, Behaviour.before] at h
    cases stop with
    | panicked m => exact ⟨h.prints, h.resumes, h.pauses, h.reads, h.stop.symm⟩
    | starved => exact ⟨h.prints, h.resumes, h.pauses, h.reads, h.stop.symm⟩
    | done a rest =>
      change ComesTo _ (Behaviour.before opening (Behaviour.before ds
        ([.publish (.stackPopped _), .publish .executionStopped], .done .executed rest)))
      rw [Behaviour.before_before, Behaviour.before]
      refine ⟨?_, ?_, ?_, ?_, ?_⟩
      · rw [Deed.prints_append, h.prints]
        exact List.append_nil _
      · rw [Deed.resumes_append, h.resumes]
        rfl
      · rw [Deed.publications_append, List.countP_append, h.pauses]
        rfl
      · rw [Deed.publications_append, List.countP_append, h.reads]
        rfl
      · have hf : (({} : Tally).after (opening ++ ds)).failed =
            decide ((evaluate name program lines).outcome = some .runtimeError) :=
          h.failed.trans (Bool.false_or _)
        rw [Tally.after_append]
        change some (if (({} : Tally).after (opening ++ ds)).failed = true then RunOutcome.runtimeError
          else .completed) = _
        rw [hf]
        rcases h.stop with ho | ho <;> rw [ho] <;> rfl

end Conduit.Scripted

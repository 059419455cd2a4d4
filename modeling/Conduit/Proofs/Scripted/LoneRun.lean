import Conduit.Proofs.Bridge.Solo
import Conduit.Proofs.Scripted.Evaluation

/-!
A script that a host starts once and never calls off. Whenever its lines and resumes come, the output
and the report of the run are those of the evaluation.
-/
namespace Conduit.Scripted
open Bridge

/-- What a host does that starts one run on a fresh bridge: it looks on, starts the source, and from
then on hands in lines, opens gates and looks on. Full input makes it wait. -/
structure LoneRun (source : String) where
  config : Config
  grants : Nat → Bool
  blocking : config.input.whenFull = .block
  before : List (Nat × Call) := []
  observers : ∀ c ∈ before, c.2.isObserver = true := by simp
  ticket : Nat
  told : Bool
  calls : List (Nat × Call)
  calm : ∀ c ∈ calls, c.2.isCalm = true

/-- Without a panic a script comes to its end, to an error or to a read that finds no line. -/
theorem outcome_evaluate {program : Program} (hn : ∀ step ∈ program, step.statement ≠ .panic)
    (name : String) (lines : List String) :
    let outcome := (evaluate name program lines).outcome
    outcome = some .completed ∨ outcome = some .runtimeError ∨ outcome = none := by
  induction program generalizing lines with
  | nil => exact .inl rfl
  | cons step rest ih =>
    have hrest := ih fun t ht => hn t (List.mem_cons_of_mem step ht)
    have hstep := hn step List.mem_cons_self
    obtain ⟨line, statement⟩ := step
    cases statement with
    | read lead =>
      cases lines with
      | nil => exact .inr (.inr rfl)
      | cons input lines => exact hrest lines
    | error m => exact .inr (.inl rfl)
    | panic => exact absurd rfl hstep
    | _ => exact hrest lines

namespace LoneRun
variable {source : String} (u : LoneRun source) (sink : Sink)

def fresh : Bridge := create engine u.grants sink u.config

def bridge : Bridge := (u.fresh sink).after (u.before ++ (u.ticket, .start source u.told) :: u.calls)

def lines : List String := submissions u.calls

def reports : List RunReport := (u.bridge sink).sessions.filterMap Session.report?

def workerName : String := u.config.run.threadName ++ "-" ++ Decimal.natText 1

theorem bridge_cases :
    (∃ ds s, Solo (u.fresh sink) (engine.drive u.config.run.debug source) u.lines ds s
      (u.bridge sink)) ∨
    ((u.bridge sink).sessions = [] ∧ (u.bridge sink).sink = sink) := by
  have hv : Vacant (u.fresh sink) [] (u.fresh sink) :=
    ⟨rfl, rfl, rfl, rfl, rfl, rfl, u.blocking⟩
  have hs : (u.fresh sink).Sound := sound_create engine u.grants sink u.config
  have hcalm : ∀ c ∈ u.before, c.2.isCalm = true := fun c hc =>
    Call.isCalm_of_isObserver (u.observers c hc)
  have hb := (vacant_calm (u.fresh sink)).after hv hs hcalm
  rw [submissions_of_observers u.observers, List.append_nil] at hb
  have hbs := (hs.accounts (steps_history _ u.before)).sound
  have has := (hbs.accounts (steps_perform _ u.ticket (.start source u.told))).sound
  unfold bridge lines
  rw [after_append, Bridge.after]
  obtain ⟨s, h⟩ | h := hb.start hbs u.ticket source u.told
  · have hp := solo_calm (u.fresh sink) (engine.drive u.config.run.debug source)
    exact .inl (hp.after (hp.settled ⟨[], s, h⟩) has u.calm)
  · have hp := vacant_calm { u.fresh sink with nextId := (u.fresh sink).nextId + 1 }
    have h' := hp.after (hp.settled h) has u.calm
    exact .inr ⟨h'.sessions, h'.sink⟩

variable {u sink} {program : Program} (hp : parse source = .ok program) (later : List String)
include hp

theorem sink_evaluated :
    ∃ printed, (u.bridge sink).sink = sink.feed printed ∧
      printed <+: (evaluate u.workerName program (u.lines ++ later)).output := by
  obtain ⟨ds, s, h⟩ | ⟨-, hs⟩ := u.bridge_cases sink
  · refine ⟨Deed.prints ds, h.sink, ?_⟩
    rw [← (comesTo_drive hp u.workerName u.config.run.pause u.config.run.debug _).prints]
    exact h.prints_prefix later
  · exact ⟨[], hs, List.nil_prefix⟩

theorem report_evaluated {r : RunReport} (hr : r ∈ u.reports sink) :
    let v := evaluate u.workerName program (u.lines ++ later)
    (u.bridge sink).sink = sink.feed v.output ∧ v.outcome = some r.outcome ∧
      r = { session := 1, outcome := r.outcome, pauses := .ofNat v.pauses,
            resumes := .ofNat v.pauses, reads := .ofNat v.reads } := by
  unfold reports at hr
  obtain ⟨ds, s, h⟩ | ⟨hs, -⟩ := u.bridge_cases sink
  · rw [h.sessions, List.mem_filterMap] at hr
    obtain ⟨t, ht, hr⟩ := hr
    rw [List.mem_singleton.mp ht] at hr
    obtain ⟨es, stop, hc, hsink, ho, hrep⟩ := h.report_eq hr later
    have hv := comesTo_drive hp u.workerName u.config.run.pause u.config.run.debug (u.lines ++ later)
    have he : (engine.drive u.config.run.debug source).course u.workerName u.config.run.pause {}
        (u.lines ++ later) = (es, stop) := hc
    rw [he] at hv
    refine ⟨?_, hv.outcome.symm.trans ho, ?_⟩
    · rw [hsink, hv.prints]
      rfl
    · obtain ⟨hpauses, hreads, -⟩ := Tally.after_counts {} es
      rw [hrep, hpauses, hreads, hv.pauses, hv.resumes, hv.reads, UInt32.zero_add, UInt32.zero_add]
      rfl
  · rw [hs] at hr
    cases hr

end LoneRun

/-- However the host mixes its calls with the work of a script that does not panic, the output so far
is a part of what the script comes to on the lines in the order of their submission, whatever lines
are still to come. Once the run has finished its output and its report are exactly that, so they are
the same for every host that hands in the same lines. -/
theorem lone_run_is_evaluated {source : String} {program : Program} (hp : parse source = .ok program)
    (hn : ∀ step ∈ program, step.statement ≠ .panic) (sink : Sink) (u : LoneRun source)
    (later : List String) :
    let v := evaluate u.workerName program (u.lines ++ later)
    (∃ printed, (u.bridge sink).sink = sink.feed printed ∧ printed <+: v.output) ∧
    (∀ r ∈ u.reports sink,
      (u.bridge sink).sink = sink.feed v.output ∧ v.outcome = some r.outcome ∧
      (r.outcome = .completed ∨ r.outcome = .runtimeError) ∧
      r = { session := 1, outcome := r.outcome, pauses := .ofNat v.pauses,
            resumes := .ofNat v.pauses, reads := .ofNat v.reads }) ∧
    (∀ u' : LoneRun source, u'.config.run.threadName = u.config.run.threadName → u'.lines = u.lines →
      ∀ r ∈ u.reports sink, ∀ r' ∈ u'.reports sink,
        r' = r ∧ (u'.bridge sink).sink = (u.bridge sink).sink) := by
  intro v
  refine ⟨LoneRun.sink_evaluated hp later, fun r hr => ?_, fun u' hname hlines r hr r' hr' => ?_⟩
  · obtain ⟨hsink, ho, hrep⟩ := LoneRun.report_evaluated hp later hr
    refine ⟨hsink, ho, ?_, hrep⟩
    obtain hc | hc | hc := outcome_evaluate hn u.workerName (u.lines ++ later)
    · exact .inl (Option.some.inj (ho.symm.trans hc))
    · exact .inr (Option.some.inj (ho.symm.trans hc))
    · rw [hc] at ho
      cases ho
  · obtain ⟨hsink, ho, hrep⟩ := LoneRun.report_evaluated hp later hr
    obtain ⟨hsink', ho', hrep'⟩ := LoneRun.report_evaluated hp later hr'
    have hw : u'.workerName = u.workerName := by rw [LoneRun.workerName, LoneRun.workerName, hname]
    rw [hlines, hw] at hsink' ho' hrep'
    refine ⟨?_, hsink'.trans hsink.symm⟩
    rw [hrep', hrep, Option.some.inj (ho'.symm.trans ho)]

/-- A script that reads on both sides of a pause. One host hands in its lines at once, one more than
the script reads, and opens the gate last; the other opens it between the lines and by its number. -/
theorem lone_run_is_evaluated_two_reads :
    let config : Config := { input := { capacity := 1 }, run := { pause := .host } }
    let hasty : LoneRun "read a\npause\nread b" :=
      { config, grants := fun _ => true, blocking := rfl, ticket := 0, told := true, calm := by decide
        calls := [(1, .submit "x"), (2, .submit "y"), (3, .submit "z"), (4, .resume)] }
    let slow : LoneRun "read a\npause\nread b" :=
      { config, grants := fun _ => true, blocking := rfl, ticket := 0, told := false, calm := by decide
        calls := [(1, .submit "x"), (2, .resumeSession 1), (3, .submit "y"), (4, .submit "z")] }
    hasty.reports (.capture "") = [⟨1, .completed, 1, 1, 2⟩] ∧
    slow.reports (.capture "") = [⟨1, .completed, 1, 1, 2⟩] ∧
    (hasty.bridge (.capture "")).sink = .capture "ax\nby\n" ∧
    (slow.bridge (.capture "")).sink = (hasty.bridge (.capture "")).sink := by
  intro config hasty slow
  have hp : parse "read a\npause\nread b" = .ok [⟨1, .read "a"⟩, ⟨2, .pause 2⟩, ⟨3, .read "b"⟩] := by
    decide +kernel
  have h := lone_run_is_evaluated hp (by decide) (.capture "") hasty []
  have hr : hasty.reports (.capture "") = [⟨1, .completed, 1, 1, 2⟩] := by decide +kernel
  have hr' : slow.reports (.capture "") = [⟨1, .completed, 1, 1, 2⟩] := by decide +kernel
  refine ⟨hr, hr', ?_, ?_⟩
  · obtain ⟨hs, -⟩ := h.2.1 ⟨1, .completed, 1, 1, 2⟩ (by rw [hr]; exact List.mem_singleton_self _)
    rw [hs]
    rfl
  · exact (h.2.2 slow rfl rfl _ (by rw [hr]; exact List.mem_singleton_self _) _
      (by rw [hr']; exact List.mem_singleton_self _)).2

end Conduit.Scripted

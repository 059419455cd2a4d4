import Conduit.Proofs.Bridge.Report
import Conduit.Proofs.Script.Execution

/-!
Failures of scripts. A script that fails has one line to say so, the last of its output, and one event
after it; a script whose run was called off has neither, however deep in its functions it was then.
-/
namespace Conduit

def Exchange.complaint? : Exchange → Option OutputEvent
  | ⟨.print .err e, _⟩ => some e
  | _ => none

namespace Dialogue
variable {policy : PausePolicy} {xs : List Exchange}

def complaints (xs : List Exchange) : List OutputEvent := xs.filterMap Exchange.complaint?

theorem complaints_eq_nil (h : ∀ x ∈ xs, x.request.IsDiscreet) : complaints xs = [] := by
  refine List.filterMap_eq_nil_iff.mpr fun x hx => ?_
  obtain ⟨r, reply⟩ := x
  have hr := h _ hx
  cases r with
  | print stream e =>
    cases stream with
    | out => rfl
    | err => exact absurd hr id
  | _ => rfl

theorem runtimeError_not_mem (h : ∀ x ∈ xs, x.request.IsDiscreet) (t : Tally) :
    .runtimeError ∉ Deed.publications (deeds policy t xs) := by
  intro he
  obtain ⟨s, t', ⟨x, hx, hs⟩, hev⟩ := mem_publications he
  cases s with
  | runtimeError =>
    have := h x hx
    rw [hs] at this
    exact this
  | _ => simp [Signal.events] at hev

end Dialogue

namespace Script
open Engine (look)
variable {debug : Bool} {source : String} {program : Program} {xs : List Exchange} {q : Station}
  {f : Engine.Finish}

def Evaluates (s : Setting) (xs : List Exchange) (failure : Option Fault) : Prop :=
  ∃ ys zs, xs = opening s.program ++ (ys ++ zs) ∧ s.run.Reaches ys (.done failure)

theorem discreet_opening (program : Program) : ∀ x ∈ opening program, x.request.IsDiscreet :=
  List.forall_iff_forall_mem.mp ⟨trivial, trivial, trivial, trivial, trivial⟩

theorem discreet_closing (off : Bool) : ∀ x ∈ closing off, x.request.IsDiscreet :=
  List.forall_iff_forall_mem.mp ⟨trivial, trivial, trivial⟩

/-- What is said about a script that parses: nothing of a failure, or that of its evaluation just before
the end. -/
theorem finishes_discreet (hp : parse source = .ok program) (hpath : Station.fresh.Path xs q)
    (h : engine.Finishes debug source xs f) :
    (f = .executed false ∧ Evaluates { program, debug } xs none ∧ ∀ x ∈ xs, x.request.IsDiscreet) ∨
    (f = .executed false ∧ ∃ fault ys, Evaluates { program, debug } xs (some fault) ∧
      fault.isTermination = false ∧
      xs = ys ++ ⟨.print .err (complaint fault), ()⟩ :: ⟨.tell .runtimeError, ()⟩ :: closing false ∧
      ∀ x ∈ ys, x.request.IsDiscreet) ∨
    ((f = .dropped ∨ f = .executed true) ∧ look true ∈ xs ∧ ∀ x ∈ xs, x.request.IsDiscreet) := by
  obtain ⟨rfl, rfl⟩ | ⟨rfl, rfl⟩ | ⟨off, ys, zs, failure, rfl, rfl, hrun, hhandle⟩ :=
    finishes_cases hp h
  · exact .inr (.inr ⟨.inl rfl, List.mem_singleton_self _, List.forall_mem_singleton.mpr trivial⟩)
  · -- There is no time to call a run off between its analysis and its execution.
    rcases hpath with - | ⟨⟨⟩, - | ⟨⟨⟩, - | ⟨⟨⟩, -⟩⟩⟩
  · have hopening := discreet_opening program
    have hys := ((discreet_run _).reaches hrun).1
    have hclosing := discreet_closing off
    have hev : Evaluates { program, debug } (opening program ++ (ys ++ (zs ++ closing off))) failure :=
      ⟨ys, zs ++ closing off, rfl, hrun⟩
    cases aftermath hpath hrun hhandle with
    | sound =>
      refine .inl ⟨rfl, hev, ?_⟩
      simp only [List.forall_mem_append]
      exact ⟨hopening, hys, by simp, hclosing⟩
    | @failed fault hf =>
      refine .inr (.inl ⟨rfl, fault, opening program ++ (ys ++ [look false,
        ⟨.log .debug ("script failed: " ++ fault.diagnostic.text), ()⟩]), hev, hf, ?_, ?_⟩)
      · simp [reporting]
      · simp only [List.forall_mem_append]
        exact ⟨hopening, hys, List.forall_iff_forall_mem.mp ⟨trivial, trivial⟩⟩
    | off hz =>
      refine .inr (.inr ⟨.inr rfl, ?_, ?_⟩)
      · simp [closing]
      · simp only [List.forall_mem_append]
        exact ⟨hopening, hys, hz, hclosing⟩

/-- Where a failure is told its line is the last that is printed, and its event comes after it. -/
theorem deeds_failure (policy : PausePolicy) (t : Tally) (ys : List Exchange) (line : OutputEvent)
    (off : Bool) :
    ∃ es, Dialogue.deeds policy t
        (ys ++ ⟨.print .err line, ()⟩ :: ⟨.tell .runtimeError, ()⟩ :: closing off) =
      Dialogue.deeds policy t ys ++ .print line :: .publish .runtimeError :: es ∧
      Deed.prints es = [] ∧ .runtimeError ∉ Deed.publications es := by
  refine ⟨_, Dialogue.deeds_append _ _ _, ?_, ?_⟩
  · rfl
  · exact Dialogue.runtimeError_not_mem (discreet_closing off) _

end Script

namespace Session.Transcript
variable {s : Session} {policy : PausePolicy} {work : Behaviour Ending} {xs : List Exchange}
  {ds : List Deed}

theorem count_runtimeError (h : s.Transcript policy work xs ds) :
    (Deed.publications ds).count .runtimeError =
      (Deed.publications (Dialogue.deeds policy {} xs)).count .runtimeError := by
  have hclosing : (s.closing.filterMap Deed.published?).count .runtimeError = 0 := by
    unfold closing
    split <;> rfl
  have hp := h.filterMap_deeds (g := Deed.published?) fun _ => rfl
  rw [Deed.publications, hp, List.count_append, hclosing]
  rfl

theorem failed_iff (h : s.Transcript policy work xs ds) :
    s.tally.failed = true ↔ .runtimeError ∈ Deed.publications (Dialogue.deeds policy {} xs) := by
  rw [h.tally, (Tally.after_counts _ _).2.2]
  simp

/-- A run that is not called off by the end of its execution is judged by what it told. -/
theorem outcome_executed {r : RunReport} (h : s.Transcript policy work xs ds)
    (hv : (Engine.Finish.executed false).rest.verdict? s.tally = some r.outcome) :
    r.outcome = if 0 < (Deed.publications (Dialogue.deeds policy {} xs)).count .runtimeError
      then .runtimeError else .completed := by
  simp only [List.count_pos_iff, ← h.failed_iff]
  exact (Option.some.inj hv).symm

end Session.Transcript

theorem Session.Orderly.agrees {s : Session} {r : RunReport} {policy : PausePolicy}
    {work : Behaviour Ending} {xs : List Exchange} {q : Station} {ds : List Deed}
    (h : s.Orderly policy work xs q ds) (hr : s.report? = some r) (ho : r.outcome ≠ .cancelled) :
    ∀ x ∈ xs, x.Agrees false := by
  refine (h.path.agrees ?_).2
  obtain ⟨-, hc⟩ | ⟨rfl, -⟩ | ⟨off, rfl, hc⟩ | ⟨rfl, -⟩ := h.closes hr
  · exact absurd hc ho
  · rfl
  · cases off with
    | true => exact absurd hc ho
    | false => rfl
  · rfl

namespace Bridge
open Engine (look)
variable {s : Session} {r : RunReport}

theorem count_runtimeError {b b' : Bridge} {acts : List Act} (hs : Steps b acts b') (id : Nat) :
    (Act.eventsOf id acts).count .runtimeError =
      (Deed.publications (Act.deedsOf id acts)).count .runtimeError := by
  simp only [List.count, List.countP_eq_length_filter]
  rw [filter_eventsOf hs id rfl rfl]

/-- A script that parses is evaluated without a failure, fails or is called off. In the first case its run
completes; in the second the failure of the evaluation is told once on the output, as the last thing that
is printed, and by one event after it; in the third nothing of that kind is told. -/
theorem failure_told_once (grants : Nat → Bool) (sink : Sink) (config : Config)
    (calls : List (Nat × Call)) {source : String} {program : Script.Program}
    (hs : s ∈ ((create Script.engine grants sink config).after calls).sessions)
    (hr : s.report? = some r)
    (hg : (s.id, source) ∈ (create Script.engine grants sink config).programs calls)
    (hp : Script.parse source = .ok program) :
    let setting : Script.Setting := { program, debug := config.run.debug }
    let acts := (create Script.engine grants sink config).history calls
    let ds := Act.deedsOf s.id acts
    let told := (Act.eventsOf s.id acts).count .runtimeError
    ∃ xs, s.Transcript config.run.pause (Script.engine.drive config.run.debug source) xs ds ∧
      ((r.outcome = .completed ∧ (∀ x ∈ xs, x.Agrees false) ∧ Script.Evaluates setting xs none ∧
          Dialogue.complaints xs = [] ∧ told = 0) ∨
        (r.outcome = .runtimeError ∧ (∀ x ∈ xs, x.Agrees false) ∧ told = 1 ∧
          ∃ fault line, Script.Evaluates setting xs (some fault) ∧ fault.isTermination = false ∧
            line = .line ("Runtime error: " ++ fault.diagnostic.text) ∧
            Dialogue.complaints xs = [line] ∧
            ∃ before after, ds = before ++ .print line :: .publish .runtimeError :: after ∧
              Deed.prints after = []) ∨
        (r.outcome = .cancelled ∧ s.cancelled = true ∧ look true ∈ xs ∧
          Dialogue.complaints xs = [] ∧ told = 0)) := by
  intro setting acts ds told
  obtain ⟨-, source', xs, q, hg', h⟩ := (orderly_runs .script grants sink config calls).runs s hs
  obtain rfl := programs_unique hg hg'
  obtain ⟨f, hfin, -, hv⟩ := h.exists_finish hr
  have htold : told = (Deed.publications (Dialogue.deeds config.run.pause {} xs)).count .runtimeError :=
    (count_runtimeError (steps_history _ calls) s.id).trans h.count_runtimeError
  have hquiet : (∀ x ∈ xs, x.request.IsDiscreet) → told = 0 ∧ Dialogue.complaints xs = [] :=
    fun hd => ⟨htold.trans (List.count_eq_zero.mpr (Dialogue.runtimeError_not_mem hd _)),
      Dialogue.complaints_eq_nil hd⟩
  refine ⟨xs, h.toTranscript, ?_⟩
  obtain ⟨rfl, hev, hd⟩ | ⟨rfl, fault, ys, hev, hf, rfl, hd⟩ | ⟨hoff, hlook, hd⟩ :=
    Script.finishes_discreet hp h.path hfin
  · obtain ⟨h0, hc⟩ := hquiet hd
    have ho : r.outcome = .completed := by
      rw [h.outcome_executed hv, ← htold, h0]
      rfl
    exact .inl ⟨ho, h.agrees hr (by simp [ho]), hev, hc, h0⟩
  · obtain ⟨es, hes, hprints, hlast⟩ :=
      Script.deeds_failure config.run.pause {} ys (Script.complaint fault) false
    have h1 : told = 1 := by
      have hafter : Deed.publications (.print (Script.complaint fault) :: .publish .runtimeError :: es) =
          .runtimeError :: Deed.publications es := rfl
      rw [htold, hes, Deed.publications_append, List.count_append, hafter, List.count_cons_self,
        List.count_eq_zero.mpr (Dialogue.runtimeError_not_mem hd _), List.count_eq_zero.mpr hlast]
    have ho : r.outcome = .runtimeError := by
      rw [h.outcome_executed hv, ← htold, h1]
      rfl
    refine .inr (.inl ⟨ho, h.agrees hr (by simp [ho]), h1, fault, _, hev, hf, rfl, ?_, ?_⟩)
    · rw [Dialogue.complaints, List.filterMap_append]
      exact congrArg (· ++ _) (Dialogue.complaints_eq_nil hd)
    · obtain ⟨lines, hds⟩ := h.deeds
      refine ⟨lines.map .discard ++ Dialogue.deeds config.run.pause {} ys, es ++ s.closing, ?_, ?_⟩
      · refine hds.trans ?_
        rw [hes]
        simp [Script.complaint]
      · rw [Deed.prints_append, hprints, Session.closing, hr]
        rfl
  · obtain ⟨h0, hc⟩ := hquiet hd
    refine .inr (.inr ⟨?_, ?_, hlook, hc, h0⟩)
    · obtain rfl | rfl := hoff <;> exact (Option.some.inj hv).symm
    · refine h.off (Bool.not_eq_false _ ▸ fun hq => ?_)
      cases (h.path.agrees hq).2 _ hlook

/-- A script that throws something, with input that it does not read. -/
theorem failure_told_once_thrown :
    let calls : List (Nat × Call) := [(0, .submit "x"), (1, .start "throw \"gone\"" true)]
    let b := create Script.engine (fun _ => true) (.capture "") {}
    let acts := b.history calls
    ∃ s ∈ (b.after calls).sessions, s.report? = some ⟨1, .runtimeError, 0, 0, 0⟩ ∧
      (Act.eventsOf s.id acts).count .runtimeError = 1 ∧
      ∃ (fault : Script.Fault) (before after : List Deed), Act.deedsOf s.id acts =
        before ++ .print (.line ("Runtime error: " ++ fault.diagnostic.text)) ::
          .publish .runtimeError :: after := by
  intro calls b acts
  have hend : (b.after calls).sessions.any (fun s => s.id = 1 ∧
      s.report? = some ⟨1, .runtimeError, 0, 0, 0⟩) = true := by decide +kernel
  have hparses : (Script.parse "throw \"gone\"").toOption.isSome = true := by decide +kernel
  have hgiven : (1, "throw \"gone\"") ∈ b.programs calls := by decide +kernel
  obtain ⟨s, hs, hend⟩ := List.any_eq_true.mp hend
  obtain ⟨hid, hr⟩ := of_decide_eq_true hend
  refine ⟨s, hs, hr, ?_⟩
  cases hp : Script.parse "throw \"gone\"" with
  | error f =>
    rw [hp] at hparses
    cases hparses
  | ok program =>
    obtain ⟨xs, -, ⟨ho, -⟩ | ⟨-, -, htold, fault, line, -, -, rfl, -, before, after, hds, -⟩ |
        ⟨ho, -⟩⟩ := failure_told_once (fun _ => true) (.capture "") {} calls hs hr (hid ▸ hgiven) hp
    · cases ho
    · exact ⟨htold, fault, before, after, hds⟩
    · cases ho

end Bridge

end Conduit

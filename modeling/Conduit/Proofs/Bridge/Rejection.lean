import Conduit.Proofs.Bridge.Life
import Conduit.Proofs.Script.Execution

/-!
Programs that do not parse. A check says what is wrong with such a program; a run of it says the same,
tells that it was turned down, and ends there without a read, a pause or a word of its own.
-/
namespace Conduit

def Request.IsRefusal : Request → Prop
  | .isCancelled | .print .err _ | .tell (.analysisFinished false) => True
  | _ => False

namespace Script
open Engine (look)
variable {debug : Bool} {source : String} {f : ParseFault} {xs : List Exchange}

theorem problem_eq_some {d : Diagnostic} :
    (check source).problem = some d ↔ ∃ f, parse source = .error f ∧ f.diagnostic = d := by
  unfold check
  cases parse source <;> simp

def objection (d : Diagnostic) : OutputEvent := .line ("Syntax error: " ++ d.text)

theorem analyze_of_error (hp : parse source = .error f) :
    engine.analyze debug (engine.load source) =
      .ask (.print .err (objection f.diagnostic)) fun _ =>
      .ask (.tell (.analysisFinished false)) fun _ => .done (false, ⟨source, none⟩) := by
  simp only [engine, hp]
  rfl

theorem asks_drive (hp : parse source = .error f) :
    (engine.drive debug source).Asks Request.IsRefusal := by
  refine ⟨trivial, fun off => ?_⟩
  cases off with
  | true => trivial
  | false =>
    simp only [analyze_of_error hp]
    exact ⟨trivial, fun _ => ⟨trivial, fun _ => trivial⟩⟩

def refusal (f : ParseFault) : List Exchange :=
  [look false, ⟨.print .err (objection f.diagnostic), ()⟩, ⟨.tell (.analysisFinished false), ()⟩]

theorem finishes_of_error {fin : Engine.Finish} (hp : parse source = .error f)
    (h : engine.Finishes debug source xs fin) :
    fin = .dropped ∧ xs = [look true] ∨ fin = .rejected ∧ xs = refusal f := by
  have hanalyze : ∀ {ys : List Exchange} {rest : Behaviour (Bool × State)},
      (engine.analyze debug (engine.load source)).Reaches ys rest → rest.hasEnded = true →
      look false :: ys = refusal f ∧ rest = .done (false, ⟨source, none⟩) := by
    intro ys rest hr he
    rw [analyze_of_error hp] at hr
    obtain ⟨-, ys, rfl, hr⟩ := hr.of_ask he
    obtain ⟨-, ys, rfl, hr⟩ := hr.of_ask he
    cases hr
    exact ⟨rfl, rfl⟩
  cases h with
  | dropped => exact .inl ⟨rfl, rfl⟩
  | rejected ha => exact .inr ⟨rfl, (hanalyze ha rfl).1⟩
  | brokenAnalysis ha | halted ha | brokenExecution ha | executed _ ha => cases (hanalyze ha rfl).2

end Script

namespace Session.Transcript
variable {s : Session} {policy : PausePolicy} {debug : Bool} {source : String} {f : Script.ParseFault}
  {xs : List Exchange} {ds : List Deed}

theorem not_waiting (h : s.Transcript policy (Script.engine.drive debug source) xs ds)
    (hp : Script.parse source = .error f) : s.isReading = false ∧ s.isAtGate = false := by
  refine ⟨Bool.eq_false_iff.mpr fun hr => ?_, Bool.eq_false_iff.mpr fun hg => ?_⟩
  · obtain ⟨logged, next, -, hw⟩ := work?_of_isReading hr
    exact ((Script.asks_drive hp).reaches (h.reaches hw)).2.1
  · obtain ⟨next, -, hw⟩ := work?_of_isAtGate hg
    exact ((Script.asks_drive hp).reaches (h.reaches hw)).2.1

theorem finished_of_error (h : s.Transcript policy (Script.engine.drive debug source) xs ds)
    (hp : Script.parse source = .error f) (hr : s.AtRest) (hb : s.hasBegun = true) :
    ∃ r, s.report? = some r := by
  obtain ⟨hreading, hgate⟩ := h.not_waiting hp
  obtain hf | ⟨-, hu | ⟨-, hread | hg⟩⟩ := hr.cases
  · exact Option.isSome_iff_exists.mp hf
  · rw [hb] at hu
    cases hu
  · rw [hreading] at hread
    cases hread
  · rw [hgate] at hg
    cases hg

theorem refused (h : s.Transcript policy (Script.engine.drive debug source) (Script.refusal f) ds)
    {r : RunReport} (hr : s.report? = some r) (ho : r.outcome = .analysisFailed) :
    r = ⟨s.id, .analysisFailed, 0, 0, 0⟩ ∧
    Deed.prints ds = [Script.objection f.diagnostic] ∧
    Deed.publications ds = [.analysisFinished false, .finished .analysisFailed] ∧
    Deed.receipts ds = [] := by
  have hclosing : s.closing = [.publish (.finished .analysisFailed)] := by
    simp only [closing, hr, ho]
  obtain ⟨hrep, -⟩ := h.report hr
  refine ⟨?_, ?_, ?_, ?_⟩
  · rw [hrep, ho, h.tally, h.resumed]
    rfl
  · rw [Deed.prints, h.filterMap_deeds fun _ => rfl, hclosing]
    rfl
  · rw [h.publications, hclosing]
    rfl
  · rw [h.receipts]
    rfl

theorem outcome_of_ok {program : Script.Program}
    (h : s.Transcript policy (Script.engine.drive debug source) xs ds)
    (hp : Script.parse source = .ok program) {r : RunReport} (hr : s.report? = some r) :
    r.outcome ≠ .analysisFailed := by
  obtain ⟨fin, hfin, -, hv⟩ := h.exists_finish hr
  intro ho
  rw [ho] at hv
  obtain ⟨rfl, -⟩ | ⟨rfl, -⟩ | ⟨off, -, -, -, rfl, -⟩ := Script.finishes_cases hp hfin
  · cases hv
  · cases hv
  · cases off with
    | true => cases hv
    | false =>
      have hjudged : (if s.tally.failed then RunOutcome.runtimeError else .completed) =
          .analysisFailed := Option.some.inj hv
      split at hjudged <;> cases hjudged

end Session.Transcript

namespace Bridge
variable {s : Session}

/-- Of a run that never stands at its gate all that is said is that it was spawned and what it says
itself. -/
theorem eventsOf_of_unpaused (i : Interpreter) (grants : Nat → Bool) (sink : Sink) (config : Config)
    (calls : List (Nat × Call)) {id : Nat}
    (hnever : ∀ before, before <+: calls →
      ∀ x ∈ ((create i.engine grants sink config).after before).sessions, x.id = id → x.isPaused = false) :
    ∀ s ∈ ((create i.engine grants sink config).after calls).sessions, s.id = id →
      Act.eventsOf id ((create i.engine grants sink config).history calls) = .spawned ::
        Deed.publications (Act.deedsOf id ((create i.engine grants sink config).history calls)) := by
  induction calls using List.reverseRecOn with
  | nil => exact fun s hs => by cases hs
  | append_singleton calls c ih =>
    obtain ⟨ticket, call⟩ := c
    rintro s' hs' rfl
    have hset := orderly_runs i grants sink config calls
    rw [after_append] at hs'
    have hnone := (eventsOf_run i grants sink config calls).1
    have hbefore := ih fun before hpre => hnever before (hpre.trans (List.prefix_append _ _))
    have hhere := hnever calls (List.prefix_append _ _)
    rw [history_append, Act.eventsOf_append, Act.deedsOf_append, Deed.publications_append]
    simp only [history, List.append_nil]
    obtain ⟨c, s₁, ht, ⟨s, hs, hn⟩ | ⟨-, hnew⟩⟩ := mem_perform hset.sound hs'
    · have hid : s.id = s'.id := hn.alike.id.symm.trans ht.id
      rw [hbefore s hs hid, ← hid,
        eventsOf_performActs hset.sound hs fun _ _ => hhere s hs hid]
      rfl
    · have hspawned := (eventsOf_applyActs _ call).1 s₁ hnew ht.id
      obtain ⟨source, told, -, rfl⟩ := mem_newcomers hnew
      rw [← ht.id] at hspawned ⊢
      rw [hnone _ (Nat.le_refl _), hset.unborn _ (Nat.le_refl _), performActs, Act.eventsOf_append,
        Act.deedsOf_append, Deed.publications_append, hspawned, publications_applyActs,
        eventsOf_settledActs]
      rfl

def CalledOffUnbegun (b : Bridge) (calls : List (Nat × Call)) (id : Nat) : Prop :=
  ∃ before ticket call later, calls = before ++ (ticket, call) :: later ∧
    ∃ x ∈ ((b.after before).apply ticket call).1.sessions,
      x.id = id ∧ x.cancelled = true ∧ x.hasBegun = false

theorem unpaused_of_error (grants : Nat → Bool) (sink : Sink) (config : Config)
    (calls : List (Nat × Call)) {id : Nat}
    {source : String} {f : Script.ParseFault} (hp : Script.parse source = .error f)
    (hg : (id, source) ∈ (create Script.engine grants sink config).programs calls) :
    ∀ before, before <+: calls →
      ∀ x ∈ ((create Script.engine grants sink config).after before).sessions, x.id = id →
        x.isPaused = false := by
  rintro before ⟨later, rfl⟩ x hx rfl
  obtain ⟨hrest, source', xs, q, hg', h⟩ :=
    (orderly_runs .script grants sink config before).runs x hx
  have hall : (x.id, source') ∈ (create Script.engine grants sink config).programs (before ++ later) := by
    rw [programs_append]
    exact List.mem_append_left _ hg'
  obtain rfl := programs_unique hg hall
  exact hrest.waiting.trans (h.not_waiting hp).2

/-- A check objects to a program exactly if a run of it, once it has begun, is turned down. The run then
says what the check says and tells of nothing but that; it takes no line and counts nothing. -/
theorem turned_down_iff (grants : Nat → Bool) (sink : Sink) (config : Config)
    (calls : List (Nat × Call))
    {source : String} (hs : s ∈ ((create Script.engine grants sink config).after calls).sessions)
    (hg : (s.id, source) ∈ (create Script.engine grants sink config).programs calls)
    (hbegun : s.hasBegun = true)
    (hkept : ¬ (create Script.engine grants sink config).CalledOffUnbegun calls s.id) :
    let acts := (create Script.engine grants sink config).history calls
    ((∃ d, (Script.check source).problem = some d) ↔
      ∃ r, s.report? = some r ∧ r.outcome = .analysisFailed) ∧
    ∀ d, (Script.check source).problem = some d →
      s.report? = some ⟨s.id, .analysisFailed, 0, 0, 0⟩ ∧
      Deed.prints (Act.deedsOf s.id acts) = [.line ("Syntax error: " ++ d.text)] ∧
      Act.eventsOf s.id acts = [.spawned, .analysisFinished false, .finished .analysisFailed] ∧
      Deed.receipts (Act.deedsOf s.id acts) = [] := by
  intro acts
  obtain ⟨hrest, source', xs, q, hg', h⟩ :=
    (orderly_runs .script grants sink config calls).runs s hs
  obtain rfl := programs_unique hg hg'
  have hobjects : ∀ d, (Script.check source).problem = some d →
      s.report? = some ⟨s.id, .analysisFailed, 0, 0, 0⟩ ∧
      Deed.prints (Act.deedsOf s.id acts) = [.line ("Syntax error: " ++ d.text)] ∧
      Act.eventsOf s.id acts = [.spawned, .analysisFinished false, .finished .analysisFailed] ∧
      Deed.receipts (Act.deedsOf s.id acts) = [] := by
    intro d hd
    obtain ⟨f, hp, rfl⟩ := Script.problem_eq_some.mp hd
    obtain ⟨r, hr⟩ := h.finished_of_error hp hrest hbegun
    obtain ⟨fin, hfin, -, hv⟩ := h.exists_finish hr
    obtain ⟨rfl, rfl⟩ | ⟨rfl, rfl⟩ := Script.finishes_of_error hp hfin
    · refine absurd (dropped_before_begun .script grants sink config calls s hs r.outcome ?_).2 hkept
      exact h.publications_of_report hr
    · obtain ⟨rfl, hprints, htold, hreceipts⟩ := h.refused hr (Option.some.inj hv).symm
      have hevents := eventsOf_of_unpaused .script grants sink config calls
        (unpaused_of_error grants sink config calls hp hg) s hs rfl
      exact ⟨hr, hprints, hevents.trans (congrArg _ htold), hreceipts⟩
  refine ⟨⟨fun ⟨d, hd⟩ => ⟨_, (hobjects d hd).1, rfl⟩, fun ⟨r, hr, ho⟩ => ?_⟩, hobjects⟩
  cases hp : Script.parse source with
  | error f => exact ⟨_, Script.problem_eq_some.mpr ⟨f, hp, rfl⟩⟩
  | ok program => exact absurd ho (h.outcome_of_ok hp hr)

end Bridge

end Conduit

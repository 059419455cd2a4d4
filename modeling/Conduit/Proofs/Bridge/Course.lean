import Conduit.Proofs.Bridge.Advance

/-!
The course of a run that nobody calls off: a function of its input lines alone. Wherever such a run is
held up, at a read or at its gate, what it did and what it has still to do are a course of the whole.
-/
namespace Conduit

/-- The reply to a request when nobody calls the run off, and the lines that are left: reads take the
lines in their order and every gate opens in the end. Without a line a read has no reply. -/
def Request.calm (name : String) : (r : Request) → List String → Option (r.Reply × List String)
  | .print _ _, lines => some ((), lines)
  | .tell _, lines => some ((), lines)
  | .read _, [] => none
  | .read _, line :: lines => some (some line, lines)
  | .awaitGate, lines => some (.resumed, lines)
  | .openGate, lines => some ((), lines)
  | .isCancelled, lines => some (false, lines)
  | .threadName, lines => some (name, lines)
  | .log _ _, lines => some ((), lines)

def Tally.after (t : Tally) (ds : List Deed) : Tally := (Deed.publications ds).foldl Tally.note t

@[simp] theorem Tally.after_nil (t : Tally) : t.after [] = t := rfl

theorem Tally.after_append (t : Tally) (ds es : List Deed) :
    t.after (ds ++ es) = (t.after ds).after es := by
  rw [after, Deed.publications_append, List.foldl_append]
  rfl

theorem Tally.after_counts (t : Tally) (ds : List Deed) :
    (t.after ds).pauses = t.pauses + .ofNat ((Deed.publications ds).countP SessionEvent.isPause) ∧
    (t.after ds).reads = t.reads + .ofNat ((Deed.publications ds).countP SessionEvent.isRead) ∧
    ((t.after ds).failed = true ↔ t.failed = true ∨ .runtimeError ∈ Deed.publications ds) := by
  unfold Tally.after
  generalize Deed.publications ds = es
  induction es generalizing t with
  | nil => simp
  | cons e es ih =>
    obtain ⟨hp, hr, hf⟩ := ih (t.note e)
    rw [List.foldl_cons, hp, hr, hf, List.countP_cons, List.countP_cons, List.mem_cons,
      UInt32.ofNat_add, UInt32.ofNat_add]
    cases e <;> simp [note, SessionEvent.isPause, SessionEvent.isRead, UInt32.add_assoc,
      UInt32.add_comm]

/-- How a course comes to an end; one that ends by itself leaves the rest of the lines. -/
inductive Stop (α : Type) where
  | done (result : α) (lines : List String)
  | panicked (message : Option String)
  /-- The next read finds no line. -/
  | starved

def Progress.rest : Progress α → Behaviour α
  | .done a => .done a
  | .panicked m => .panic m
  | .reading logged next => .ask (.read logged) next
  | .paused next => .ask .awaitGate next
  | .held rest => rest

namespace Behaviour
variable {ω α β : Type}

def course (name : String) (policy : PausePolicy) :
    Behaviour α → Tally → List String → List Deed × Stop α
  | .done a, _, lines => ([], .done a lines)
  | .panic m, _, _ => ([], .panicked m)
  | .ask r next, t, lines =>
    match r.calm name lines with
    | none => ([], .starved)
    | some (reply, lines) =>
      let ds := r.deeds policy t reply
      let (es, stop) := (next reply).course name policy (t.after ds) lines
      (ds ++ es, stop)

def before (ds : List Deed) (c : List Deed × Stop α) : List Deed × Stop α := (ds ++ c.1, c.2)

theorem before_before (ds es : List Deed) (c : List Deed × Stop α) :
    before ds (before es c) = before (ds ++ es) c := by
  simp [before]

variable {name : String} {policy : PausePolicy}

theorem course_ask {r : Request} {reply : r.Reply} {lines rest : List String}
    (h : r.calm name lines = some (reply, rest)) (next : r.Reply → Behaviour α) (t : Tally) :
    (ask r next).course name policy t lines =
      before (r.deeds policy t reply)
        ((next reply).course name policy (t.after (r.deeds policy t reply)) rest) := by
  simp only [course, h, before]

theorem bind_assoc {γ : Type} (b : Behaviour α) (f : α → Behaviour β) (g : β → Behaviour γ) :
    (b.bind f).bind g = b.bind fun a => (f a).bind g := by
  induction b with
  | done a => rfl
  | panic m => rfl
  | ask r next ih =>
    simp only [bind, ask.injEq, heq_eq_eq, true_and]
    funext reply
    exact ih reply

theorem course_bind (b : Behaviour α) (f : α → Behaviour β) (t : Tally) (lines : List String) :
    (b.bind f).course name policy t lines =
      match b.course name policy t lines with
      | (ds, .done a rest) => before ds ((f a).course name policy (t.after ds) rest)
      | (ds, .panicked m) => (ds, .panicked m)
      | (ds, .starved) => (ds, .starved) := by
  induction b generalizing t lines with
  | done a => rfl
  | panic m => rfl
  | ask r next ih =>
    simp only [bind, course]
    cases hc : r.calm name lines with
    | none => rfl
    | some p =>
      obtain ⟨reply, rest⟩ := p
      simp only [ih]
      cases hn : (next reply).course name policy (t.after (r.deeds policy t reply)) rest with
      | mk ds stop => cases stop <;> simp [before, Tally.after_append]

/-- A request that is met gets its calm reply, a read that of the line it takes. -/
theorem calm_of_reply {w : Worker ω} {st st' : Stage ω} {r : Request} {reply : r.Reply}
    (hc : st.cancelled = false) (ha : st.gate.aborted = false)
    (h : st.serve w r = (st', some reply)) (policy : PausePolicy) (t : Tally) (lines : List String) :
    r.calm w.name (Deed.receipts (r.deeds policy t reply) ++ lines) = some (reply, lines) := by
  cases r with
  | read logged =>
    obtain ⟨ht, -⟩ | ⟨line, channel, served, -, -, rfl, -⟩ := Stage.serve_read_cases h
    · rw [hc] at ht
      cases ht
    · rfl
  | awaitGate =>
    obtain ⟨-, hr⟩ := Prod.mk.inj h
    obtain ⟨hg, -⟩ | ⟨-, -, hw⟩ | ⟨-, -, hw⟩ := st.gate.wait_cases
    · simp [ha] at hg
    · rw [hw] at hr
      cases hr
      rfl
    · rw [hw] at hr
      cases hr
  | tell s =>
    rw [Request.deeds, Deed.receipts_publish]
    rfl
  | isCancelled =>
    obtain ⟨-, hr⟩ := Prod.mk.inj h
    cases hr
    rw [hc]
    rfl
  | threadName =>
    obtain ⟨-, hr⟩ := Prod.mk.inj h
    cases hr
    rfl
  | _ => rfl

theorem rest_stopped (r : Request) (next : r.Reply → Behaviour α) :
    (stopped r next).rest = .ask r next := by
  cases r <;> rfl

theorem course_run {w : Worker Audience} {id : Nat} (hw : Stage.Attends w id policy)
    (work : Behaviour α) (st : Stage Audience) (hc : st.cancelled = false)
    (ha : st.gate.aborted = false) (lines : List String) :
    work.course w.name policy st.audience.tally
        (Deed.receipts (work.deeds w policy st) ++ lines) =
      before (work.deeds w policy st)
        ((work.run w never st).2.rest.course w.name policy
          (st.audience.tally.after (work.deeds w policy st)) lines) := by
  induction work generalizing st with
  | done a => rfl
  | panic m => rfl
  | ask r next ih =>
    cases hs : st.serve w r with
    | mk st' reply =>
      cases reply with
      | none =>
        rw [run_of_stopped hs, deeds, collect_of_stopped hs, rest_stopped]
        simp [before, Deed.receipts]
      | some reply =>
        have hf := Stage.follows_reply hw hs
        have ht : st'.audience.tally =
            st.audience.tally.after (r.deeds policy st.audience.tally reply) := hf.tally
        have hn := ih reply st' (hf.cancelled.trans hc) (hf.aborted.trans ha)
        have hd : (ask r next).deeds w policy st =
            r.deeds policy st.audience.tally reply ++ (next reply).deeds w policy st' :=
          collect_of_reply hs next
        have hcalm := calm_of_reply hc ha hs policy st.audience.tally
          (Deed.receipts ((next reply).deeds w policy st') ++ lines)
        rw [run_of_reply hs, hd, Deed.receipts_append, List.append_assoc, course_ask hcalm, ← ht, hn,
          before_before, Tally.after_append, ← ht]

theorem removals_deeds (w : Worker Audience) (policy : PausePolicy) (work : Behaviour α)
    (st : Stage Audience) :
    Deed.removals (work.deeds w policy st) = Deed.receipts (work.deeds w policy st) :=
  run_of_serve (fun _ ds _ => Deed.removals ds = Deed.receipts ds) (fun _ => rfl)
    (fun h h' => by rw [Deed.removals_append, Deed.receipts_append, h, h'])
    (fun {st r _ reply} _ => Deed.removals_request policy st.audience.tally r reply) (fun _ => rfl)
    work st

end Behaviour

namespace Session

def work? (s : Session) : Option (Behaviour Ending) :=
  match s.phase with
  | .queued _ work => some work
  | .ready work => some work
  | .reading logged next => some (.ask (.read logged) next)
  | .paused next => some (.ask .awaitGate next)
  | .finished _ => none

theorem work?_or_report? (s : Session) : (∃ rest, s.work? = some rest) ∨ ∃ r, s.report? = some r := by
  unfold work? report?
  cases s.phase with
  | finished r => exact .inr ⟨r, rfl⟩
  | _ => exact .inl ⟨_, rfl⟩

end Session

def Stop.outcome? (t : Tally) : Stop Ending → Option RunOutcome
  | .done ending _ => some (Stage.outcomeOf t ending)
  | .panicked _ => some .panicked
  | .starved => none

/-- A run `s` that did the deeds `ds` of the work it was given: it goes along the course of that work,
and once it has finished its report says what came of it. -/
structure OnCourse (name : String) (policy : PausePolicy) (work : Behaviour Ending) (ds : List Deed)
    (s : Session) : Prop where
  cancelled : s.cancelled = false
  aborted : s.gate.aborted = false
  begun : s.hasBegun = true
  tally : s.tally = ({} : Tally).after ds
  resumed : s.gate.resumed = .ofNat (Deed.resumes ds)
  goes : ∀ rest, s.work? = some rest → ∀ lines,
    work.course name policy {} (Deed.receipts ds ++ lines) =
      Behaviour.before ds (rest.course name policy s.tally lines)
  ends : ∀ r, s.report? = some r →
    r = { session := s.id, outcome := r.outcome, pauses := s.tally.pauses,
          resumes := s.gate.resumed, reads := s.tally.reads } ∧
    ∃ es, ds = es ++ [.publish (.finished r.outcome)] ∧
      ∀ lines, ∃ stop, work.course name policy {} (Deed.receipts ds ++ lines) = (es, stop) ∧
        stop.outcome? s.tally = some r.outcome

namespace Bridge
variable {b : Bridge} {s : Session} {work rest : Behaviour Ending} {ds : List Deed}

theorem carryOn_rest (b : Bridge) (s : Session) (rest : Behaviour Ending) :
    let deeds := rest.deeds (b.worker s.id) b.config.run.pause (b.stageOf s)
    let progress := (rest.run (b.worker s.id) Behaviour.never (b.stageOf s)).2
    let s' := (b.carryOn (fun _ => false) s rest).2
    (s'.work? = some progress.rest ∧ s'.report? = none ∧ b.carryOnDeeds s rest = deeds) ∨
    ∃ r, s'.work? = none ∧ s'.report? = some r ∧
      b.carryOnDeeds s rest = deeds ++ [.publish (.finished r.outcome)] ∧
      r = { session := s.id, outcome := r.outcome, pauses := s'.tally.pauses,
            resumes := s'.gate.resumed, reads := s'.tally.reads } ∧
      ∀ name policy t lines, ∃ stop, progress.rest.course name policy t lines = ([], stop) ∧
        stop.outcome? s'.tally = some r.outcome := by
  simp only [carryOnDeeds, carryOn_eq]
  cases hp : rest.run (b.worker s.id) Behaviour.never (b.stageOf s) with
  | mk st progress =>
    cases progress with
    | done ending =>
      refine .inr ⟨_, rfl, rfl, rfl, rfl, fun name policy t lines => ⟨_, rfl, ?_⟩⟩
      cases ending <;> rfl
    | panicked m => exact .inr ⟨_, rfl, rfl, rfl, rfl, fun name policy t lines => ⟨_, rfl, rfl⟩⟩
    | reading logged next => exact .inl ⟨rfl, rfl, List.append_nil _⟩
    | paused next => exact .inl ⟨rfl, rfl, List.append_nil _⟩
    | held rest => exact .inl ⟨rfl, rfl, List.append_nil _⟩

theorem onCourse_carryOn (hcancelled : s.cancelled = false) (haborted : s.gate.aborted = false)
    (htally : s.tally = ({} : Tally).after ds)
    (hresumed : s.gate.resumed = .ofNat (Deed.resumes ds))
    (hg : ∀ lines, work.course (b.workerName s.id) b.config.run.pause {} (Deed.receipts ds ++ lines) =
      Behaviour.before ds (rest.course (b.workerName s.id) b.config.run.pause s.tally lines)) :
    OnCourse (b.workerName s.id) b.config.run.pause work (ds ++ b.carryOnDeeds s rest)
      (b.carryOn (fun _ => false) s rest).2 := by
  have hm := moves_carryOn b s rest
  have hc := Behaviour.course_run (attends_worker b s.id) rest (b.stageOf s) hcancelled haborted
  have hall : ∀ lines, work.course (b.workerName s.id) b.config.run.pause {}
      (Deed.receipts (ds ++ b.carryOnDeeds s rest) ++ lines) =
        Behaviour.before (ds ++ rest.deeds (b.worker s.id) b.config.run.pause (b.stageOf s))
          ((rest.run (b.worker s.id) Behaviour.never (b.stageOf s)).2.rest.course (b.workerName s.id)
            b.config.run.pause (s.tally.after (rest.deeds (b.worker s.id) b.config.run.pause
              (b.stageOf s))) lines) := by
    intro lines
    have hr : Deed.receipts (b.carryOnDeeds s rest) =
        Deed.receipts (rest.deeds (b.worker s.id) b.config.run.pause (b.stageOf s)) := by
      unfold carryOnDeeds
      split <;> simp [Deed.receipts, Deed.received?]
    rw [Deed.receipts_append, hr, List.append_assoc, hg, ← Behaviour.before_before]
    exact congrArg _ (hc lines)
  have ht : (b.carryOn (fun _ => false) s rest).2.tally =
      ({} : Tally).after (ds ++ b.carryOnDeeds s rest) := by
    rw [hm.tally, htally, Tally.after_append]
    rfl
  have hn : (b.carryOn (fun _ => false) s rest).2.gate.resumed =
      .ofNat (Deed.resumes (ds ++ b.carryOnDeeds s rest)) := by
    rw [hm.resumed, hresumed, Deed.resumes_append, UInt32.ofNat_add]
  refine ⟨hm.cancelled.trans hcancelled, hm.aborted.trans haborted, hm.begun, ht, hn, ?_, ?_⟩
  · intro rest' hw lines
    obtain ⟨hrest, -, hd⟩ | ⟨r, hnone, -⟩ := carryOn_rest b s rest
    · rw [hrest, Option.some.injEq] at hw
      rw [hall, ht, ← hw, hd, Tally.after_append, ← htally]
    · rw [hnone] at hw
      cases hw
  · intro r hr
    obtain ⟨-, hnone, -⟩ | ⟨r', -, hsome, hd, hrep, hstop⟩ := carryOn_rest b s rest
    · rw [hnone] at hr
      cases hr
    · obtain rfl : r' = r := Option.some.inj (hsome.symm.trans hr)
      refine ⟨hrep, ds ++ rest.deeds (b.worker s.id) b.config.run.pause (b.stageOf s), ?_,
        fun lines => ?_⟩
      · rw [hd, ← List.append_assoc]
      · obtain ⟨stop, hs, ho⟩ := hstop (b.workerName s.id) b.config.run.pause
          (s.tally.after (rest.deeds (b.worker s.id) b.config.run.pause (b.stageOf s))) lines
        refine ⟨stop, ?_, ho⟩
        rw [hall, hs, Behaviour.before, List.append_nil]

theorem onCourse_advance (h : OnCourse (b.workerName s.id) b.config.run.pause work ds s) :
    OnCourse (b.workerName s.id) b.config.run.pause work (ds ++ b.advanceDeeds s)
      (b.advance (fun _ => false) s).2 := by
  cases hp : s.phase with
  | finished r | reading logged next =>
    simp only [advance, advanceDeeds, hp, List.append_nil]
    exact h
  | queued behind work' =>
    have hb := h.begun
    simp [Session.hasBegun, Session.behind?, hp] at hb
  | ready rest =>
    simp only [advance, advanceDeeds, hp]
    exact onCourse_carryOn h.cancelled h.aborted h.tally h.resumed
      (h.goes rest (by simp [Session.work?, hp]))
  | paused next =>
    obtain ⟨ha, -⟩ | ⟨-, -, hw⟩ | ⟨-, -, hw⟩ := s.gate.wait_cases
    · simp [h.aborted] at ha
    · simp only [advance, advanceDeeds, hp, hw]
      rw [List.append_cons]
      refine onCourse_carryOn (s := { s with
        gate := { s.gate with permit := false, waiting := false, resumed := s.gate.resumed + 1 }
        phase := .paused next }) h.cancelled h.aborted ?_ ?_ fun lines => ?_
      · rw [Tally.after_append, ← h.tally]
        rfl
      · rw [Deed.resumes_append, UInt32.ofNat_add, ← h.resumed]
        rfl
      · have hr : Deed.receipts (ds ++ [.pass .resumed]) = Deed.receipts ds := by
          simp [Deed.receipts, Deed.received?]
        rw [hr, ← Behaviour.before_before]
        exact h.goes (.ask .awaitGate next) (by simp [Session.work?, hp]) lines
    · simp only [advance, advanceDeeds, hp, hw, List.append_nil]
      exact h

theorem removals_advanceDeeds (b : Bridge) (hb : s.hasBegun = true) :
    Deed.removals (b.advanceDeeds s) = Deed.receipts (b.advanceDeeds s) := by
  have hwork : ∀ (s : Session) (rest : Behaviour Ending),
      Deed.removals (b.carryOnDeeds s rest) = Deed.receipts (b.carryOnDeeds s rest) := by
    intro s rest
    unfold carryOnDeeds
    rw [Deed.removals_append, Deed.receipts_append, Behaviour.removals_deeds]
    split <;> rfl
  unfold advanceDeeds
  cases hp : s.phase with
  | queued behind rest => simp [Session.hasBegun, Session.behind?, hp] at hb
  | finished r | reading logged next => rfl
  | ready rest => exact hwork s rest
  | paused next =>
    cases hw : s.gate.wait with
    | mk gate outcome =>
      cases outcome with
      | none => rfl
      | some outcome => exact hwork { s with gate } (next outcome)

end Bridge

namespace OnCourse
variable {name : String} {policy : PausePolicy} {work : Behaviour Ending} {ds : List Deed}
  {s : Session}

theorem start (name : String) (policy : PausePolicy) (work : Behaviour Ending) (id : Nat) :
    OnCourse name policy work [] { id, phase := .ready work } where
  cancelled := rfl
  aborted := rfl
  begun := rfl
  tally := rfl
  resumed := rfl
  goes := by
    intro rest hr lines
    cases hr
    rfl
  ends := fun r hr => by cases hr

theorem resume (h : OnCourse name policy work ds s) :
    OnCourse name policy work ds { s with gate := s.gate.resume } :=
  ⟨h.cancelled, h.aborted, h.begun, h.tally, h.resumed, h.goes, h.ends⟩

theorem receive (h : OnCourse name policy work ds s) (hr : s.isReading = true) (line : String) :
    OnCourse name policy work (ds ++ [.receive line]) (s.receive line) := by
  unfold Session.isReading at hr
  split at hr
  · rename_i logged next hp
    have hs : s.receive line = { s with phase := .ready (next (some line)) } := by
      simp [Session.receive, hp]
    rw [hs]
    refine ⟨h.cancelled, h.aborted, rfl, ?_, ?_, ?_, fun r hr => by cases hr⟩
    · rw [Tally.after_append, ← h.tally]
      rfl
    · rw [Deed.resumes_append]
      exact h.resumed
    · intro rest hw lines
      cases hw
      rw [Deed.receipts_append, List.append_assoc, ← Behaviour.before_before]
      exact h.goes (.ask (.read logged) next) (by simp [Session.work?, hp]) (line :: lines)
  · cases hr

end OnCourse

end Conduit

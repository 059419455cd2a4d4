import Conduit.Proofs.Bridge.Stream

/-!
Reports. Whatever the engine, the report of a run agrees with the events that were published about the
run, its outcome follows from how the work of the engine ended, and nothing that a host does later
changes it.
-/
namespace Conduit

theorem Deed.resumes_eq (ds : List Deed) : resumes ds = (waits ds).count .resumed := by
  induction ds with
  | nil => rfl
  | cons d ds ih =>
    rw [← List.singleton_append, resumes_append, waits_append, List.count_append, ih]
    congr 1
    cases d with
    | pass outcome => cases outcome <;> rfl
    | _ => rfl

theorem Act.removed_by_run (id : Nat) (acts : List Act) :
    ((removed acts).filter fun p => p.1 = .run id).map Prod.snd = Deed.receipts (deedsOf id acts) := by
  induction acts with
  | nil => rfl
  | cons a acts ih =>
    rw [← List.singleton_append, removed_append, List.filter_append, List.map_append, ih,
      deedsOf_append, Deed.receipts_append]
    congr 1
    cases a with
    | host d => cases d <;> rfl
    | run i d =>
      by_cases hi : i = id <;> cases d <;>
        simp [removed, removed?, deedsOf, deeds, deed?, Deed.receipts, Deed.received?, hi,
          List.filterMap_cons]

namespace Engine.Finish

def isPanic : Finish → Bool
  | .panicked _ => true
  | _ => false

/-- How a run is judged whose work came to its end so, `off` being its token in the end. -/
def outcome (off failed : Bool) (f : Finish) : RunOutcome :=
  if f.isPanic then .panicked
  else if f = .dropped then .cancelled
  else if f = .rejected then .analysisFailed
  else if off then .cancelled
  else if failed then .runtimeError
  else .completed

def Heeds (off : Bool) : Finish → Prop
  | .dropped | .halted => off = true
  | .executed off' => off' = off
  | .rejected | .panicked _ => True

theorem verdict?_rest {f : Finish} {off : Bool} (h : f.Heeds off) (t : Tally) :
    f.rest.verdict? t = some (f.outcome off t.failed) := by
  cases f with
  | dropped | rejected | panicked m => rfl
  | halted =>
    cases h
    rfl
  | executed off' =>
    cases h
    cases off <;> rfl

theorem isPanic_iff {f : Finish} {t : Tally} {outcome : RunOutcome}
    (h : f.rest.verdict? t = some outcome) : f.isPanic = true ↔ outcome = .panicked := by
  cases f with
  | executed off =>
    cases h
    cases off
    · cases hf : t.failed <;> simp [isPanic, Stage.outcomeOf, hf]
    · simp [isPanic, Stage.outcomeOf]
  | _ =>
    cases h
    simp [isPanic, Stage.outcomeOf]

end Engine.Finish

namespace Session.Transcript
variable {σ : Type} {e : Engine σ} {debug : Bool} {source : String} {policy : PausePolicy}
  {b : Bridge} {s : Session} {xs : List Exchange} {ds : List Deed}

theorem waits {work : Behaviour Ending} (h : s.Transcript policy work xs ds) :
    Deed.waits ds = Deed.waits (Dialogue.deeds policy {} xs) := by
  have hclosing : s.closing.filterMap Deed.waited? = [] := by
    unfold closing
    split <;> rfl
  have hw := h.filterMap_deeds (g := Deed.waited?) fun _ => rfl
  rwa [hclosing, List.append_nil] at hw

theorem receipts {work : Behaviour Ending} (h : s.Transcript policy work xs ds) :
    Deed.receipts ds = Deed.receipts (Dialogue.deeds policy {} xs) := by
  have hclosing : s.closing.filterMap Deed.received? = [] := by
    unfold closing
    split <;> rfl
  have hr := h.filterMap_deeds (g := Deed.received?) fun _ => rfl
  rwa [hclosing, List.append_nil] at hr

theorem exists_finish (h : s.Transcript policy (e.drive debug source) xs ds) {r : RunReport}
    (hr : s.report? = some r) :
    ∃ f, e.Finishes debug source xs f ∧ (e.drive debug source).Reaches xs f.rest ∧
      f.rest.verdict? s.tally = some r.outcome := by
  obtain ⟨-, rest, hreach, hv⟩ := h.report hr
  have he : rest.hasEnded = true := by
    cases rest with
    | ask r next => cases hv
    | _ => rfl
  obtain ⟨f, hfin, rfl⟩ := Engine.finishes_of_reaches hreach he
  exact ⟨f, hfin, hreach, hv⟩

/-- A run that finishes in its turn finds its token as it is then, however its work ends. -/
theorem finishes (h : s.Transcript policy (e.drive debug source) xs ds) (hp : s.Poised)
    (hc : b.config.run.pause = policy) (hf : s.isFinished = false) {r : RunReport}
    (hr : (b.advance (fun _ => false) s).2.report? = some r) :
    ∃ ys f, (b.advance (fun _ => false) s).2.Transcript policy (e.drive debug source) (xs ++ ys)
        (ds ++ b.advanceDeeds s) ∧
      e.Finishes debug source (xs ++ ys) f ∧ f.Heeds s.cancelled ∧
      r.outcome = f.outcome s.cancelled (b.advance (fun _ => false) s).2.tally.failed := by
  obtain ⟨ys, ht, ha⟩ := h.advance hp hc
  obtain ⟨f, hfin, hreach, hv⟩ := ht.exists_finish hr
  have hheeds : f.Heeds s.cancelled := by
    obtain rfl | ⟨m, rfl⟩ | ⟨off, zs, hxs, hcases⟩ := hfin.last
    · trivial
    · trivial
    have hoff : off = s.cancelled := by
      rcases List.eq_nil_or_concat ys with rfl | ⟨ys', y, rfl⟩
      · -- Nothing was asked for in this turn: the work had ended before, with a read.
        obtain ⟨rest', hw⟩ := exists_work hf
        have hend : rest'.hasEnded = true := by
          have hrest := hreach.of_append (h.reaches hw)
          have he : f.rest.hasEnded = true := by cases f <;> rfl
          generalize f.rest = rest at hrest he
          cases hrest
          exact he
        obtain ⟨zs', logged, reply, hread⟩ := h.asks rest' hw hend
        rw [List.append_nil, hread] at hxs
        cases (List.cons.inj (List.append_inj_right' hxs rfl)).1
      · rw [List.concat_eq_append, ← List.append_assoc] at hxs
        have hy := (List.cons.inj (List.append_inj_right' hxs rfl)).1
        have hagrees := ha y (by simp)
        rw [hy] at hagrees
        exact hagrees
    subst hoff
    obtain ⟨rfl, ho⟩ | ⟨rfl, ho⟩ | rfl := hcases
    · exact ho
    · exact ho
    · rfl
  refine ⟨ys, f, ht, hfin, hheeds, ?_⟩
  exact Option.some.inj (hv.symm.trans (Engine.Finish.verdict?_rest hheeds _))

end Session.Transcript

namespace Bridge
variable {b b' : Bridge} {s : Session} {r : RunReport}

theorem filter_eventsOf {acts : List Act} (hs : Steps b acts b') (id : Nat) {p : SessionEvent → Bool}
    (hspawned : p .spawned = false) (hresumed : p .resumed = false) :
    (Act.eventsOf id acts).filter p = (Deed.publications (Act.deedsOf id acts)).filter p := by
  refine Act.filter_eventsOf fun e he _ => ?_
  rcases hostEvents_steps hs e he with h | h <;> rw [h] <;> assumption

/-- The same for counts of which the end of the run is no part: they can be told from its dialogue. -/
theorem countP_eventsOf {acts : List Act} (hs : Steps b acts b') {policy : PausePolicy}
    {work : Behaviour Ending} {xs : List Exchange}
    (h : s.Transcript policy work xs (Act.deedsOf s.id acts)) {p : SessionEvent → Bool}
    (hspawned : p .spawned = false) (hresumed : p .resumed = false)
    (hend : ∀ outcome, p (.finished outcome) = false) :
    (Act.eventsOf s.id acts).countP p =
      (Deed.publications (Dialogue.deeds policy {} xs)).countP p := by
  have hclosing : (Deed.publications s.closing).countP p = 0 := by
    unfold Session.closing
    split
    · simp [Deed.publications, Deed.published?, hend]
    · rfl
  rw [List.countP_eq_length_filter, filter_eventsOf hs s.id hspawned hresumed,
    ← List.countP_eq_length_filter, h.publications, List.countP_append, hclosing, Nat.add_zero]

theorem tally_eq {acts : List Act} (hs : Steps b acts b') {policy : PausePolicy}
    {work : Behaviour Ending} {xs : List Exchange}
    (h : s.Transcript policy work xs (Act.deedsOf s.id acts)) :
    s.tally.pauses = .ofNat ((Act.eventsOf s.id acts).countP SessionEvent.isPause) ∧
      s.tally.reads = .ofNat ((Act.eventsOf s.id acts).countP SessionEvent.isRead) := by
  obtain ⟨hpauses, hreads, -⟩ := Tally.after_counts {} (Dialogue.deeds policy {} xs)
  rw [countP_eventsOf hs h rfl rfl fun _ => rfl, countP_eventsOf hs h rfl rfl fun _ => rfl, h.tally,
    hpauses, hreads]
  exact ⟨UInt32.zero_add _, UInt32.zero_add _⟩

theorem resumed_eq {policy : PausePolicy} {work : Behaviour Ending} {xs : List Exchange}
    {ds : List Deed} (h : s.Transcript policy work xs ds) :
    s.gate.resumed = .ofNat ((Deed.waits ds).count .resumed) := by
  rw [h.waits, ← Deed.resumes_eq, h.resumed]

/-- Whatever happens in a call, a run that has finished keeps its report and does nothing more. -/
theorem report_perform (hb : b.Sound) (hs : s ∈ b.sessions) (hr : s.report? = some r) (ticket : Nat)
    (call : Call) :
    (∃ s' ∈ (b.perform ticket call).1.sessions, s'.id = s.id ∧ s'.report? = some r) ∧
    Act.deedsOf s.id (b.performActs ticket call) = [] ∧
    Act.eventsOf s.id (b.performActs ticket call) = [] := by
  obtain ⟨c, s₁, s', hs', hid, ht, hn⟩ := exists_perform hb ticket call hs
  obtain ⟨hnone, hr₁, -⟩ := hn.report hr
  have hf₁ : s₁.isFinished = true := by rw [Session.isFinished, hr₁]; rfl
  obtain ⟨hstay, hquiet⟩ := advance_of_isFinished c hf₁
  have hdeeds : Act.deedsOf s.id (b.performActs ticket call) = [] := by
    rw [← hid, ht.deeds, hid, hnone, hquiet]
    rfl
  refine ⟨⟨s', hs', hid, ?_⟩, hdeeds, ?_⟩
  · rw [ht.goes, hstay]
    exact hr₁
  · rw [eventsOf_performActs hb hs, hdeeds]
    · rfl
    · intro _ ha
      have hf := (mem_active.mp ha).2
      rw [Session.isFinished, hr] at hf
      cases hf

theorem report_after (hb : b.Sound) (hs : s ∈ b.sessions) (hr : s.report? = some r)
    (calls : List (Nat × Call)) :
    (∃ s' ∈ (b.after calls).sessions, s'.id = s.id ∧ s'.report? = some r) ∧
    Act.deedsOf s.id (b.history calls) = [] ∧ Act.eventsOf s.id (b.history calls) = [] := by
  induction calls generalizing b s with
  | nil => exact ⟨⟨s, hs, rfl, hr⟩, rfl, rfl⟩
  | cons c calls ih =>
    obtain ⟨⟨s₁, hs₁, hid₁, hr₁⟩, hd, he⟩ := report_perform hb hs hr c.1 c.2
    obtain ⟨⟨s', hs', hid', hr'⟩, hd', he'⟩ := ih (hb.accounts (steps_perform b c.1 c.2)).sound hs₁ hr₁
    rw [hid₁] at hid' hd' he'
    refine ⟨⟨s', hs', hid', hr'⟩, ?_, ?_⟩
    · rw [history, Act.deedsOf_append, hd, hd']
      rfl
    · rw [history, Act.eventsOf_append, he, he']
      rfl

theorem find?_of_mem (hs : s ∈ b.sessions) (hn : ∀ t ∈ b.sessions, t.id = s.id → t = s) :
    b.find? s.id = some s := by
  cases h : b.find? s.id with
  | none =>
    rw [find?, List.find?_eq_none] at h
    simpa using h s hs
  | some t =>
    have hid : t.id = s.id := by simpa using List.find?_some h
    rw [hn t (List.mem_of_find?_eq_some h) hid]

theorem Sound.find?_eq (hb : b.Sound) (hs : s ∈ b.sessions) : b.find? s.id = some s :=
  find?_of_mem hs fun _ ht hid => hb.eq_of_id ht hs hid

theorem reply_join (hb : b.Sound) (hs : s ∈ b.sessions) (hr : s.report? = some r) (ticket : Nat) :
    (b.perform ticket (.join s.id)).2.reply = some (.report r) := by
  change (b.await ticket (.finish s.id)).2 = _
  simp only [await, waitReply?, hb.find?_eq hs, Option.bind_some, hr, Option.map_some]

structure Concludes (b : Bridge) (ticket : Nat) (call : Call) (s : Session) (r : RunReport) : Prop where
  mem : s ∈ (b.perform ticket call).1.sessions
  report : s.report? = some r
  unfinished : ∀ t ∈ b.sessions, t.id = s.id → t.isFinished = false

/-- The report of a run counts its events, and its outcome is the one that was published. -/
theorem report_counts (e : Engine σ) (grants : Nat → Bool) (sink : Sink) (config : Config)
    (calls : List (Nat × Call))
    (hs : s ∈ ((create e grants sink config).after calls).sessions) (hr : s.report? = some r) :
    let acts := (create e grants sink config).history calls
    r.session = s.id ∧
    r.pauses = .ofNat ((Act.eventsOf s.id acts).countP SessionEvent.isPause) ∧
    r.reads = .ofNat ((Act.eventsOf s.id acts).countP SessionEvent.isRead) ∧
    r.resumes = .ofNat ((Deed.waits (Act.deedsOf s.id acts)).count .resumed) ∧
    (Act.eventsOf s.id acts).filter SessionEvent.isEnd = [.finished r.outcome] ∧
    (s.tally.failed = true ↔ .runtimeError ∈ Act.eventsOf s.id acts) := by
  intro acts
  have hsteps := steps_history (create e grants sink config) calls
  obtain ⟨-, source, xs, -, ht⟩ := (transcripts e grants sink config calls).runs s hs
  obtain ⟨hrep, -⟩ := ht.report hr
  obtain ⟨lines, hd⟩ := ht.deeds
  have hclosing : s.closing = [.publish (.finished r.outcome)] := by rw [Session.closing, hr]
  rw [hclosing] at hd
  obtain ⟨hpauses, hreads⟩ := tally_eq hsteps ht
  obtain ⟨-, -, hfailed⟩ := Tally.after_counts {} (Dialogue.deeds config.run.pause {} xs)
  rw [← ht.tally] at hfailed
  have hpub : Deed.publications (Act.deedsOf s.id acts) =
      Deed.publications (Dialogue.deeds config.run.pause {} xs) ++ [.finished r.outcome] := by
    rw [hd]
    simp [Deed.publications, Deed.published?]
  refine ⟨by rw [hrep], ?_, ?_, ?_, ?_, ?_⟩
  · rw [hrep, hpauses]
  · rw [hrep, hreads]
  · rw [hrep, resumed_eq ht]
  · rw [filter_eventsOf hsteps s.id rfl rfl, hpub, List.filter_append]
    refine (congrArg (· ++ _) (List.filter_eq_nil_iff.mpr fun ev hev => ?_)).trans rfl
    cases ev with
    | finished outcome => exact absurd hev (Dialogue.finished_not_mem _ _ outcome)
    | _ => simp [SessionEvent.isEnd]
  · have hmem : .runtimeError ∈ Act.eventsOf s.id acts ↔
        .runtimeError ∈ Deed.publications (Act.deedsOf s.id acts) := by
      have hf := @filter_eventsOf _ _ acts hsteps s.id (fun ev => ev = .runtimeError) rfl rfl
      simpa using congrArg (fun es => SessionEvent.runtimeError ∈ es) hf
    rw [hmem, hpub, hfailed]
    simp

/-- How the engine of a run came to its end, and that its outcome follows from that. -/
theorem concludes_outcome {e : Engine σ} {grants : Nat → Bool} {sink : Sink} {config : Config}
    {calls : List (Nat × Call)} {ticket : Nat} {call : Call}
    (h : Concludes ((create e grants sink config).after calls) ticket call s r) :
    let acts := (create e grants sink config).history (calls ++ [(ticket, call)])
    ∃ source xs f, (s.id, source) ∈ (create e grants sink config).programs
      (calls ++ [(ticket, call)]) ∧
      e.Finishes config.run.debug source xs f ∧
      (∃ lines : List String, Act.deedsOf s.id acts =
        lines.map .discard ++ Dialogue.deeds config.run.pause {} xs ++
          [.publish (.finished r.outcome)]) ∧
      r.outcome = f.outcome s.cancelled (decide (.runtimeError ∈ Act.eventsOf s.id acts)) := by
  intro acts
  have hmem : s ∈ ((create e grants sink config).after (calls ++ [(ticket, call)])).sessions := by
    rw [after_append]
    exact h.mem
  obtain ⟨-, -, -, -, -, hfailed⟩ := report_counts e grants sink config _ hmem h.report
  obtain ⟨c, s₁, ht, hpoised, ⟨source, xs, hg, htr⟩, hfrom⟩ :=
    (lasting_transcript e config _).turn hmem
  have hf₁ : s₁.isFinished = false := by
    rcases hfrom with ⟨t, htm, -, -, hn⟩ | hnew
    · rw [hn.alike.finished]
      exact h.unfinished t htm (hn.alike.id.symm.trans ht.id)
    · obtain ⟨source, told, -, rfl⟩ := mem_newcomers hnew
      unfold firstPhase
      split <;> rfl
  have hconfig : c.config.run.pause = config.run.pause := by
    rw [ht.config, ((sound_create e grants sink config).accounts (steps_history _ calls)).config]
    rfl
  have hcancelled : s.cancelled = s₁.cancelled := by
    rw [ht.goes, cancelled_advance]
  have hr := h.report
  rw [ht.goes] at hr
  obtain ⟨ys, f, htr', hfin, -, houtcome⟩ := htr.finishes hpoised hconfig hf₁ hr
  refine ⟨source, xs ++ ys, f, ht.id ▸ hg, hfin, ?_, ?_⟩
  · obtain ⟨lines, hd⟩ := htr'.deeds
    refine ⟨lines, ?_⟩
    have hall : Act.deedsOf s.id acts =
        Act.deedsOf s₁.id ((create e grants sink config).history calls ++
          ((create e grants sink config).after calls).applyActs call) ++ c.advanceDeeds s₁ := by
      rw [ht.id, Act.deedsOf_append, List.append_assoc, ← ht.deeds, ← Act.deedsOf_append]
      simp only [acts, history_append, history, List.append_nil]
    rw [hall, hd, Session.closing, hr]
  · rw [houtcome, ← ht.goes, hcancelled]
    congr 1
    rw [Bool.eq_iff_iff, hfailed]
    simp [acts]

theorem reads_are_removals (i : Interpreter) (grants : Nat → Bool) (sink : Sink) (config : Config)
    (calls : List (Nat × Call))
    (hs : s ∈ ((create i.engine grants sink config).after calls).sessions)
    (hr : s.report? = some r) :
    r.reads = .ofNat ((Act.removed ((create i.engine grants sink config).history calls)).filter
      fun p => p.1 = .run s.id).length := by
  obtain ⟨-, source, xs, q, -, h⟩ := (orderly_runs i grants sink config calls).runs s hs
  have hcounted : q.uncounted = 0 := by
    obtain ⟨rfl, -⟩ | ⟨rfl, -⟩ | ⟨off, rfl, -⟩ | ⟨rfl, -⟩ := h.closes hr <;> rfl
  have hreads := h.accounts.reads
  rw [hcounted, ← h.receipts, ← Act.removed_by_run, List.length_map, Nat.add_zero] at hreads
  have hsteps := steps_history (create i.engine grants sink config) calls
  obtain ⟨hrep, -⟩ := h.report hr
  rw [hrep, (tally_eq hsteps h.toTranscript).2, hreads,
    countP_eventsOf hsteps h.toTranscript rfl rfl fun _ => rfl]

/-- Whatever its engine does, the report of a run that finishes in a call agrees with its events, whose
numbers it holds in 32 bits. Its outcome tells how the work of the engine ended and how its token and its
events were then. From then on nothing more is heard of the run, and everyone who joins it gets this
report. Runs of interpreters have taken as many lines as they report. -/
theorem reports_agree_and_stay (grants : Nat → Bool) (sink : Sink) (config : Config)
    (calls : List (Nat × Call)) (ticket : Nat) (call : Call) (s : Session) (r : RunReport) :
    (∀ {σ : Type} (e : Engine σ),
      Concludes ((create e grants sink config).after calls) ticket call s r →
      let acts := (create e grants sink config).history (calls ++ [(ticket, call)])
      let events := Act.eventsOf s.id acts
      (∀ u ∈ (((create e grants sink config).after calls).perform ticket call).1.hub.subscribers,
        u.inbox <:+ Act.published acts) ∧
      (r.session = s.id ∧ r.pauses = .ofNat (events.countP SessionEvent.isPause) ∧
        r.reads = .ofNat (events.countP SessionEvent.isRead) ∧
        r.resumes = .ofNat ((Deed.waits (Act.deedsOf s.id acts)).count .resumed) ∧
        events.filter SessionEvent.isEnd = [.finished r.outcome]) ∧
      (∃ source xs f, (s.id, source) ∈ (create e grants sink config).programs
        (calls ++ [(ticket, call)]) ∧
        e.Finishes config.run.debug source xs f ∧
        (∃ lines : List String, Act.deedsOf s.id acts = lines.map .discard ++
          Dialogue.deeds config.run.pause {} xs ++ [.publish (.finished r.outcome)]) ∧
        r.outcome =
          if f.isPanic then .panicked
          else if f = .dropped then .cancelled
          else if f = .rejected then .analysisFailed
          else if s.cancelled then .cancelled
          else if .runtimeError ∈ events then .runtimeError
          else .completed) ∧
      ∀ later : List (Nat × Call),
        let b := (create e grants sink config).after (calls ++ (ticket, call) :: later)
        (∃ s' ∈ b.sessions, s'.id = s.id ∧ s'.report? = some r) ∧
        (∀ ticket', (b.perform ticket' (.join s.id)).2.reply = some (.report r)) ∧
        Act.eventsOf s.id ((create e grants sink config).history (calls ++ (ticket, call) :: later)) =
          events ∧
        Act.deedsOf s.id ((create e grants sink config).history (calls ++ (ticket, call) :: later)) =
          Act.deedsOf s.id acts) ∧
    ∀ i : Interpreter, Concludes ((create i.engine grants sink config).after calls) ticket call s r →
      r.reads = .ofNat ((Act.removed ((create i.engine grants sink config).history
        (calls ++ [(ticket, call)]))).filter fun p => p.1 = .run s.id).length := by
  refine ⟨fun e h => ?_, fun i h => ?_⟩
  · intro acts events
    have hmem : s ∈ ((create e grants sink config).after (calls ++ [(ticket, call)])).sessions := by
      rw [after_append]
      exact h.mem
    obtain ⟨hsession, hpauses, hreads, hresumes, hend, -⟩ :=
      report_counts e grants sink config _ hmem h.report
    have haccounts := (sound_create e grants sink config).accounts
      (steps_history _ (calls ++ [(ticket, call)]))
    refine ⟨?_, ⟨hsession, hpauses, hreads, hresumes, hend⟩, ?_, fun later => ?_⟩
    · have hinboxes := haccounts.inboxes (by simp [create, note])
      rw [after_append] at hinboxes
      exact hinboxes
    · obtain ⟨source, xs, f, hgiven, hfin, hdeeds, houtcome⟩ := concludes_outcome h
      refine ⟨source, xs, f, hgiven, hfin, hdeeds, houtcome.trans ?_⟩
      simp only [Engine.Finish.outcome, decide_eq_true_eq]
      rfl
    · intro b
      have hsplit : calls ++ (ticket, call) :: later = calls ++ [(ticket, call)] ++ later := by simp
      have hsound := haccounts.sound
      obtain ⟨⟨s', hs', hid', hr'⟩, hd, he⟩ := report_after hsound hmem h.report later
      have hb : b = ((create e grants sink config).after (calls ++ [(ticket, call)])).after later := by
        rw [← after_append, ← hsplit]
      rw [← hb] at hs'
      have hsound' : b.Sound :=
        hb ▸ (hsound.accounts (steps_history _ later)).sound
      refine ⟨⟨s', hs', hid', hr'⟩, fun ticket' => hid' ▸ reply_join hsound' hs' hr' ticket', ?_, ?_⟩
      · rw [hsplit, history_append, Act.eventsOf_append, he, List.append_nil]
      · rw [hsplit, history_append, Act.deedsOf_append, hd, List.append_nil]
  · refine reads_are_removals i grants sink config _ ?_ h.report
    rw [after_append]
    exact h.mem

/-- A run that waits for a line and finishes once it is there. -/
theorem reports_agree_and_stay_one_read :
    let calls : List (Nat × Call) := [(0, .start "read a" true)]
    let b := (create Scripted.engine (fun _ => true) (.capture "") {}).after calls
    let acts := (create Scripted.engine (fun _ => true) (.capture "") {}).history
      (calls ++ [(1, .submit "x")])
    ∃ s r, Concludes b 1 (.submit "x") s r ∧ r = ⟨1, .completed, 0, 0, 1⟩ ∧
      r.reads = .ofNat ((Act.eventsOf s.id acts).countP SessionEvent.isRead) := by
  intro calls b acts
  have hend : (b.perform 1 (.submit "x")).1.sessions.any
      (fun s => s.report? = some ⟨1, .completed, 0, 0, 1⟩) = true := by decide +kernel
  have hwaits : b.sessions.all (fun t => !t.isFinished) = true := by decide +kernel
  obtain ⟨s, hs, hr⟩ := List.any_eq_true.mp hend
  have h : Concludes b 1 (.submit "x") s ⟨1, .completed, 0, 0, 1⟩ :=
    ⟨hs, by simpa using hr, fun t ht _ => by simpa using List.all_eq_true.mp hwaits t ht⟩
  refine ⟨s, _, h, rfl, ?_⟩
  exact ((reports_agree_and_stay (fun _ => true) (.capture "") {} calls 1 (.submit "x") s _).1
    Scripted.engine h).2.1.2.2.1

end Bridge

end Conduit

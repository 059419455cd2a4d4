import Conduit.Proofs.Bridge.Report

/-!
The lives of an interpreter's runs. A subscriber sees of every run that is started later a life or the
beginning of one, and at any time as many checkpoints have been passed as were announced, but for one
at which the run is held up or was called off.
-/
namespace Conduit

theorem Beats.mem {policy : PausePolicy} {es : List SessionEvent} (h : Beats policy es)
    {e : SessionEvent} (he : e ∈ es) : e.isRead = true ∨ e.isPause = true ∨ e = .resumed := by
  induction h with
  | nil => cases he
  | read h line ih =>
    rcases List.mem_append.mp he with he | he
    · exact ih he
    · exact .inl (List.mem_singleton.mp he ▸ rfl)
  | pause h line wasPrint ih =>
    rcases List.mem_append.mp he with he | he
    · exact ih he
    · rcases List.mem_cons.mp he with rfl | he
      · exact .inr (.inl rfl)
      · split at he
        · exact .inr (.inr (List.mem_singleton.mp he))
        · cases he

/-- A body is made of reads and checkpoints, and of the failure if there is one. -/
theorem Body.mem {policy : PausePolicy} {failed : Bool} {body : List SessionEvent}
    (h : Body policy failed body) {e : SessionEvent} (he : e ∈ body) :
    e.isRead = true ∨ e.isPause = true ∨ e = .resumed ∨ e = .runtimeError ∧ failed = true := by
  obtain ⟨beats, hb, rfl⟩ := h
  rcases List.mem_append.mp he with he | he
  · obtain h | h | h := hb.mem he
    · exact .inl h
    · exact .inr (.inl h)
    · exact .inr (.inr (.inl h))
  · split at he
    · exact .inr (.inr (.inr ⟨List.mem_singleton.mp he, ‹_›⟩))
    · cases he

theorem Body.runtimeError_mem {policy : PausePolicy} {failed : Bool} {body : List SessionEvent}
    (h : Body policy failed body) : .runtimeError ∈ body ↔ failed = true := by
  constructor
  · intro he
    obtain h | h | h | ⟨-, h⟩ := h.mem he
    · cases h
    · cases h
    · cases h
    · exact h
  · rintro rfl
    obtain ⟨beats, -, rfl⟩ := h
    simp

namespace Session.Orderly
variable {s : Session} {policy : PausePolicy} {work : Behaviour Ending} {xs : List Exchange}
  {q : Station} {ds : List Deed} {r : RunReport}

theorem ending (h : s.Orderly policy work xs q ds) (hr : s.report? = some r) :
    let told := Deed.publications (Dialogue.deeds policy {} xs)
    (q = .dropped ∧ told = [] ∧ r.outcome = .cancelled) ∨
    (told = [.analysisFinished false] ∧ r.outcome = .analysisFailed) ∨
    (∃ failed body, Body policy failed body ∧
      told = opening ++ body ++ [.stackPopped 0, .executionStopped] ∧
      (r.outcome = .runtimeError ∧ failed = true ∨
        (r.outcome = .completed ∨ r.outcome = .cancelled) ∧ failed = false)) ∨
    ∃ body, Body policy false body ∧ told = opening ++ body ∧ r.outcome = .panicked := by
  intro told
  have htold := h.accounts.told
  obtain ⟨rfl, ho⟩ | ⟨rfl, ho⟩ | ⟨off, rfl, ho⟩ | ⟨rfl, ho⟩ := h.closes hr
  · exact .inl ⟨rfl, htold, ho⟩
  · exact .inr (.inl ⟨htold, ho⟩)
  · obtain ⟨failed, body, hb, hoff, he⟩ := htold
    refine .inr (.inr (.inl ⟨failed, body, hb, he, ?_⟩))
    have hfailed : s.tally.failed = true ↔ failed = true := by
      rw [h.tally, (Tally.after_counts {} _).2.2, he, ← hb.runtimeError_mem]
      simp [opening]
    cases off with
    | true => exact .inr ⟨.inr ho, hoff rfl⟩
    | false =>
      cases failed with
      | true => exact .inl ⟨by simpa [hfailed] using ho, rfl⟩
      | false =>
        have hn : s.tally.failed = false := by simpa using hfailed
        exact .inr ⟨.inl (by simpa [hn] using ho), rfl⟩
  · obtain ⟨body, hb, he⟩ := htold
    exact .inr (.inr (.inr ⟨body, hb, he, ho⟩))

theorem publications_of_report (h : s.Orderly policy work xs q ds) (hr : s.report? = some r) :
    Deed.publications ds =
      Deed.publications (Dialogue.deeds policy {} xs) ++ [.finished r.outcome] := by
  rw [h.publications, closing, hr]
  rfl

theorem life (h : s.Orderly policy work xs q ds) (hr : s.report? = some r) :
    Life policy (.spawned :: Deed.publications ds) := by
  rw [h.publications_of_report hr]
  obtain ⟨-, he, ho⟩ | ⟨he, ho⟩ | ⟨failed, body, hb, he, ho⟩ | ⟨body, hb, he, ho⟩ := h.ending hr
  · rw [he, ho]
    exact .dropped
  · rw [he, ho]
    exact .rejected
  · have hl := Life.executed hb ho
    rw [he]
    simpa using hl
  · have hl := Life.broken hb
    rw [he, ho]
    simpa using hl

/-- A run at rest that has not finished has told nothing or is amid its program. -/
theorem told_of_unfinished (h : s.Orderly policy work xs q ds) (hr : s.AtRest)
    (hf : s.isFinished = false) :
    Deed.publications ds = [] ∧ s.hasBegun = false ∨
      s.hasBegun = true ∧ ∃ body, Body policy false body ∧ Deed.publications ds = opening ++ body := by
  have hpub : Deed.publications ds = Deed.publications (Dialogue.deeds policy {} xs) := by
    obtain ⟨rest, hw⟩ := exists_work hf
    rw [h.publications, Transcript.closing_of_work hw]
    exact List.append_nil _
  have htold := h.accounts.told
  rw [← hpub] at htold
  obtain hfin | ⟨-, hu | ⟨hb, hread | hgate⟩⟩ := hr.cases
  · rw [hf] at hfin
    cases hfin
  · rw [h.fresh_of_unbegun hu] at htold
    exact .inl ⟨htold, hu⟩
  · rw [h.running_of_isReading hread] at htold
    exact .inr ⟨hb, htold⟩
  · rw [h.checkpoint_of_isAtGate hgate] at htold
    exact .inr ⟨hb, htold⟩

theorem begins_life (h : s.Orderly policy work xs q ds) (hr : s.AtRest) (hf : s.isFinished = false) :
    ∃ word, Life policy word ∧ .spawned :: Deed.publications ds <+: word := by
  obtain ⟨he, -⟩ | ⟨-, body, hb, he⟩ := h.told_of_unfinished hr hf
  · rw [he]
    exact ⟨_, .dropped, _, rfl⟩
  · have hl := Life.executed hb (.inr ⟨.inl rfl, rfl⟩)
    rw [he]
    exact ⟨_, hl, _, rfl⟩

theorem finished_mem (h : s.Orderly policy work xs q ds) :
    s.isFinished = true ↔ ∃ outcome, .finished outcome ∈ Deed.publications ds := by
  rw [h.publications, isFinished, closing]
  cases s.report? with
  | none =>
    refine iff_of_false (by simp) ?_
    rintro ⟨outcome, hm⟩
    rcases List.mem_append.mp hm with hm | hm
    · exact Dialogue.finished_not_mem _ _ outcome hm
    · cases hm
  | some r => exact iff_of_true rfl ⟨r.outcome, List.mem_append_right _ List.mem_cons_self⟩

/-- Only a run whose program was turned down tells so, and then it finishes. -/
theorem rejected_mem (h : s.Orderly policy work xs q ds) (hr : s.AtRest)
    (hm : .analysisFinished false ∈ Deed.publications ds) :
    Deed.publications ds = [.analysisFinished false, .finished .analysisFailed] := by
  have running : ∀ {failed body}, Body policy failed body →
      .analysisFinished false ∉ opening ++ body := by
    intro failed body hb he
    rcases List.mem_append.mp he with he | he
    · simp [opening] at he
    · obtain he | he | he | ⟨he, -⟩ := hb.mem he <;> cases he
  cases hrep : s.report? with
  | none =>
    obtain ⟨he, -⟩ | ⟨-, body, hb, he⟩ :=
      h.told_of_unfinished hr (by rw [isFinished, hrep]; rfl) <;> rw [he] at hm
    · cases hm
    · exact absurd hm (running hb)
  | some r =>
    rw [h.publications_of_report hrep] at hm ⊢
    obtain ⟨-, he, ho⟩ | ⟨he, ho⟩ | ⟨failed, body, hb, he, ho⟩ | ⟨body, hb, he, ho⟩ := h.ending hrep
    · simp [he] at hm
    · rw [he, ho]
      rfl
    · have := running hb
      simp_all
    · have := running hb
      simp_all

theorem panicked_iff (h : s.Orderly policy work xs q ds) (hr : s.report? = some r) :
    r.outcome = .panicked ↔
      .executionStarted ∈ Deed.publications ds ∧ .executionStopped ∉ Deed.publications ds := by
  rw [h.publications_of_report hr]
  obtain ⟨-, he, ho⟩ | ⟨he, ho⟩ | ⟨failed, body, hb, he, ho⟩ | ⟨body, hb, he, ho⟩ := h.ending hr
  · simp [he, ho]
  · simp [he, ho]
  · have hn : r.outcome ≠ .panicked := by
      obtain ⟨ho, -⟩ | ⟨ho | ho, -⟩ := ho <;> simp [ho]
    simp [he, hn]
  · have hn : .executionStopped ∉ body := by
      intro hm
      obtain h | h | h | ⟨h, -⟩ := hb.mem hm <;> cases h
    simp [he, ho, hn, opening]

theorem drops {b : Bridge} {outcome : RunOutcome} (h : s.Orderly policy work xs q ds) (hp : s.Poised)
    (hc : b.config.run.pause = policy)
    (htold : Deed.publications (ds ++ b.advanceDeeds s) = [.finished outcome]) :
    outcome = .cancelled ∧ s.cancelled = true := by
  obtain ⟨ys, q', h', -, -⟩ := h.advance hp hc
  obtain ⟨r, hr⟩ := Option.isSome_iff_exists.mp (h'.finished_mem.mpr ⟨outcome, by simp [htold]⟩)
  have hpub := h'.publications_of_report hr
  rw [htold] at hpub
  obtain ⟨rfl, he, ho⟩ | ⟨he, -⟩ | ⟨-, body, -, he, -⟩ | ⟨body, -, he, -⟩ := h'.ending hr
  · rw [he, ho] at hpub
    have hoff := h'.off rfl
    rw [Bridge.cancelled_advance] at hoff
    exact ⟨by simpa using hpub, hoff⟩
  all_goals
    rw [he] at hpub
    cases hpub

end Session.Orderly

namespace Bridge

theorem dropped_before_begun (i : Interpreter) (grants : Nat → Bool) (sink : Sink) (config : Config)
    (calls : List (Nat × Call)) :
    ∀ s ∈ ((create i.engine grants sink config).after calls).sessions, ∀ outcome,
      Deed.publications (Act.deedsOf s.id ((create i.engine grants sink config).history calls)) =
        [.finished outcome] →
      outcome = .cancelled ∧ ∃ before ticket call later, calls = before ++ (ticket, call) :: later ∧
        ∃ x ∈ (((create i.engine grants sink config).after before).apply ticket call).1.sessions,
          x.id = s.id ∧ x.cancelled = true ∧ x.hasBegun = false := by
  induction calls using List.reverseRecOn with
  | nil => exact fun s hs => by cases hs
  | append_singleton calls c ih =>
    obtain ⟨ticket, call⟩ := c
    intro s' hs' outcome htold
    have hset := orderly_runs i grants sink config calls
    obtain ⟨c, s₁, ht, hpoised, ⟨source, xs, q, -, h⟩, hfrom⟩ :=
      (lasting_orderly i config _).turn hs'
    rw [history_append, Act.deedsOf_append] at htold
    simp only [history, List.append_nil] at htold
    cases hf : s₁.isFinished with
    | true =>
      obtain ⟨t, htm, -, -, hn⟩ | hnew := hfrom
      · -- It had finished before this call.
        have hid : t.id = s'.id := hn.alike.id.symm.trans ht.id
        have htf : t.isFinished = true := hn.alike.finished.symm.trans hf
        obtain ⟨r, hr⟩ := Option.isSome_iff_exists.mp htf
        obtain ⟨-, hd, -⟩ := report_perform hset.sound htm hr ticket call
        rw [← hid, hd, List.append_nil] at htold
        obtain ⟨ho, before, ticket', call', later, rfl, x, hx, hxid, hxc⟩ := ih t htm outcome htold
        exact ⟨ho, before, ticket', call', later ++ [(ticket, call)], by simp, x, hx,
          hxid.trans hid, hxc⟩
      · obtain ⟨source, told, -, rfl⟩ := mem_newcomers hnew
        unfold firstPhase at hf
        split at hf <;> cases hf
    | false =>
      have hconfig : c.config.run.pause = config.run.pause := by rw [ht.config, hset.config]
      rw [ht.deeds, ← ht.id, ← List.append_assoc, ← Act.deedsOf_append] at htold
      obtain ⟨ho, hcancelled⟩ := h.drops hpoised hconfig htold
      refine ⟨ho, calls, ticket, call, [], rfl, s₁, ht.applied, ht.id, hcancelled, ?_⟩
      obtain ⟨t, htm, htr, ⟨source', xs', q₀, -, h₀⟩, hn⟩ | hnew := hfrom
      · have htf : t.isFinished = false := hn.alike.finished.symm.trans hf
        obtain ⟨-, hu⟩ | ⟨-, body, -, hbody⟩ := h₀.told_of_unfinished htr htf
        · rw [Session.hasBegun, hn.alike.behind]
          exact hu
        · rw [Act.deedsOf_append, List.append_assoc, Deed.publications_append, hn.alike.id,
            hbody] at htold
          cases htold
      · obtain ⟨source, told, -, rfl⟩ := mem_newcomers hnew
        cases hcancelled

theorem eventsOf_seen (i : Interpreter) (grants : Nat → Bool) (sink : Sink) (config : Config)
    {early : List (Nat × Call)} {ticket u : Nat} {calls : List (Nat × Call)}
    (hu : (((create i.engine grants sink config).after early).perform ticket .subscribe).2.reply =
      some (.subscription u))
    (hl : ∀ c ∈ calls, c.2 ≠ .leave u) {id : Nat}
    (hid : ((create i.engine grants sink config).after early).nextId ≤ id) :
    Envelope.eventsOf id
        ((((create i.engine grants sink config).after early).perform ticket .subscribe).1.seen u calls) =
      Act.eventsOf id ((create i.engine grants sink config).history
        (early ++ (ticket, .subscribe) :: calls)) := by
  obtain ⟨hreply, hhears⟩ := hears_subscribed i.engine grants sink config early ticket
  obtain rfl : u = ((create i.engine grants sink config).after early).hub.nextId := by
    rw [hreply] at hu
    cases hu
    rfl
  rw [seen_eq hhears hl, history_append, Act.eventsOf_append,
    (eventsOf_run i grants sink config early).1 id hid, history, ← Act.published_append]
  rfl

/-- What a subscriber sees of a run that is started later is a life of a run, or the beginning of one:
the whole of it exactly if the run has finished. The closing events are missing exactly if the engine
broke off; a program that was turned down ends the run, and a run of which only the end is told was
called off before it began. -/
theorem lives_are_told (i : Interpreter) (grants : Nat → Bool) (sink : Sink) (config : Config)
    (early : List (Nat × Call)) (ticket u : Nat) (calls : List (Nat × Call))
    (hu : (((create i.engine grants sink config).after early).perform ticket .subscribe).2.reply =
      some (.subscription u))
    (hl : ∀ c ∈ calls, c.2 ≠ .leave u) :
    let b₀ := (create i.engine grants sink config).after early
    let b := (b₀.perform ticket .subscribe).1
    let all := early ++ (ticket, .subscribe) :: calls
    ∀ s ∈ (b.after calls).sessions, b₀.nextId ≤ s.id →
      let told := SessionEvent.ofRun config.run.pause (Envelope.eventsOf s.id (b.seen u calls))
      (∃ word, Life config.run.pause word ∧ told <+: word) ∧
      (s.isFinished = true ↔ ∃ outcome, .finished outcome ∈ told) ∧
      (∀ r, s.report? = some r →
        Life config.run.pause told ∧
        (∃ es, told = es ++ [.finished r.outcome] ∧ ∀ outcome, .finished outcome ∉ es) ∧
        ∃ source xs f, (s.id, source) ∈ (create i.engine grants sink config).programs all ∧
          i.engine.Finishes config.run.debug source xs f ∧
          told = .spawned :: Deed.publications (Dialogue.deeds config.run.pause {} xs) ++
            [.finished r.outcome] ∧
          (f.isPanic = true ↔ .executionStarted ∈ told ∧ .executionStopped ∉ told)) ∧
      (.analysisFinished false ∈ told →
        told = [.spawned, .analysisFinished false, .finished .analysisFailed]) ∧
      ∀ outcome, told = [.spawned, .finished outcome] →
        outcome = .cancelled ∧ ∃ before ticket' call later, all = before ++ (ticket', call) :: later ∧
          ∃ x ∈ (((create i.engine grants sink config).after before).apply ticket' call).1.sessions,
            x.id = s.id ∧ x.cancelled = true ∧ x.hasBegun = false := by
  intro b₀ b all s hs hid told
  have hmem : s ∈ ((create i.engine grants sink config).after all).sessions := by
    rw [after_append]
    exact hs
  have htold : told = .spawned :: Deed.publications
      (Act.deedsOf s.id ((create i.engine grants sink config).history all)) := by
    rw [← (eventsOf_run i grants sink config all).2 s hmem, ← eventsOf_seen i grants sink config hu hl hid]
  obtain ⟨hrest, source, xs, q, hgiven, h⟩ := (orderly_runs i grants sink config all).runs s hmem
  have hdropped := dropped_before_begun i grants sink config all s hmem
  rw [htold]
  refine ⟨?_, ?_, fun r hr => ⟨h.life hr, ?_, ?_⟩, fun hm => ?_, fun outcome ho => ?_⟩
  · cases hf : s.isFinished with
    | true =>
      obtain ⟨r, hr⟩ := Option.isSome_iff_exists.mp hf
      exact ⟨_, h.life hr, List.prefix_refl _⟩
    | false => exact h.begins_life hrest hf
  · rw [h.finished_mem]
    simp
  · rw [h.publications_of_report hr]
    refine ⟨.spawned :: Deed.publications (Dialogue.deeds config.run.pause {} xs), rfl,
      fun outcome => ?_⟩
    simpa using Dialogue.finished_not_mem _ xs outcome
  · obtain ⟨f, hfin, -, hv⟩ := h.exists_finish hr
    refine ⟨source, xs, f, hgiven, hfin, by rw [h.publications_of_report hr]; rfl, ?_⟩
    rw [Engine.Finish.isPanic_iff hv, h.panicked_iff hr]
    simp
  · rw [h.rejected_mem hrest (by simpa using hm)]
  · exact hdropped outcome (by simpa using ho)

/-- The life of a script that pauses and then reads a line. -/
theorem lives_are_told_pause_read :
    let b₀ := create Interpreter.lines.engine (fun _ => true) (.capture "") {}
    let b := (b₀.perform 0 .subscribe).1
    let calls : List (Nat × Call) := [(1, .start "pause\nread a" true), (2, .submit "x")]
    let word : List SessionEvent := [.spawned, .analysisFinished true, .executionStarted,
      .stackPushed 1 "global", .executionPaused (some 1) false, .resumed, .readExecuted 2,
      .stackPopped 0, .executionStopped, .finished .completed]
    (b₀.perform 0 .subscribe).2.reply = some (.subscription 0) ∧ (∀ c ∈ calls, c.2 ≠ .leave 0) ∧
    ∃ s ∈ (b.after calls).sessions, b₀.nextId ≤ s.id ∧
      Envelope.eventsOf s.id (b.seen 0 calls) = word ∧ Life .autoResume word := by
  intro b₀ b calls word
  have hl : ∀ c ∈ calls, c.2 ≠ .leave 0 := by decide
  have hseen : (b.after calls).sessions.any (fun s => b₀.nextId ≤ s.id ∧
      s.report? = some ⟨1, .completed, 1, 1, 1⟩ ∧
      Envelope.eventsOf s.id (b.seen 0 calls) = word) = true := by decide +kernel
  obtain ⟨s, hs, h⟩ := List.any_eq_true.mp hseen
  obtain ⟨hid, hr, hword⟩ := of_decide_eq_true h
  have hlife : Life .autoResume (Envelope.eventsOf s.id (b.seen 0 calls)) :=
    ((lives_are_told .lines (fun _ => true) (.capture "") {} [] 0 0 calls rfl hl s hs hid).2.2.1 _ hr).1
  rw [hword] at hlife
  exact ⟨rfl, hl, s, hs, hid, hword, hlife⟩

/-- The checkpoints that a run told of are those that it was let through and one that it was not. -/
theorem pauses_eq (i : Interpreter) (grants : Nat → Bool) (sink : Sink) (config : Config)
    (calls : List (Nat × Call))
    {s : Session} (hs : s ∈ ((create i.engine grants sink config).after calls).sessions) :
    let acts := (create i.engine grants sink config).history calls
    (Act.eventsOf s.id acts).countP SessionEvent.isPause =
      (Deed.waits (Act.deedsOf s.id acts)).count .resumed +
        (if s.isPaused = true ∨ (Deed.waits (Act.deedsOf s.id acts)).getLast? = some .aborted
          then 1 else 0) := by
  intro acts
  obtain ⟨hrest, source, xs, q, -, h⟩ := (orderly_runs i grants sink config calls).runs s hs
  have hpauses := h.accounts.pauses
  rw [h.unpassed_eq hrest, Deed.owed, ← h.waits, Deed.resumes_eq, ← h.waits] at hpauses
  rw [countP_eventsOf (steps_history _ calls) h.toTranscript rfl rfl fun _ => rfl, hpauses,
    Nat.add_assoc]
  congr 1
  cases hp : s.isPaused with
  | false => simp [acts]
  | true =>
    have hgate : s.isAtGate = true := hrest.waiting.symm.trans hp
    have hlast := h.accounts.waits (by rw [h.checkpoint_of_isAtGate hgate]; rfl)
    rw [← h.waits] at hlast
    simp [acts, hlast]

/-- Where pauses are resumed by themselves each of them is followed by the news of it. -/
theorem count_resumed (i : Interpreter) (grants : Nat → Bool) (sink : Sink) {config : Config}
    (hauto : config.run.pause = .autoResume) (calls : List (Nat × Call)) {s : Session}
    (hs : s ∈ ((create i.engine grants sink config).after calls).sessions) :
    let acts := (create i.engine grants sink config).history calls
    Act.eventsOf s.id acts = .spawned :: Deed.publications (Act.deedsOf s.id acts) ∧
      (Act.eventsOf s.id acts).count .resumed =
        (Act.eventsOf s.id acts).countP SessionEvent.isPause := by
  intro acts
  obtain ⟨-, source, xs, q, -, h⟩ := (orderly_runs i grants sink config calls).runs s hs
  have hevents : Act.eventsOf s.id acts =
      .spawned :: Deed.publications (Act.deedsOf s.id acts) := by
    have he := (eventsOf_run i grants sink config calls).2 s hs
    rwa [hauto] at he
  refine ⟨hevents, ?_⟩
  have hclosing : (Deed.publications s.closing).count .resumed = 0 := by
    unfold Session.closing
    split <;> rfl
  have hpub := h.publications
  have hcount := countP_eventsOf (steps_history _ calls) h.toTranscript (p := SessionEvent.isPause) rfl
    rfl fun _ => rfl
  rw [hauto] at hpub hcount
  rw [hcount, hevents, hpub, Dialogue.pauses_deeds {} xs]
  simp [hclosing]

/-- At any time a run has passed as many checkpoints as it announced, but for one if it is held up there
or the last one was aborted, and both are counted, in 32 bits. Where pauses are resumed by themselves
there is no such one: no run is held up, and every checkpoint is followed by the news that it was passed,
none of which comes from the host. -/
theorem pauses_are_accounted_for (i : Interpreter) (grants : Nat → Bool) (sink : Sink)
    (config : Config) (calls : List (Nat × Call)) :
    let b := (create i.engine grants sink config).after calls
    let acts := (create i.engine grants sink config).history calls
    (∀ s ∈ b.sessions,
      let pauses := (Act.eventsOf s.id acts).countP SessionEvent.isPause
      let resumes := (Deed.waits (Act.deedsOf s.id acts)).count .resumed
      let held := if s.isPaused = true ∨
        (Deed.waits (Act.deedsOf s.id acts)).getLast? = some .aborted then 1 else 0
      (pauses = resumes + held ∧ s.tally.pauses = .ofNat pauses ∧
        s.gate.resumed = .ofNat resumes ∧ s.tally.pauses = s.gate.resumed + .ofNat held) ∧
      ∀ r, s.report? = some r → r.pauses = s.tally.pauses ∧ r.resumes = s.gate.resumed) ∧
    (config.run.pause = .autoResume → b.isPaused = false ∧ ∀ s ∈ b.sessions,
      s.isPaused = false ∧ .aborted ∉ Deed.waits (Act.deedsOf s.id acts) ∧
      s.gate.resumed = s.tally.pauses ∧
      (let pauses := (Act.eventsOf s.id acts).countP SessionEvent.isPause
      (Deed.waits (Act.deedsOf s.id acts)).count .resumed = pauses ∧
        (Act.eventsOf s.id acts).count .resumed = pauses) ∧
      Act.eventsOf s.id acts = .spawned :: Deed.publications (Act.deedsOf s.id acts)) := by
  intro b acts
  refine ⟨fun s hs => ?_, fun hauto => ⟨?_, fun s hs => ?_⟩⟩
  · intro pauses resumes held
    obtain ⟨-, source, xs, q, -, h⟩ := (orderly_runs i grants sink config calls).runs s hs
    have hcount : pauses = resumes + held := pauses_eq i grants sink config calls hs
    have hpauses : s.tally.pauses = .ofNat pauses :=
      (tally_eq (steps_history _ calls) h.toTranscript).1
    have hresumed : s.gate.resumed = .ofNat resumes := resumed_eq h.toTranscript
    refine ⟨⟨hcount, hpauses, hresumed, ?_⟩, fun r hr => ?_⟩
    · rw [hpauses, hresumed, hcount, UInt32.ofNat_add]
    · obtain ⟨hrep, -⟩ := h.report hr
      rw [hrep]
      exact ⟨rfl, rfl⟩
  · rw [isPaused, List.any_eq_false]
    intro s hs
    rw [isPaused_eq_false i grants sink hauto calls s (mem_active.mp hs).1]
    simp
  · obtain ⟨-, source, xs, q, -, h⟩ := (orderly_runs i grants sink config calls).runs s hs
    have hpaused := isPaused_eq_false i grants sink hauto calls s hs
    have hnone : .aborted ∉ Deed.waits (Act.deedsOf s.id acts) := by
      rw [h.waits]
      exact Dialogue.waits_deeds _ _ (h.passed hauto)
    have hlast : (Deed.waits (Act.deedsOf s.id acts)).getLast? ≠ some .aborted :=
      fun hl => hnone (List.mem_of_getLast? hl)
    have haccount : (Act.eventsOf s.id acts).countP SessionEvent.isPause =
        (Deed.waits (Act.deedsOf s.id acts)).count .resumed := by
      rw [pauses_eq i grants sink config calls hs, if_neg (not_or.mpr ⟨by simp [hpaused], hlast⟩),
        Nat.add_zero]
    have hpauses : s.gate.resumed = s.tally.pauses := by
      rw [resumed_eq h.toTranscript, (tally_eq (steps_history _ calls) h.toTranscript).1, haccount]
    obtain ⟨hevents, hcount⟩ := count_resumed i grants sink hauto calls hs
    exact ⟨hpaused, hnone, hpauses, ⟨haccount.symm, hcount⟩, hevents⟩

/-- A script that is let through its first checkpoint and called off at the second. -/
theorem pauses_are_accounted_for_second_aborted :
    let config : Config := { run := { pause := .host } }
    let calls : List (Nat × Call) := [(0, .start "pause\npause" true), (1, .resume), (2, .cancel 1)]
    let b := (create Interpreter.lines.engine (fun _ => true) (.capture "") config).after calls
    let acts := (create Interpreter.lines.engine (fun _ => true) (.capture "") config).history calls
    ∃ s ∈ b.sessions, Deed.waits (Act.deedsOf s.id acts) = [.resumed, .aborted] ∧
      s.tally.pauses = 2 ∧ s.tally.pauses = s.gate.resumed + 1 := by
  intro config calls b acts
  have hrun : b.sessions.any (fun s => Deed.waits (Act.deedsOf s.id acts) = [.resumed, .aborted] ∧
      s.tally.pauses = 2) = true := by decide +kernel
  obtain ⟨s, hs, h⟩ := List.any_eq_true.mp hrun
  obtain ⟨hwaits, hpauses⟩ := of_decide_eq_true h
  refine ⟨s, hs, hwaits, hpauses, ?_⟩
  obtain ⟨⟨-, -, -, haccount⟩, -⟩ :=
    (pauses_are_accounted_for .lines (fun _ => true) (.capture "") config calls).1 s hs
  rw [haccount, if_pos (.inr (by rw [hwaits]; rfl))]
  rfl

end Bridge

end Conduit

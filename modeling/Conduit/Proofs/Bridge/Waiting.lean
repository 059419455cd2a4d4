import Conduit.Engine.Scripted
import Conduit.Proofs.Bridge.Report
import Conduit.Proofs.Bridge.Starting
import Mathlib.Data.List.TakeWhile

/-!
The runs in flight, and calls that wait until they have finished. Which runs are in flight can be told
from what was published; a call that waits for them is answered in the first step that ends with all of
those finished that were in flight when it was made, whatever else was started since.
-/
namespace Conduit

namespace Act

def started (acts : List Act) : List Nat :=
  (published acts).filterMap fun e => if e.event = .spawned then some e.session else none

def finished (acts : List Act) : List Nat :=
  (published acts).filterMap fun e => if e.event.isEnd then some e.session else none

variable {id : Nat} {acts : List Act}

@[simp] theorem started_append (acts more : List Act) :
    started (acts ++ more) = started acts ++ started more := by
  simp [started]

theorem started_run {ds : List Deed} (h : .spawned ∉ Deed.publications ds) :
    started (ds.map (run id)) = [] := by
  rw [started, published_run]
  refine List.filterMap_eq_nil_iff.mpr fun e he => ?_
  obtain ⟨event, hevent, rfl⟩ := List.mem_map.mp he
  exact if_neg fun heq : event = .spawned => h (heq ▸ hevent)

theorem mem_finished : id ∈ finished acts ↔ (eventsOf id acts).filter SessionEvent.isEnd ≠ [] := by
  rw [ne_eq, List.filter_eq_nil_iff]
  simp only [finished, eventsOf, Envelope.eventsOf, List.mem_filterMap, not_forall, not_not]
  constructor
  · rintro ⟨e, he, hid⟩
    split at hid
    · exact ⟨e.event, ⟨e, he, if_pos (Option.some.inj hid)⟩, ‹_›⟩
    · cases hid
  · rintro ⟨event, ⟨e, he, hid⟩, hend⟩
    split at hid
    · obtain rfl := Option.some.inj hid
      exact ⟨e, he, by simp [*]⟩
    · cases hid

end Act

namespace Bridge
variable {b : Bridge} {s : Session} {ids : List Nat} {ticket : Nat}

/-! What was published of the runs -/

theorem spawned_not_mem_carryOnDeeds (b : Bridge) (s : Session) (work : Behaviour Ending) :
    .spawned ∉ Deed.publications (b.carryOnDeeds s work) := by
  rw [carryOnDeeds_eq, Behaviour.deeds_dialogue (attends_worker b s.id), Deed.publications_append,
    List.mem_append]
  rintro (h | h)
  · obtain ⟨signal, t, -, hs⟩ := Dialogue.mem_publications h
    cases signal <;> simp [Signal.events] at hs
  · unfold Session.closing at h
    split at h <;> simp [Deed.publications, Deed.published?] at h

theorem spawned_not_mem_advanceDeeds (b : Bridge) (s : Session) :
    .spawned ∉ Deed.publications (b.advanceDeeds s) := by
  unfold advanceDeeds
  split
  · simp [Deed.publications]
  · simp [Deed.publications]
  · exact spawned_not_mem_carryOnDeeds _ _ _
  · split
    · rw [Deed.publications_append]
      simpa using spawned_not_mem_carryOnDeeds _ _ _
    · simp [Deed.publications]
  · split
    · exact spawned_not_mem_carryOnDeeds _ _ _
    · simp [Deed.publications]

theorem started_settleActs (rest : List Session) (b : Bridge) : Act.started (b.settleActs rest) = [] := by
  induction rest generalizing b with
  | nil => rfl
  | cons s rest ih =>
    rw [settleActs, Act.started_append, Act.started_run (spawned_not_mem_advanceDeeds b s), ih]
    rfl

theorem started_performActs (b : Bridge) (ticket : Nat) (call : Call) :
    Act.started (b.performActs ticket call) = (b.newcomers call).map Session.id := by
  rw [performActs, Act.started_append, settledActs, started_settleActs, List.append_nil, Act.started,
    published_applyActs]
  cases call with
  | start source told =>
    simp only [announcements, newcomers, newRuns]
    cases b.canSpawn <;> rfl
  | resume => simp [announcements, newcomers]
  | _ => rfl

theorem ids_history (b : Bridge) (calls : List (Nat × Call)) :
    (b.after calls).sessions.map Session.id =
      b.sessions.map Session.id ++ Act.started (b.history calls) := by
  induction calls generalizing b with
  | nil => exact (List.append_nil _).symm
  | cons c calls ih =>
    rw [after, ih, history, Act.started_append, started_performActs, ids_perform, List.append_assoc]

theorem ids_created (e : Engine σ) (grants : Nat → Bool) (sink : Sink) (config : Config)
    (calls : List (Nat × Call)) :
    ((create e grants sink config).after calls).sessions.map Session.id =
      Act.started ((create e grants sink config).history calls) :=
  ids_history _ _

theorem sound_after (e : Engine σ) (grants : Nat → Bool) (sink : Sink) (config : Config)
    (calls : List (Nat × Call)) :
    ((create e grants sink config).after calls).Sound :=
  ((sound_create e grants sink config).accounts (steps_history _ calls)).sound

theorem mem_finished_iff (e : Engine σ) (grants : Nat → Bool) (sink : Sink) (config : Config)
    (calls : List (Nat × Call)) (hs : s ∈ ((create e grants sink config).after calls).sessions) :
    s.id ∈ Act.finished ((create e grants sink config).history calls) ↔ s.isFinished = true := by
  rw [Act.mem_finished]
  cases hr : s.report? with
  | some r =>
    obtain ⟨-, -, -, -, hend, -⟩ := report_counts e grants sink config calls hs hr
    simp [hend, Session.isFinished, hr]
  | none =>
    obtain ⟨-, source, xs, -, ht⟩ := (transcripts e grants sink config calls).runs s hs
    have hclosing : s.closing = [] := by rw [Session.closing, hr]
    rw [filter_eventsOf (steps_history _ calls) s.id rfl rfl, ht.publications, hclosing]
    have hnone : (Deed.publications (Dialogue.deeds config.run.pause {} xs)).filter
        SessionEvent.isEnd = [] := by
      refine List.filter_eq_nil_iff.mpr fun event hevent => ?_
      cases event with
      | finished outcome => exact absurd hevent (Dialogue.finished_not_mem _ _ outcome)
      | _ => simp [SessionEvent.isEnd]
    simp [Deed.publications, Session.isFinished, hr] at hnone ⊢
    exact hnone

/-- The runs in flight are those that were spawned and have not finished, in that order. -/
theorem active_eq (e : Engine σ) (grants : Nat → Bool) (sink : Sink) (config : Config)
    (calls : List (Nat × Call)) :
    let acts := (create e grants sink config).history calls
    ((create e grants sink config).after calls).active.map Session.id =
      (Act.started acts).filter fun id => id ∉ Act.finished acts := by
  intro acts
  rw [← ids_created, List.filter_map, active]
  congr 1
  refine List.filter_congr fun s hs => ?_
  have hfinished := mem_finished_iff e grants sink config calls hs
  cases hf : s.isFinished <;> simp [acts, hfinished, hf]

theorem hasFinished_iff (hb : b.Sound) (hs : s ∈ b.sessions) :
    b.hasFinished s.id = true ↔ s.isFinished = true := by
  rw [hasFinished, hb.find?_eq hs, Option.any_some]

theorem hasFinished_created (e : Engine σ) (grants : Nat → Bool) (sink : Sink) (config : Config)
    (calls : List (Nat × Call))
    {id : Nat} (hid : id ∈ Act.started ((create e grants sink config).history calls)) :
    ((create e grants sink config).after calls).hasFinished id = true ↔
      id ∈ Act.finished ((create e grants sink config).history calls) := by
  rw [← ids_created] at hid
  obtain ⟨s, hs, rfl⟩ := List.mem_map.mp hid
  rw [hasFinished_iff (sound_after e grants sink config calls) hs, mem_finished_iff e grants sink
    config calls hs]

theorem hasFinished_after (hb : b.Sound) (calls : List (Nat × Call)) {id : Nat}
    (h : b.hasFinished id = true) : (b.after calls).hasFinished id = true := by
  rw [hasFinished] at h
  cases hfind : b.find? id with
  | none =>
    rw [hfind] at h
    cases h
  | some s =>
    rw [hfind] at h
    have hid : s.id = id := by simpa using List.find?_some hfind
    obtain ⟨r, hr⟩ := Option.isSome_iff_exists.mp h
    obtain ⟨⟨s', hs', hid', hr'⟩, -, -⟩ :=
      report_after hb (List.mem_of_find?_eq_some hfind) hr calls
    rw [← hid, ← hid', hasFinished_iff (hb.accounts (steps_history b calls)).sound hs',
      Session.isFinished, hr']
    rfl

theorem all_hasFinished_after (hb : b.Sound) (calls : List (Nat × Call))
    (h : ids.all b.hasFinished = true) : ids.all (b.after calls).hasFinished = true :=
  List.all_eq_true.mpr fun id hid => hasFinished_after hb calls (List.all_eq_true.mp h id hid)

/-! Calls that wait -/

theorem waits_await (b : Bridge) (ticket : Nat) (w : Wait) :
    (b.await ticket w).1.waits =
      b.waits ++ if (b.waitReply? w).isNone then [(ticket, w)] else [] := by
  unfold await
  cases b.waitReply? w <;> simp

theorem waits_trySubmit {line : String} {b' : Bridge} (h : b.trySubmit line = some b') :
    b'.waits = b.waits := by
  obtain ⟨-, ⟨-, rfl⟩ | ⟨r, rs, -, rfl⟩⟩ := trySubmit_eq_some h <;> rfl

theorem waits_submit (b : Bridge) (ticket : Nat) (line : String) :
    (b.submit ticket line).1.waits = b.waits := by
  unfold submit
  cases h : b.trySubmit line with
  | none => cases b.channel.whenFull <;> rfl
  | some b' => exact waits_trySubmit h

theorem waits_resumeAll (paused : List Session) (b : Bridge) :
    (paused.foldl (fun b s => (b.resumeSession s.id).publish s.id .resumed) b).waits = b.waits := by
  induction paused generalizing b with
  | nil => rfl
  | cons s paused ih => exact ih _

theorem waits_apply (b : Bridge) (ticket : Nat) (call : Call) :
    ∃ kept, (b.apply ticket call).1.waits = b.waits ++ kept ∧ ∀ p ∈ kept, p.1 = ticket := by
  have same {c : Bridge} (h : c.waits = b.waits) :
      ∃ kept, c.waits = b.waits ++ kept ∧ ∀ p ∈ kept, p.1 = ticket := ⟨[], by simpa using h, by simp⟩
  cases call with
  | waitIdle | join id =>
    refine ⟨_, waits_await b ticket _, fun p hp => ?_⟩
    split at hp
    · rw [List.mem_singleton.mp hp]
    · cases hp
  | start source told =>
    obtain ⟨journal, h⟩ := apply_start_eq b ticket source told
    obtain ⟨channel, sessions, journal', admitted, hway⟩ := makeWay_eq b b.nextId
    exact same (by simp only [h, hway])
  | submit line => exact same (waits_submit b ticket line)
  | trySubmit line =>
    refine same ?_
    simp only [apply]
    cases h : b.trySubmit line with
    | none => rfl
    | some b' => exact waits_trySubmit h
  | resume =>
    refine same ?_
    simp only [apply, resume]
    cases b.active.filter Session.isPaused with
    | nil => rfl
    | cons s paused => exact waits_resumeAll (s :: paused) b
  | stop =>
    refine same ?_
    simp only [apply, stop]
    cases b.active with
    | nil => rfl
    | cons s running =>
      obtain ⟨channel, sessions, journal, h, -⟩ := cancelAll_eq (s :: running)
        (fun s => "Stopping session " ++ Decimal.natText s.id) b
      simp only [h]
  | cancel id =>
    refine same ?_
    simp only [apply]
    obtain h | ⟨journal, h⟩ := cancelSession_cases (b.note .host .info .control
      ("Cancelling session " ++ Decimal.natText id)) id <;> rw [h] <;> rfl
  | clear =>
    refine same ?_
    obtain ⟨journal, admitted, h⟩ := clearInput_eq b .host
    simp only [apply, h]
  | tryRead =>
    refine same ?_
    simp only [apply, tryRead]
    cases b.channel.take? <;> rfl
  | resumeSession _ | print _ | subscribe | leave _ | receive _ => exact same rfl

theorem waits_settle (rest : List Session) (b : Bridge) :
    (rest.foldl (advanceAndKeep fun _ => false) b).waits = b.waits := by
  induction rest generalizing b with
  | nil => rfl
  | cons s rest ih =>
    rw [List.foldl_cons, ih]
    change (b.advance (fun _ => false) s).1.waits = b.waits
    obtain ⟨h, -⟩ | ⟨h, -⟩ := advance_cases b s
    · rw [h]
    · rw [h.frame]

theorem waitReply?_eq_idle {w : Wait} :
    b.waitReply? w = some .idle ↔ ∃ ids, w = .idle ids ∧ ids.all b.hasFinished = true := by
  cases w with
  | finish id => cases hr : (b.find? id).bind Session.report? <;> simp [waitReply?, hr]
  | idle ids => simp [waitReply?]

theorem collect_waits (b : Bridge) :
    b.collect.1.waits = b.waits.filter (fun p => (b.waitReply? p.2).isNone) ∧
    ∀ t, (t, .idle) ∈ b.collect.2 ↔ ∃ w, (t, w) ∈ b.waits ∧ b.waitReply? w = some .idle := by
  refine ⟨rfl, fun t => ?_⟩
  simp only [collect, List.mem_append, List.mem_map, List.mem_filterMap]
  constructor
  · rintro (⟨_, -, h⟩ | ⟨⟨t', w⟩, hw, h⟩)
    · cases h
    · obtain ⟨r, hr, h⟩ := Option.map_eq_some_iff.mp h
      cases h
      exact ⟨w, hw, hr⟩
  · rintro ⟨w, hw, hr⟩
    exact .inr ⟨(t, w), hw, by rw [hr]; rfl⟩

theorem perform_waits (b : Bridge) (ticket : Nat) (call : Call) :
    let b' := (b.perform ticket call).1
    (∀ p, p ∈ b'.waits ↔ p ∈ (b.apply ticket call).1.waits ∧ b'.waitReply? p.2 = none) ∧
    ∀ t, (t, .idle) ∈ (b.perform ticket call).2.completed ↔
      ∃ w, (t, w) ∈ (b.apply ticket call).1.waits ∧ b'.waitReply? w = some .idle := by
  intro b'
  let c := (b.apply ticket call).1.settle fun _ => false
  have hsettled : c.waits = (b.apply ticket call).1.waits := waits_settle _ _
  have hreply : c.waitReply? = b'.waitReply? := funext fun w => by cases w <;> rfl
  obtain ⟨hwaits, hcompleted⟩ := c.collect_waits
  rw [hsettled, hreply] at hwaits
  rw [hsettled, hreply] at hcompleted
  refine ⟨fun p => ?_, hcompleted⟩
  change p ∈ c.collect.1.waits ↔ _
  rw [hwaits, List.mem_filter, Option.isNone_iff_eq_none]

def Awaits (b : Bridge) (ticket : Nat) (ids : List Nat) : Prop :=
  ∀ w, (ticket, w) ∈ b.waits ↔ w = .idle ids ∧ ids.all b.hasFinished = false

theorem Awaits.perform {other : Nat} {call : Call} (h : b.Awaits ticket ids) (hb : b.Sound)
    (hother : other ≠ ticket) :
    (b.perform other call).1.Awaits ticket ids ∧
    ((ticket, .idle) ∈ (b.perform other call).2.completed ↔
      ids.all (b.perform other call).1.hasFinished = true ∧ ids.all b.hasFinished = false) := by
  have hstays : ids.all b.hasFinished = true → ids.all (b.perform other call).1.hasFinished = true :=
    all_hasFinished_after hb [(other, call)]
  obtain ⟨kept, happly, hkept⟩ := waits_apply b other call
  obtain ⟨hwaits, hcompleted⟩ := perform_waits b other call
  -- Whatever is kept now is kept under another ticket.
  have hmem : ∀ w, (ticket, w) ∈ (b.apply other call).1.waits ↔
      w = .idle ids ∧ ids.all b.hasFinished = false := by
    intro w
    rw [happly, List.mem_append, h w]
    exact or_iff_left fun hw => hother (hkept _ hw).symm
  refine ⟨fun w => ?_, ?_⟩
  · rw [hwaits, hmem]
    constructor
    · rintro ⟨⟨rfl, -⟩, hreply⟩
      exact ⟨rfl, by simpa [waitReply?] using hreply⟩
    · rintro ⟨rfl, hall⟩
      exact ⟨⟨rfl, Bool.eq_false_iff.mpr fun h => Bool.eq_false_iff.mp hall (hstays h)⟩,
        by simp [waitReply?, hall]⟩
  · rw [hcompleted]
    simp only [hmem, waitReply?_eq_idle]
    constructor
    · rintro ⟨_, ⟨rfl, hnot⟩, _, heq, hall⟩
      obtain rfl := Wait.idle.inj heq
      exact ⟨hall, hnot⟩
    · rintro ⟨hall, hnot⟩
      exact ⟨_, ⟨rfl, hnot⟩, _, rfl, hall⟩

theorem Awaits.after {calls : List (Nat × Call)} (h : b.Awaits ticket ids) (hb : b.Sound)
    (hcalls : ∀ c ∈ calls, c.1 ≠ ticket) : (b.after calls).Awaits ticket ids := by
  induction calls generalizing b with
  | nil => exact h
  | cons c calls ih =>
    obtain ⟨hc, hcalls⟩ := List.forall_mem_cons.mp hcalls
    exact ih (h.perform hb hc).1 (hb.accounts (steps_perform b c.1 c.2)).sound hcalls

/-- A call that is to wait for some runs is answered at once or waits for them. -/
theorem awaits_called (hb : b.Sound) (hfresh : ∀ p ∈ b.waits, p.1 ≠ ticket) :
    let ids := b.active.map Session.id
    let answer := (b.perform ticket .waitIdle).2
    (b.perform ticket .waitIdle).1.Awaits ticket ids ∧
    (answer.reply = some .idle ∨ (ticket, .idle) ∈ answer.completed ↔
      ids.all (b.perform ticket .waitIdle).1.hasFinished = true) := by
  intro ids answer
  have hstays : ids.all b.hasFinished = true →
      ids.all (b.perform ticket .waitIdle).1.hasFinished = true :=
    all_hasFinished_after hb [(ticket, .waitIdle)]
  obtain ⟨hwaits, hcompleted⟩ := perform_waits b ticket .waitIdle
  have hreply : answer.reply = b.waitReply? (.idle ids) := by
    change (b.await ticket (.idle ids)).2 = _
    unfold await
    cases b.waitReply? (.idle ids) <;> rfl
  have hkept : (b.apply ticket .waitIdle).1.waits = _ := waits_await b ticket (.idle ids)
  cases hall : ids.all b.hasFinished with
  | true =>
    have hgot : b.waitReply? (.idle ids) = some .idle := by simp [waitReply?, hall]
    rw [hgot] at hreply hkept
    have hnone : ∀ w, (ticket, w) ∉ (b.apply ticket .waitIdle).1.waits :=
      fun w hw => hfresh _ (by simpa [hkept] using hw) rfl
    refine ⟨fun w => ⟨fun h => absurd ((hwaits _).mp h).1 (hnone w), fun h => ?_⟩,
      fun _ => hstays hall, fun _ => .inl hreply⟩
    exact absurd (hstays hall) (Bool.eq_false_iff.mp h.2)
  | false =>
    have hgot : b.waitReply? (.idle ids) = none := by simp [waitReply?, hall]
    rw [hgot] at hreply hkept
    have hmem : ∀ w, (ticket, w) ∈ (b.apply ticket .waitIdle).1.waits ↔ w = .idle ids := by
      intro w
      have hnone : (ticket, w) ∉ b.waits := fun hw => hfresh _ hw rfl
      simp [hkept, hnone]
    refine ⟨fun w => ?_, ?_⟩
    · rw [hwaits, hmem]
      refine and_congr_right fun hw => ?_
      subst hw
      simp [waitReply?]
    · rw [hreply, hcompleted]
      simp [hmem, waitReply?]

theorem waits_after {tickets : List Nat} (hb : ∀ p ∈ b.waits, p.1 ∈ tickets)
    (calls : List (Nat × Call)) :
    ∀ p ∈ (b.after calls).waits, p.1 ∈ tickets ++ calls.map Prod.fst := by
  induction calls generalizing b tickets with
  | nil => simpa [after] using hb
  | cons c calls ih =>
    rw [List.map_cons, List.append_cons]
    refine ih fun p hp => ?_
    obtain ⟨kept, happly, hkept⟩ := waits_apply b c.1 c.2
    have hp := ((perform_waits b c.1 c.2).1 p).mp hp
    rw [happly, List.mem_append] at hp
    rcases hp.1 with hp | hp
    · exact List.mem_append_left _ (hb p hp)
    · exact List.mem_append_right _ (by simp [hkept p hp])

/-! Waiting for one run after the other -/

/-- What is left of the runs for someone who waits for one after the other and is woken whenever the runs
have come to rest. -/
def outstanding (b : Bridge) (ids : List Nat) : List (Nat × Call) → List Nat
  | [] => ids.dropWhile b.hasFinished
  | (ticket, call) :: calls => (b.perform ticket call).1.outstanding (ids.dropWhile b.hasFinished) calls

/-- Nothing but the runs at the front that have finished by now has been waited out. -/
theorem outstanding_eq (hb : b.Sound) (ids : List Nat) (calls : List (Nat × Call)) :
    b.outstanding ids calls = ids.dropWhile (b.after calls).hasFinished := by
  induction calls generalizing b ids with
  | nil => rfl
  | cons c calls ih =>
    have hb' : (b.perform c.1 c.2).1.Sound := (hb.accounts (steps_perform b c.1 c.2)).sound
    rw [outstanding, ih hb', after]
    induction ids with
    | nil => rfl
    | cons id ids ihids =>
      cases hf : b.hasFinished id with
      | true =>
        have hlater := hasFinished_after hb (c :: calls) hf
        rw [after] at hlater
        rw [List.dropWhile_cons_of_pos hf, List.dropWhile_cons_of_pos hlater, ihids]
      | false => rw [List.dropWhile_cons_of_neg (by simp [hf])]

theorem outstanding_eq_nil_iff (hb : b.Sound) (ids : List Nat) (calls : List (Nat × Call)) :
    b.outstanding ids calls = [] ↔ ids.all (b.after calls).hasFinished = true := by
  rw [outstanding_eq hb, List.dropWhile_eq_nil_iff, List.all_eq_true]

/-! Whole histories -/

theorem started_history (b : Bridge) (calls more : List (Nat × Call)) :
    Act.started (b.history (calls ++ more)) =
      Act.started (b.history calls) ++ Act.started ((b.after calls).history more) := by
  rw [history_append, Act.started_append]

/-- Runs that were in flight at some time have all finished later if that was published of them. -/
theorem all_hasFinished_iff (e : Engine σ) (grants : Nat → Bool) (sink : Sink) (config : Config)
    (before more : List (Nat × Call)) :
    let b₀ := create e grants sink config
    let ids := (b₀.after before).active.map Session.id
    ids.all (b₀.after (before ++ more)).hasFinished = true ↔
      ∀ id ∈ ids, id ∈ Act.finished (b₀.history (before ++ more)) := by
  intro b₀ ids
  rw [List.all_eq_true]
  refine forall₂_congr fun id hid => hasFinished_created e grants sink config _ ?_
  simp only [ids, b₀, active_eq] at hid
  rw [started_history]
  exact List.mem_append_left _ (List.mem_of_mem_filter hid)

theorem pairwise_started (e : Engine σ) (grants : Nat → Bool) (sink : Sink) (config : Config)
    (calls : List (Nat × Call)) :
    (Act.started ((create e grants sink config).history calls)).Pairwise (· < ·) ∧
    ∀ id ∈ Act.started ((create e grants sink config).history calls),
      id < ((create e grants sink config).after calls).nextId := by
  have hb := sound_after e grants sink config calls
  rw [← ids_created]
  exact ⟨List.pairwise_map.mpr hb.ordered, List.forall_mem_map.mpr hb.known⟩

theorem started_next {calls : List (Nat × Call)} {source : String} {n : Nat}
    (h : ((b.after calls).perform ticket (.start source true)).2.reply = some (.started n)) :
    n = (b.after calls).nextId ∧
    Act.started (b.history (calls ++ [(ticket, .start source true)])) =
      Act.started (b.history calls) ++ [n] := by
  have hreply : ((b.after calls).start source).2 = .started n := Option.some.inj h
  obtain ⟨-, -, hp⟩ | ⟨-, -, hf, -⟩ | ⟨-, hspawn, hs, -⟩ := start_cases (b.after calls) source
  · rw [hp] at hreply
    cases hreply
  · rw [hf] at hreply
    cases hreply
  · rw [hs] at hreply
    cases hreply
    refine ⟨rfl, ?_⟩
    rw [started_history, history, history, List.append_nil, started_performActs, newcomers, newRuns,
      if_pos hspawn]
    rfl

/-- The runs in flight are at any time those that were spawned and have not finished, by ascending numbers,
all below the next one. A call that waits for them is answered in the first step that ends with all of
them finished, its own included: in that step and in no other, whichever of them finished first. Waiting
for one after the other comes to the same, and runs that are started later are none of them. -/
theorem wait_ends_with_those_in_flight (e : Engine σ) (grants : Nat → Bool) (sink : Sink)
    (config : Config) :
    let b₀ := create e grants sink config
    (∀ calls,
      let b := b₀.after calls
      let acts := b₀.history calls
      b.active.map Session.id = (Act.started acts).filter (fun id => id ∉ Act.finished acts) ∧
      (b.active.map Session.id).Pairwise (· < ·) ∧
      (Act.started acts).Pairwise (· < ·) ∧ (∀ id ∈ Act.started acts, id < b.nextId) ∧
      ∀ ticket source n, (b.perform ticket (.start source true)).2.reply = some (.started n) →
        n = b.nextId ∧
        Act.started (b₀.history (calls ++ [(ticket, .start source true)])) =
          Act.started acts ++ [n]) ∧
    ∀ before ticket more, (∀ c ∈ before ++ more, c.1 ≠ ticket) →
      let ids := (b₀.after before).active.map Session.id
      let called := before ++ [(ticket, .waitIdle)]
      let ended := fun calls => ∀ id ∈ ids, id ∈ Act.finished (b₀.history calls)
      let answer := ((b₀.after before).perform ticket .waitIdle).2
      (answer.reply = some .idle ∨ (ticket, .idle) ∈ answer.completed ↔ ended called) ∧
      (∀ earlier other call, earlier ++ [(other, call)] <+: more →
        ((ticket, .idle) ∈ ((b₀.after (called ++ earlier)).perform other call).2.completed ↔
          ended (called ++ earlier ++ [(other, call)]) ∧ ¬ ended (called ++ earlier))) ∧
      ((b₀.after called).outstanding ids more = [] ↔ ended (called ++ more)) ∧
      ∃ newer, Act.started (b₀.history (called ++ more)) =
        Act.started (b₀.history before) ++ newer ∧ ∀ id ∈ newer, id ∉ ids := by
  intro b₀
  refine ⟨fun calls => ?_, fun before ticket more htickets => ?_⟩
  · intro b acts
    obtain ⟨hordered, hknown⟩ := pairwise_started e grants sink config calls
    have hactive := active_eq e grants sink config calls
    refine ⟨hactive, ?_, hordered, hknown, fun _ _ _ h => started_next h⟩
    rw [hactive]
    exact hordered.filter _
  · intro ids called ended answer
    obtain ⟨hbefore, hmore⟩ := List.forall_mem_append.mp htickets
    have hover (later : List (Nat × Call)) :
        ids.all (b₀.after (called ++ later)).hasFinished = true ↔ ended (called ++ later) := by
      simp only [called, List.append_assoc]
      exact all_hasFinished_iff e grants sink config before _
    have hb := sound_after e grants sink config before
    have hcalled : b₀.after called = ((b₀.after before).perform ticket .waitIdle).1 :=
      after_append b₀ before _
    have hfresh : ∀ p ∈ (b₀.after before).waits, p.1 ≠ ticket := by
      intro p hp heq
      have hused : p.1 ∈ [] ++ before.map Prod.fst :=
        waits_after (by simp [b₀, create, note]) before p hp
      obtain ⟨c, hc, hid⟩ := List.mem_map.mp hused
      exact hbefore c hc (hid.trans heq)
    obtain ⟨hawaits, hown⟩ := awaits_called hb hfresh
    rw [← hcalled] at hawaits hown
    have hsound := sound_after e grants sink config called
    refine ⟨?_, fun earlier other call hprefix => ?_, ?_, ?_⟩
    · have hnow := hover []
      rw [List.append_nil] at hnow
      exact hown.trans hnow
    · obtain ⟨rest, rfl⟩ := hprefix
      have hearlier : ∀ x ∈ earlier, x.1 ≠ ticket := fun x hx => hmore x (by simp [hx])
      have hthen := hawaits.after hsound hearlier
      rw [← after_append] at hthen
      have hstep := (@Awaits.perform _ _ _ other call hthen (sound_after e grants sink config _)
        (hmore (other, call) (by simp))).2
      have hlast : b₀.after (called ++ earlier ++ [(other, call)]) =
          ((b₀.after (called ++ earlier)).perform other call).1 := after_append b₀ _ _
      rw [hstep, ← hover earlier, Bool.not_eq_true, ← hlast, List.append_assoc, ← hover]
    · rw [outstanding_eq_nil_iff hsound, ← after_append, hover]
    · have hall := (pairwise_started e grants sink config (called ++ more)).1
      simp only [called, List.append_assoc, List.singleton_append] at hall ⊢
      rw [started_history] at hall
      refine ⟨_, started_history b₀ before _, fun id hid hmem => ?_⟩
      have hlt := (List.pairwise_append.mp hall).2.2 id ?_ id hid
      · exact Nat.lt_irrefl id hlt
      · simp only [ids, b₀, active_eq] at hmem
        exact List.mem_of_mem_filter hmem

/-- Of two runs the second finishes first; a third, started in between, is still at a read when the call
is answered. -/
theorem wait_ends_with_those_in_flight_two :
    let config : Config := { run := { pause := .host } }
    let b₀ := create Scripted.engine (fun _ => true) (.capture "") config
    let before : List (Nat × Call) := [(0, .start "read a" true), (1, .start "pause" true)]
    let earlier : List (Nat × Call) := [(3, .start "read b" true), (4, .resume)]
    let b := b₀.after (before ++ [(2, .waitIdle)] ++ earlier)
    (∀ c ∈ before ++ (earlier ++ [(5, .submit "x")]), c.1 ≠ 2) ∧
    (b₀.after before).active.map Session.id = [1, 2] ∧ b.active.map Session.id = [1, 3] ∧
    (2, .idle) ∈ (b.perform 5 (.submit "x")).2.completed ∧
    (b.perform 5 (.submit "x")).1.active.map Session.id = [3] := by
  intro config b₀ before earlier b
  have htickets : ∀ c ∈ before ++ (earlier ++ [(5, .submit "x")]), c.1 ≠ 2 := by decide
  obtain ⟨-, hstep, -, -⟩ :=
    (wait_ends_with_those_in_flight Scripted.engine (fun _ => true) (.capture "") config).2
    before 2 (earlier ++ [(5, .submit "x")]) htickets
  have hover : ∀ id ∈ (b₀.after before).active.map Session.id, id ∈ Act.finished
      (b₀.history (before ++ [(2, .waitIdle)] ++ earlier ++ [(5, .submit "x")])) := by decide +kernel
  have hnot : ¬ ∀ id ∈ (b₀.after before).active.map Session.id, id ∈ Act.finished
      (b₀.history (before ++ [(2, .waitIdle)] ++ earlier)) := by decide +kernel
  have hanswered := (hstep earlier 5 (.submit "x") (List.prefix_refl _)).mpr ⟨hover, hnot⟩
  refine ⟨htickets, by decide +kernel, by decide +kernel, ?_, by decide +kernel⟩
  simp only [b, b₀]
  exact hanswered

end Bridge

end Conduit

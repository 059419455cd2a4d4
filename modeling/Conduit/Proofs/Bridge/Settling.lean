import Conduit.Proofs.Bridge.Schedule

/-!
Bridges that have come to a halt. In whatever order the runs of an interpreter took their steps, none of
them has missed a line, a permit or its turn: each has finished or is blocked for a reason that still
holds.
-/
namespace Conduit

namespace Bridge

/-- Where nothing is replied nothing is said: the gate is as it was, and so is the work that is left. -/
theorem carryOn_of_unanswered {b : Bridge} {s : Session} {work : Behaviour Ending}
    (hs : ∀ r next, work = .ask r next → ∃ st, (b.stageOf s).serve (b.worker s.id) r = (st, none)) :
    (b.carryOn (fun _ => false) s work).2.gate.permit = s.gate.permit ∧
    (b.carryOn (fun _ => false) s work).2.gate.resumed = s.gate.resumed ∧
    ∀ rest, (b.carryOn (fun _ => false) s work).2.work? = some rest → rest = work := by
  have hw := attends_worker b s.id
  obtain ⟨hrest, hsilent⟩ : (work.run (b.worker s.id) Behaviour.never (b.stageOf s)).2.rest = work ∧
      work.dialogue (b.worker s.id) (b.stageOf s) = [] := by
    cases work with
    | done a | panic m => exact ⟨rfl, rfl⟩
    | ask r next =>
      obtain ⟨st, hserve⟩ := hs r next rfl
      rw [Behaviour.run_of_stopped hserve, Behaviour.rest_stopped, Behaviour.dialogue,
        Behaviour.collect_of_stopped hserve]
      exact ⟨rfl, rfl⟩
  refine ⟨?_, ?_, fun rest hwork => ?_⟩
  · rw [permit_carryOn]
    exact (Behaviour.permit_run hw work (b.stageOf s)).1 hsilent
  · rw [(moves_carryOn b s work).resumed, carryOnDeeds_eq, Behaviour.deeds_dialogue hw, hsilent,
      Deed.resumes_append, Session.resumes_closing]
    exact UInt32.add_zero _
  · have hl := carryOn_leaves b s work
    rw [hrest] at hl
    obtain he | ⟨outcome, -, hr⟩ := hl
    · exact Option.some.inj (hwork.symm.trans he)
    · rw [Session.report?_eq_none hwork] at hr
      cases hr

end Bridge

namespace Session
variable {b b' : Bridge} {s s' : Session} {policy : PausePolicy}

/-- What is left of the run keeps to the stations, from one that its token allows. At a checkpoint where
pauses are resumed by themselves the permit is there. -/
structure Steady (policy : PausePolicy) (s : Session) : Prop extends Poised s where
  station : ∀ rest, s.work? = some rest → ∃ q : Station, rest.Keeps Station.Ends q ∧
    q.Bears policy s.cancelled ∧ (s.hasBegun = false → q = .fresh) ∧
    (q = .checkpoint → policy = .autoResume → s.gate.permit = true)

theorem steady_newcomer (i : Interpreter) (policy : PausePolicy) {debug : Bool} (b : Bridge) (id : Nat)
    (source : String) (hd : b.drive = i.engine.drive debug) :
    ({ id, phase := b.firstPhase source } : Session).Steady policy := by
  refine ⟨Bridge.poised_newcomer b id source, fun rest hw => ?_⟩
  have hrest : rest = b.drive source := by
    unfold Bridge.firstPhase at hw
    split at hw <;> exact (Option.some.inj hw).symm
  subst hrest
  refine ⟨.fresh, ?_, rfl, fun _ => rfl, fun h => by cases h⟩
  rw [hd]
  exact i.keeps_drive debug source

theorem Steady.host (h : s.Steady policy) (hr : s.AtRest) (hg : s.isAtGate = true) :
    policy = .host := by
  obtain ⟨next, -, hw⟩ := work?_of_isAtGate hg
  obtain ⟨q, hk, -, -, hopen⟩ := h.station _ hw
  cases policy with
  | host => rfl
  | autoResume =>
    have hshut := hr.shut hg
    rw [Gate.passes, hopen hk.checkpoint_of_awaitGate rfl, Bool.or_true] at hshut
    cases hshut

/-- The surroundings reply as the token says, so what is left after the reply is steady. -/
theorem station_of_reply {r : Request} {next : r.Reply → Behaviour Ending} {reply : r.Reply}
    {q : Station} {off : Bool} (hk : (Behaviour.ask r next).Keeps Station.Ends q)
    (hb : q.Bears policy off) (ha : Exchange.Agrees off ⟨r, reply⟩) :
    ∃ q', q.Move r reply q' ∧ (next reply).Keeps Station.Ends q' ∧ q'.Bears policy off := by
  obtain ⟨q', hm⟩ := hb.foreseen hk.1 ha
  exact ⟨q', hm, hk.2 reply q' hm, (hb.move hm ha).1⟩

theorem Steady.takeUp (h : s.Steady policy) {behind : List Nat} {work : Behaviour Ending}
    (hp : s.phase = .queued behind work) : ({ s with phase := .ready work } : Session).Steady policy := by
  have hw : s.work? = some work := by simp [work?, hp]
  refine ⟨⟨h.aborted, ?_, fun hr => by cases hr⟩, fun rest hrest => ?_⟩
  · rw [h.waiting, isAtGate, hp]
    rfl
  · cases hrest
    obtain ⟨q, hk, hb, -, hopen⟩ := h.station work hw
    exact ⟨q, hk, hb, fun hn => (by cases hn), hopen⟩

theorem Steady.pass (h : s.Steady policy) {next : GateOutcome → Behaviour Ending} {gate : Gate}
    {outcome : GateOutcome} (hp : s.phase = .paused next) (hg : s.gate.wait = (gate, some outcome)) :
    ({ s with gate, phase := .ready (next outcome) } : Session).Steady policy := by
  have hw : s.work? = some (.ask .awaitGate next) := by simp [work?, hp]
  have hwait : gate.aborted = s.gate.aborted ∧ gate.waiting = false ∧
      outcome = if s.cancelled then .aborted else .resumed := by
    rw [← h.aborted]
    obtain ⟨ha, hw⟩ | ⟨ha, -, hw⟩ | ⟨-, -, hw⟩ := s.gate.wait_cases <;> rw [hw] at hg <;> cases hg
    · exact ⟨rfl, rfl, by rw [ha]; rfl⟩
    · exact ⟨rfl, rfl, by rw [ha]; rfl⟩
  refine ⟨⟨hwait.1.trans h.aborted, hwait.2.1, fun hr => by cases hr⟩, fun rest hrest => ?_⟩
  cases hrest
  obtain ⟨q, hk, hb, -, -⟩ := h.station _ hw
  obtain ⟨q', hm, hk', hb'⟩ := station_of_reply hk hb hwait.2.2
  refine ⟨q', hk', hb', fun hn => (by cases hn), fun hq => ?_⟩
  subst hq
  cases hm

theorem Steady.met (h : s.Steady policy) {r : Request} {next : r.Reply → Behaviour Ending}
    {st : Stage Audience} {reply : r.Reply} (hc : b.config.run.pause = policy)
    (hp : s.phase = .ready (.ask r next))
    (hs : (b.stageOf s).serve (b.worker s.id) r = (st, some reply)) :
    (s.afterStage st (.ready (next reply))).Steady policy := by
  subst hc
  have hw : s.work? = some (.ask r next) := by simp [work?, hp]
  have hattends := Bridge.attends_worker b s.id
  have hf := Stage.follows_reply hattends hs
  have hwaiting : s.gate.waiting = false := by rw [h.waiting, isAtGate, hp]
  refine ⟨⟨hf.aborted.trans h.aborted, Stage.waiting_reply hattends hwaiting hs,
    fun hr => by cases hr⟩, fun rest hrest => ?_⟩
  cases hrest
  obtain ⟨q, hk, hb, -, -⟩ := h.station _ hw
  obtain ⟨q', hm, hk', hb'⟩ := station_of_reply hk hb (Behaviour.agrees_reply h.aborted hs)
  refine ⟨q', hk', hb', fun hn => (by cases hn), fun hq hauto => ?_⟩
  -- A checkpoint is come to by announcing it, and where pauses are resumed by themselves that opens the
  -- gate.
  subst hq
  cases hm with
  | announce line wasPrint =>
    refine Behaviour.permit_reply hattends hs ?_
    simp [Exchange.opensGate, Signal.opensGate, hauto]

theorem Steady.halt (h : s.Steady policy) {work : Behaviour Ending} (hp : s.phase = .ready work)
    (hs : ∀ r next, work = .ask r next → ∃ st, (b.stageOf s).serve (b.worker s.id) r = (st, none)) :
    (b.carryOn (fun _ => false) s work).2.Steady policy := by
  have hw : s.work? = some work := by simp [work?, hp]
  have hwaiting : s.gate.waiting = false := by rw [h.waiting, isAtGate, hp]
  have hm := Bridge.moves_carryOn b s work
  obtain ⟨hpermit, -, hwork⟩ := Bridge.carryOn_of_unanswered hs
  refine ⟨(Bridge.atRest_carryOn b work h.aborted hwaiting).toPoised, fun rest hrest => ?_⟩
  obtain rfl := hwork rest hrest
  obtain ⟨q, hk, hb, -, hopen⟩ := h.station _ hw
  refine ⟨q, hk, hm.cancelled ▸ hb, fun hn => ?_, fun hq hauto => hpermit.trans (hopen hq hauto)⟩
  rw [hm.begun] at hn
  cases hn

theorem Steady.beat (h : s.Steady policy) (hc : b.config.run.pause = policy)
    (hbeat : Bridge.Beat b s b' s') : s'.Steady policy := by
  cases hbeat with
  | takeUp hp hb => exact h.takeUp hp
  | pass hp hg => exact h.pass hp hg
  | met hp hs => exact h.met hc hp hs
  | halt hp hs => exact h.halt hp hs

theorem Steady.nudge {es : List Deed} (h : s.Steady policy) (hr : s.AtRest) (hn : Nudge s es s') :
    s'.Steady policy := by
  have hpoised := hn.poised hr
  refine ⟨hpoised, fun rest hrest => ?_⟩
  obtain ⟨-, hp, -, -, hpe, hca⟩ | ⟨logged, next, reply, hp, hp', -, -, -, hca⟩ := hn.cases
  · have hw : s.work? = some rest := by simpa only [work?, hp] using hrest
    have hf : s.isFinished = false := by rw [isFinished, report?_eq_none hw]; rfl
    obtain ⟨q, hk, hb, hfresh, hopen⟩ := h.station rest hw
    refine ⟨q, hk, ?_, fun hu => hfresh ?_, fun hq hauto => hpe (hopen hq hauto)⟩
    · cases hc' : s'.cancelled with
      | false =>
        cases hcs : s.cancelled with
        | false => rwa [hcs] at hb
        | true => rw [hca hcs] at hc'; cases hc'
      | true =>
        -- Called off while it waits for its turn or at its gate, where it looks at its token next.
        obtain hfin | ⟨-, hu | ⟨-, hread | hgate⟩⟩ := hr.cases
        · rw [hf] at hfin
          cases hfin
        · exact .inr (.inl (hfresh hu))
        · have := hpoised.reading (by simpa only [isReading, hp] using hread)
          rw [hc'] at this
          cases this
        · obtain ⟨next, -, hw'⟩ := work?_of_isAtGate hgate
          obtain rfl := Option.some.inj (hw'.symm.trans hw)
          exact .inr (.inr ⟨hk.checkpoint_of_awaitGate, h.host hr hgate⟩)
    · rwa [hasBegun, ← hn.alike.behind]
  · have hw : s.work? = some (.ask (.read logged) next) := by simp only [work?, hp]
    obtain rfl : next reply = rest := by simpa only [work?, hp', Option.some.injEq] using hrest
    obtain ⟨q, hk, -, -, -⟩ := h.station _ hw
    obtain rfl := hk.running_of_read
    have hlive := hr.reading (by simp only [isReading, hp])
    rw [hca, hlive, Bool.false_or]
    have hbegun : s'.hasBegun = true := by simp [hasBegun, behind?, hp']
    rw [hbegun]
    cases reply with
    | none => exact ⟨.calledOff, hk.2 _ _ (.miss logged), .inl rfl, fun hu => (by cases hu),
        fun hq => by cases hq⟩
    | some line => exact ⟨.supplied, hk.2 _ _ (.take logged line), rfl, fun hu => (by cases hu),
        fun hq => by cases hq⟩

end Session

namespace Bridge
variable {b b' c : Bridge} {s s' : Session} {acts : List Act}

def Listed (b : Bridge) : Prop :=
  ∀ s ∈ b.sessions, s.isReading = true → ∃ r ∈ b.channel.readers, r.ticket = s.id

theorem Listed.moves {before after : List Session} {ds : List Deed} (h : b.Listed)
    (hs : b.sessions = before ++ s :: after) (hm : Moves b s ds b' s') :
    { b' with sessions := before ++ s' :: after }.Listed := by
  have stays : ∀ t ∈ b.sessions, t.isReading = true →
      ∃ r ∈ b'.channel.readers, r.ticket = t.id := by
    intro t ht hread
    obtain ⟨r, hr, hid⟩ := h t ht hread
    exact ⟨r, hm.readers ▸ List.mem_append_left _ hr, hid⟩
  intro t ht hread
  rcases List.mem_append.mp ht with ht | ht
  · exact stays t (by simp [hs, ht]) hread
  · rcases List.mem_cons.mp ht with rfl | ht
    · refine ⟨⟨s.id, some s.id⟩, ?_, hm.id.symm⟩
      simp [hm.readers, hread]
    · exact stays t (by simp [hs, ht]) hread

/-- A run is changed: it must not come to wait for a line, and those that do stay on the list. -/
theorem Listed.mapSession {f : Session → Session} {channel : Channel} (h : b.Listed) {id : Nat}
    (hf : ∀ s, (f s).id = s.id)
    (hr : ∀ r ∈ b.channel.readers, r.ticket ≠ id → r ∈ channel.readers)
    (hn : ∀ s, (f s).isReading = true → s.isReading = true ∧ channel.readers = b.channel.readers) :
    ({ b with channel }.mapSession id f).Listed := by
  intro t ht hread
  obtain ⟨s, hs, rfl⟩ := List.mem_map.mp ht
  by_cases hid : s.id = id
  · simp only [hid, if_true] at hread ⊢
    obtain ⟨hread', he⟩ := hn s hread
    obtain ⟨r, hm, hticket⟩ := h s hs hread'
    exact ⟨r, he ▸ hm, hticket.trans (hf s).symm⟩
  · simp only [hid, if_false] at hread ⊢
    obtain ⟨r, hm, hticket⟩ := h s hs hread
    exact ⟨r, hr r hm (hticket ▸ hid), hticket⟩

theorem not_isReading_receive (line : String) (s : Session) : (s.receive line).isReading = false := by
  unfold Session.receive Session.isReading
  cases hp : s.phase <;> simp [hp]

theorem not_isReading_cancelled (s : Session) : (cancelled s).isReading = false := by
  unfold cancelled Session.isReading
  cases hp : s.phase <;> simp

theorem Listed.step (h : b.Listed) (hb : b.Sound) (hs : Step b acts b') : b'.Listed := by
  cases hs with
  | advance before s after hs =>
    obtain ⟨he, -⟩ | ⟨b₁, s', he, hm, -⟩ := advanceAmong_cases hs <;> rw [he]
    · exact h
    · exact h.moves hs hm
  | handOver line r rs hf hr =>
    refine h.mapSession (fun s => (Session.alike_receive line s).id) (fun q hq hne => ?_)
      fun s hread => ?_
    · rw [hr] at hq
      rcases List.mem_cons.mp hq with rfl | hq
      · exact absurd rfl hne
      · exact hq
    · rw [not_isReading_receive] at hread
      cases hread
  | cancel id =>
    refine h.mapSession (fun s => (Session.alike_cancelled s).id) (fun r hr hne => ?_)
      fun s hread => ?_
    · refine List.mem_filter.mpr ⟨hr, ?_⟩
      simpa [(hb.readers r hr).1] using hne
    · rw [not_isReading_cancelled] at hread
      cases hread
  | resume id =>
    exact h.mapSession (fun _ => rfl) (fun _ hr _ => hr) fun _ hread => ⟨hread, rfl⟩
  | spawn source =>
    intro s hs hread
    rcases List.mem_append.mp hs with hs | hs
    · exact h s hs hread
    · rw [List.mem_singleton.mp hs] at hread
      unfold firstPhase at hread
      split at hread <;> cases hread
  | take line channel served ht =>
    simpa only [Listed, Channel.readers_take? ht] using h
  | _ => exact h

theorem Listed.apply (h : b.Listed) (hb : b.Sound) (ticket : Nat) (call : Call) :
    (b.apply ticket call).1.Listed :=
  ((steps_apply b ticket call).keep (P := fun _ b => b.Sound ∧ b.Listed)
    (fun h hs => ⟨h.1.step hs, h.2.step h.1 hs⟩) [] ⟨hb, h⟩).2

theorem overlap_of_behind {id : Nat} {source : String} {behind : List Nat}
    (h : ({ id, phase := b.firstPhase source } : Session).behind? = some behind) :
    b.config.run.overlap = .queue := by
  unfold firstPhase Session.behind? at h
  cases ho : b.config.run.overlap with
  | queue => rfl
  | _ => simp [ho] at h

structure Lawful (i : Interpreter) (conf : Config) (b : Bridge) : Prop extends Sound b where
  listed : b.Listed
  steady : ∀ s ∈ b.sessions, s.Steady conf.run.pause
  queued : ∀ s ∈ b.sessions, ∀ behind, s.behind? = some behind →
    conf.run.overlap = .queue ∧ ∀ id ∈ behind, id < s.id ∧ ∃ t ∈ b.sessions, t.id = id
  config : b.config = conf
  drive : b.drive = i.engine.drive conf.run.debug

namespace Lawful
variable {i : Interpreter} {config : Config}

theorem create (i : Interpreter) (grants : Nat → Bool) (sink : Sink) (config : Config) :
    (create i.engine grants sink config).Lawful i config where
  toSound := sound_create i.engine grants sink config
  listed := fun s hs => by cases hs
  steady := fun s hs => by cases hs
  queued := fun s hs => by cases hs
  config := rfl
  drive := rfl

theorem tick (h : b.Lawful i config) (ht : Tick b b') : b'.Lawful i config := by
  obtain @⟨before, after, s, s', b', hs, hbeat⟩ := ht
  obtain ⟨⟨ds, hm⟩, -, hread⟩ := hbeat.moves
  have hmem : s ∈ b.sessions := by simp [hs]
  have hold : ∀ t ∈ before ++ s' :: after, t = s' ∨ t ∈ b.sessions := by
    intro t ht
    simp only [hs, List.mem_append, List.mem_cons] at ht ⊢
    tauto
  have hids : ∀ t ∈ b.sessions, ∃ t' ∈ before ++ s' :: after, t'.id = t.id := by
    intro t ht
    simp only [hs, List.mem_append, List.mem_cons] at ht
    rcases ht with ht | rfl | ht
    · exact ⟨t, by simp [ht], rfl⟩
    · exact ⟨s', by simp, hm.id⟩
    · exact ⟨t, by simp [ht], rfl⟩
  refine ⟨h.toSound.moves hs hm hread, h.listed.moves hs hm, fun t ht => ?_,
    fun t ht behind hb => ?_, ?_, ?_⟩
  · rcases hold t ht with rfl | ht
    · exact (h.steady s hmem).beat (by rw [h.config]) hbeat
    · exact h.steady t ht
  · rcases hold t ht with rfl | ht
    · have hbegun := hm.begun
      rw [Session.hasBegun, hb] at hbegun
      cases hbegun
    · obtain ⟨ho, hbehind⟩ := h.queued t ht behind hb
      refine ⟨ho, fun id hid => ?_⟩
      obtain ⟨hlt, u, hu, rfl⟩ := hbehind id hid
      exact ⟨hlt, hids u hu⟩
  · rw [hm.frame]
    exact h.config
  · rw [hm.frame]
    exact h.drive

theorem ticks (h : b.Lawful i config) (ht : Ticks b c) : c.Lawful i config := by
  induction ht with
  | refl => exact h
  | tail _ ht ih => exact ih.tick ht

/-- Whoever waits for its turn while no run can go on waits for one that has not finished. -/
theorem queues (h : b.Lawful i config) (hstill : b.Still) (hs : s ∈ b.sessions) {behind : List Nat}
    (hb : s.behind? = some behind) : b.Queues s behind := by
  have hearlier := (h.queued s hs behind hb).2
  refine ⟨hearlier, ?_⟩
  by_contra hnone
  unfold Session.behind? at hb
  cases hp : s.phase with
  | queued ids work =>
    rw [hp] at hb
    cases hb
    refine hstill s hs _ _ (.takeUp hp (List.all_eq_true.mpr fun id hid => ?_))
    obtain ⟨hlt, t, ht, rfl⟩ := hearlier id hid
    rw [hasFinished, h.toSound.find?_eq ht, Option.any_some]
    by_contra hf
    exact hnone ⟨t, ht, hid, hlt, Bool.eq_false_iff.mpr hf⟩
  | _ => simp [hp] at hb

theorem atRest (h : b.Lawful i config) (hstill : b.Still) (hs : s ∈ b.sessions) : s.AtRest :=
  hstill.atRest hs (h.steady s hs).toPoised

theorem apply (h : b.Lawful i config) (hstill : b.Still) (ticket : Nat) (call : Call) :
    (b.apply ticket call).1.Lawful i config := by
  have ha := h.toSound.accounts (steps_apply b ticket call)
  have hids : ∀ t ∈ b.sessions, ∃ t' ∈ (b.apply ticket call).1.sessions, t'.id = t.id := by
    intro t ht
    refine List.mem_map.mp ?_
    rw [ids_apply]
    exact List.mem_append_left _ (List.mem_map_of_mem ht)
  refine ⟨ha.sound, h.listed.apply h.toSound ticket call, fun s' hs' => ?_,
    fun s' hs' behind hb => ?_, ha.config.trans h.config, ha.drive.trans h.drive⟩
  · obtain ⟨s, hs, hn⟩ | ⟨-, hnew⟩ := mem_apply h.toSound ticket call hs'
    · exact (h.steady s hs).nudge (h.atRest hstill hs) hn
    · obtain ⟨source, told, -, rfl⟩ := mem_newcomers hnew
      exact Session.steady_newcomer i _ b b.nextId source h.drive
  · have hearlier : config.run.overlap = .queue ∧
        ∀ id ∈ behind, id < s'.id ∧ ∃ t ∈ b.sessions, t.id = id := by
      obtain ⟨s, hs, hn⟩ | ⟨-, hnew⟩ := mem_apply h.toSound ticket call hs'
      · rw [hn.alike.behind] at hb
        rw [hn.alike.id]
        exact h.queued s hs behind hb
      · obtain ⟨source, told, -, rfl⟩ := mem_newcomers hnew
        refine ⟨?_, fun id hid => ?_⟩
        · rw [← h.config]
          exact overlap_of_behind hb
        · obtain ⟨t, ht, rfl⟩ := List.mem_map.mp (mem_active_of_behind hb id hid)
          exact ⟨h.known t (mem_active.mp ht).1, t, (mem_active.mp ht).1, rfl⟩
    refine ⟨hearlier.1, fun id hid => ?_⟩
    obtain ⟨hlt, t, ht, rfl⟩ := hearlier.2 id hid
    exact ⟨hlt, hids t ht⟩

theorem collect (h : b.Lawful i config) : b.collect.1.Lawful i config where
  channel := h.channel
  writers := h.writers
  ordered := h.ordered
  known := h.known
  readers := h.readers
  distinct := h.distinct
  listed := h.listed
  steady := h.steady
  queued := h.queued
  config := h.config
  drive := h.drive

theorem still_collect (h : b.Lawful i config) (hstill : b.Still) : b.collect.1.Still :=
  still_of_atRest h.collect.toSound (fun _ hs => h.atRest hstill hs) fun _ hs _ hb =>
    ⟨(h.queues hstill hs hb).earlier, (h.queues hstill hs hb).held⟩

end Lawful

theorem Scheduled.lawful {i : Interpreter} {grants : Nat → Bool} {sink : Sink} {config : Config}
    {calls : List (Nat × Call)} (h : Scheduled (create i.engine grants sink config) calls b) :
    b.Lawful i config ∧ b.Still := by
  induction h with
  | start => exact ⟨.create i grants sink config, fun s hs => by cases hs⟩
  | call _ ht hs ih =>
    have hc := (ih.1.apply ih.2 _ _).ticks ht
    exact ⟨hc.collect, hc.still_collect hs⟩

/-- How a run can stand when no run can go on. -/
inductive Standing where
  | ended
  | atRead
  | atGate
  | inQueue
deriving DecidableEq, Repr

def Stands (b : Bridge) (s : Session) : Standing → Prop
  | .ended => s.isFinished = true
  | .atRead => s.isReading = true ∧ b.channel.lines = [] ∧ s.cancelled = false
  | .atGate => s.isAtGate = true ∧ b.config.run.pause = .host ∧ s.gate.permit = false ∧
      s.gate.aborted = false
  | .inQueue => b.config.run.overlap = .queue ∧ ∃ behind, s.behind? = some behind ∧
      ∃ t ∈ b.sessions, t.id ∈ behind ∧ t.id < s.id ∧ t.isFinished = false

theorem Stands.unique {w w' : Standing} (h : b.Stands s w) (h' : b.Stands s w') : w = w' := by
  have tagged : ∀ {w}, b.Stands s w → w = match s.phase with
      | .finished _ => .ended
      | .reading _ _ => .atRead
      | .paused _ => .atGate
      | _ => .inQueue := by
    intro w h
    cases w with
    | ended =>
      unfold Stands Session.isFinished Session.report? at h
      cases hp : s.phase <;> simp_all
    | atRead =>
      obtain ⟨logged, next, hp, -⟩ := Session.work?_of_isReading h.1
      rw [hp]
    | atGate =>
      obtain ⟨next, hp, -⟩ := Session.work?_of_isAtGate h.1
      rw [hp]
    | inQueue =>
      obtain ⟨-, behind, hb, -⟩ := h
      unfold Session.behind? at hb
      cases hp : s.phase <;> simp_all
  rw [tagged h, tagged h']

/-- No wakeup is lost: whoever has not finished waits for something that is not there. -/
theorem Lawful.stands {i : Interpreter} {config : Config} (h : b.Lawful i config) (hstill : b.Still)
    (hs : s ∈ b.sessions) : ∃ w, b.Stands s w := by
  have hr := h.atRest hstill hs
  obtain hf | ⟨-, hu | ⟨-, hread | hgate⟩⟩ := hr.cases
  · exact ⟨.ended, hf⟩
  · rw [Session.hasBegun, Option.isNone_eq_false_iff] at hu
    obtain ⟨behind, hb⟩ := Option.isSome_iff_exists.mp hu
    refine ⟨.inQueue, ?_, behind, hb, (h.queues hstill hs hb).held⟩
    rw [h.config]
    exact (h.queued s hs behind hb).1
  · obtain ⟨r, hm, -⟩ := h.listed s hs hread
    exact ⟨.atRead, hread, h.channel.empty (List.ne_nil_of_mem hm), hr.reading hread⟩
  · have hshut := hr.shut hgate
    rw [Gate.passes, Bool.or_eq_false_iff] at hshut
    refine ⟨.atGate, hgate, ?_, hshut.2, hshut.1⟩
    rw [h.config]
    exact (h.steady s hs).host hr hgate

theorem exists_first (hb : b.Sound) (ha : b.active ≠ []) :
    ∃ s ∈ b.active, (∀ t ∈ b.active, s.id ≤ t.id) ∧ ¬ b.Stands s .inQueue := by
  cases hactive : b.active with
  | nil => exact absurd hactive ha
  | cons s rest =>
    have hordered : b.active.Pairwise fun s t => s.id < t.id := hb.ordered.filter _
    rw [hactive] at hordered
    have hfirst : ∀ t ∈ s :: rest, s.id ≤ t.id := by
      intro t ht
      rcases List.mem_cons.mp ht with rfl | ht
      · exact Nat.le_refl _
      · exact Nat.le_of_lt ((List.pairwise_cons.mp hordered).1 t ht)
    refine ⟨s, List.mem_cons_self, hfirst, ?_⟩
    rintro ⟨-, behind, -, t, ht, -, hlt, hf⟩
    have hle := hfirst t (hactive ▸ mem_active.mpr ⟨ht, hf⟩)
    omega

/-- Settling ends and loses no wakeup. Whatever is called, and in whatever order the runs of an
interpreter then take their steps, they come to a halt. There every run has finished or is blocked in
exactly one way: at a read with nothing buffered and nobody calling it off, at its gate where the host
is to resume it and has not, or behind an earlier run that has not finished. A line waits for a place
only while the buffer is full, and the first of the runs in flight waits for no other. -/
theorem settling_loses_no_wakeup (i : Interpreter) (grants : Nat → Bool) (sink : Sink)
    (config : Config) (calls : List (Nat × Call)) :
    let b₀ := create i.engine grants sink config
    Scheduled b₀ calls (b₀.after calls) ∧
    ∀ b, Scheduled b₀ calls b →
      (∀ ticket call, Acc (fun c' c => Tick c c') (b.apply ticket call).1 ∧
        ∀ c, Ticks (b.apply ticket call).1 c → ∃ d, Ticks c d ∧ d.Still) ∧
      (∀ s ∈ b.sessions, ∃! w, b.Stands s w) ∧
      (b.channel.writers ≠ [] → b.channel.lines.length = b.channel.limit) ∧
      (b.active ≠ [] →
        ∃ s ∈ b.active, (∀ t ∈ b.active, s.id ≤ t.id) ∧ ¬ b.Stands s .inQueue) := by
  intro b₀
  refine ⟨scheduled_after i.engine grants sink config calls, fun b hb => ?_⟩
  obtain ⟨h, hstill⟩ := hb.lawful
  refine ⟨fun ticket call => ⟨ticks_end.apply _, fun c _ => exists_still c⟩, fun s hs => ?_,
    h.channel.full, exists_first h.toSound⟩
  obtain ⟨w, hw⟩ := h.stands hstill hs
  exact ⟨w, hw, fun w' hw' => hw'.unique hw⟩

/-- One run at its gate and one that waits for its turn behind it. -/
theorem settling_loses_no_wakeup_gate_and_queue :
    let config : Config := { run := { pause := .host, overlap := .queue } }
    let calls : List (Nat × Call) := [(0, .start "pause" true), (1, .start "read x" true)]
    let b := (create Interpreter.lines.engine (fun _ => true) (.capture "") config).after calls
    Scheduled (create Interpreter.lines.engine (fun _ => true) (.capture "") config) calls b ∧
      b.active.map (fun s => (s.id, s.isAtGate, s.behind?)) = [(1, true, none), (2, false, some [1])] ∧
      (∀ s ∈ b.sessions, ∃! w, b.Stands s w) ∧
      ∃ s ∈ b.active, (∀ t ∈ b.active, s.id ≤ t.id) ∧ ¬ b.Stands s .inQueue := by
  intro config calls b
  obtain ⟨hb, h⟩ := settling_loses_no_wakeup .lines (fun _ => true) (.capture "") config calls
  obtain ⟨-, hstands, -, hfirst⟩ := h b hb
  have hactive : b.active.map (fun s => (s.id, s.isAtGate, s.behind?)) =
      [(1, true, none), (2, false, some [1])] := by decide +kernel
  exact ⟨hb, hactive, hstands, hfirst fun hn => by rw [hn] at hactive; cases hactive⟩

end Bridge

end Conduit

import Conduit.Proofs.Bridge.Gates

/-!
Resuming by the host. It lets through exactly the runs that are blocked at their gate, each of them once,
and leaves no permit behind: a checkpoint is passed only by a call that found the run standing there.
-/
namespace Conduit

namespace Bridge
variable {b b' c : Bridge} {s s' : Session} {i : Interpreter} {config : Config}

def blocked (b : Bridge) : List Session := b.active.filter Session.isAtGate

theorem mem_blocked : s ∈ b.blocked ↔ s ∈ b.sessions ∧ s.isAtGate = true := by
  unfold blocked
  rw [List.mem_filter, mem_active, and_assoc]
  refine and_congr_right fun _ => and_iff_right_of_imp fun hg => ?_
  obtain ⟨next, hp, -⟩ := Session.work?_of_isAtGate hg
  simp [Session.isFinished, Session.report?, hp]

/-- When no run can go on, those that wait at a gate are those that stand at one. -/
theorem Lawful.blocked_eq (h : b.Lawful i config) (hstill : b.Still) :
    b.active.filter Session.isPaused = b.blocked :=
  List.filter_congr fun _ hs => (h.atRest hstill (mem_active.mp hs).1).waiting

/-! What holds along any number of steps -/

theorem Ticks.keep {P : Session → Prop}
    (step : ∀ {b s b' s'}, b.Lawful i config → s ∈ b.sessions → P s → Beat b s b' s' → P s')
    (h : b.Lawful i config) (ht : Ticks b c) (hP : ∀ s ∈ b.sessions, P s) : ∀ s ∈ c.sessions, P s := by
  induction ht with
  | refl => exact hP
  | tail ht htick ih =>
    obtain @⟨before, after, s, s', b', hs, hbeat⟩ := htick
    intro t ht'
    rcases List.mem_append.mp ht' with hm | hm
    · exact ih t (by simp [hs, hm])
    · rcases List.mem_cons.mp hm with rfl | hm
      · exact step (h.ticks ht) (by simp [hs]) (ih s (by simp [hs])) hbeat
      · exact ih t (by simp [hs, hm])

theorem Beat.id (h : Beat b s b' s') : s'.id = s.id := by
  obtain ⟨⟨ds, hm⟩, -⟩ := h.moves
  exact hm.id

theorem Ticks.ids (ht : Ticks b c) : c.sessions.map Session.id = b.sessions.map Session.id := by
  induction ht with
  | refl => rfl
  | tail ht htick ih =>
    obtain ⟨hs, hbeat⟩ := htick
    rw [← ih, hs]
    simp [hbeat.id]

theorem Beat.hub (hc : b.config.run.pause = .host) (h : Beat b s b' s') :
    ∃ es : List SessionEvent, .resumed ∉ es ∧ b'.hub = b.hub.publishAll (es.map (Envelope.mk s.id)) := by
  have hw := attends_worker b s.id
  rw [hc] at hw
  cases h with
  | takeUp =>
    obtain ⟨journal, admitted, he⟩ := clearInput_eq b (.worker s.id)
    exact ⟨[], by simp, by rw [he]; rfl⟩
  | pass => exact ⟨[], by simp, rfl⟩
  | @met r next st reply hp hserve =>
    refine ⟨_, ?_, (Stage.follows_reply hw hserve).hub⟩
    rw [← Dialogue.deeds_singleton (b.stageOf s).audience.tally ⟨r, reply⟩]
    exact Dialogue.resumed_not_mem _ _
  | @halt work hp hserve =>
    refine ⟨_, ?_, (moves_carryOn b s work).hub⟩
    rw [carryOnDeeds_eq, hc, Behaviour.deeds_dialogue hw, Deed.publications_append, List.mem_append]
    rintro (hm | hm)
    · exact Dialogue.resumed_not_mem _ _ hm
    · unfold Session.closing at hm
      split at hm <;> simp [Deed.publications, Deed.published?] at hm

theorem Ticks.hub (h : b.Lawful i config) (hp : config.run.pause = .host) (ht : Ticks b c) :
    ∃ es : List Envelope, (∀ e ∈ es, e.event ≠ .resumed) ∧ c.hub = b.hub.publishAll es := by
  induction ht with
  | refl => exact ⟨[], by simp, rfl⟩
  | tail ht htick ih =>
    obtain ⟨es, hes, hhub⟩ := ih
    obtain @⟨before, after, s, s', b', hs, hbeat⟩ := htick
    obtain ⟨fs, hfs, hhub'⟩ := hbeat.hub (by rw [(h.ticks ht).config, hp])
    refine ⟨es ++ fs.map (Envelope.mk s.id), fun e he => ?_, ?_⟩
    · rcases List.mem_append.mp he with he | he
      · exact hes e he
      · obtain ⟨event, hm, rfl⟩ := List.mem_map.mp he
        exact fun hr => hfs (hr ▸ hm)
    · rw [Hub.publishAll_append, ← hhub]
      exact hhub'

/-! The host resumes -/

inductive Resumed (b : Bridge) : Session → Prop
  | opened {s : Session} (hs : s ∈ b.blocked) : Resumed b { s with gate := s.gate.resume }
  | passed {s t : Session} (hs : s ∈ b.blocked) (hid : t.id = s.id) (hl : t.Locked)
      (hn : t.gate.resumed = s.gate.resumed + 1) : Resumed b t
  | other {s t : Session} (hs : s ∈ b.sessions) (hn : s ∉ b.blocked) (hid : t.id = s.id)
      (hp : t.gate.permit = true → s.gate.permit = true) : Resumed b t

theorem Lawful.steady_host (h : b.Lawful i config) (hp : config.run.pause = .host)
    (hs : s ∈ b.sessions) : s.Steady .host :=
  hp ▸ h.steady s hs

theorem Lawful.pause_host (h : b.Lawful i config) (hp : config.run.pause = .host) :
    b.config.run.pause = .host := by
  rw [h.config, hp]

theorem Resumed.beat {b₁ b₂ : Bridge} {t t' : Session} (h : b.Lawful i config) (hstill : b.Still)
    (hp : config.run.pause = .host) (h₁ : b₁.Lawful i config) (ht : t ∈ b₁.sessions)
    (hr : Resumed b t) (hbeat : Beat b₁ t b₂ t') : Resumed b t' := by
  cases hr with
  | @opened s hs =>
    obtain ⟨hm, hg⟩ := mem_blocked.mp hs
    obtain ⟨hl, hn⟩ :=
      Session.beat_of_opened (h.steady_host hp hm) (h.atRest hstill hm) hg hbeat
    exact .passed hs hbeat.id hl hn
  | @passed s _ hs hid hl hn =>
    obtain ⟨hl', hn'⟩ := hl.beat (h₁.steady_host hp ht) (h₁.pause_host hp) hbeat
    exact .passed hs (hbeat.id.trans hid) hl' (hn'.trans hn)
  | @other s _ hs hn hid hpermit =>
    exact .other hs hn (hbeat.id.trans hid) fun hp' =>
      hpermit ((h₁.steady_host hp ht).permit_beat (h₁.pause_host hp) hbeat hp')

theorem resumed_apply (h : b.Lawful i config) (hstill : b.Still) (ticket : Nat) :
    ∀ t ∈ (b.apply ticket .resume).1.sessions, Resumed b t := by
  intro t ht
  have hquiet : Act.deeds (b.applyActs .resume) = [] := by
    simp [applyActs, resumeActs, Act.deeds, Act.deed?]
  obtain ⟨he, -⟩ | ⟨line, r, rs, -, -, -, hd⟩ := apply_cases b ticket .resume
  · have hnone : b.newcomers .resume = [] := rfl
    rw [he, hnone, List.append_nil] at ht
    obtain ⟨s, hs, rfl⟩ := List.mem_map.mp ht
    rw [touch, h.blocked_eq hstill]
    split
    · rename_i hm
      obtain ⟨s', hs', hid⟩ := List.mem_map.mp hm
      obtain rfl := h.eq_of_id (mem_blocked.mp hs').1 hs hid
      exact .opened hs'
    · rename_i hn
      exact .other hs (fun hm => hn (List.mem_map_of_mem hm)) rfl id
  · rw [hquiet] at hd
    cases hd

theorem Still.not_opened (hc : c.Still) (hs : s.AtRest) (hg : s.isAtGate = true)
    (hm : ({ s with gate := s.gate.resume } : Session) ∈ c.sessions) : False := by
  obtain ⟨next, hphase, -⟩ := Session.work?_of_isAtGate hg
  obtain ⟨-, ha, -⟩ := hs.atGate hg
  have hwait : s.gate.resume.wait = (s.gate.resume.wait.1, some .resumed) := by
    simp [Gate.wait, Gate.resume, ha]
  exact hc _ hm _ _ (.pass hphase hwait)

theorem Still.not_cancelled (hc : c.Still) (hg : s.isAtGate = true) (hm : cancelled s ∈ c.sessions) :
    False := by
  obtain ⟨next, hphase, -⟩ := Session.work?_of_isAtGate hg
  rw [Session.cancelled_of_isAtGate hg] at hm
  have hwait : s.gate.abort.wait = (s.gate.abort.wait.1, some .aborted) := by
    simp [Gate.wait, Gate.abort]
  exact hc _ hm _ _ (.pass hphase hwait)

/-- Once the runs have come to a halt again, each of those that were blocked has been let through once,
and there are no more permits than before. -/
theorem resumed_still (h : b.Lawful i config) (hstill : b.Still) (hp : config.run.pause = .host)
    {ticket : Nat} (ht : Ticks (b.apply ticket .resume).1 c) (hc : c.Still) :
    (∀ s ∈ b.blocked, ∃ s' ∈ c.sessions, s'.id = s.id ∧ s'.gate.resumed = s.gate.resumed + 1) ∧
    ∀ s' ∈ c.sessions, s'.gate.permit = true →
      ∃ s ∈ b.sessions, s.id = s'.id ∧ s.gate.permit = true := by
  have hall := ht.keep (fun h₁ hs hr hbeat => hr.beat h hstill hp h₁ hs hbeat)
    (h.apply hstill ticket .resume) (resumed_apply h hstill ticket)
  have hshut : ∀ s ∈ b.blocked, ({ s with gate := s.gate.resume } : Session) ∉ c.sessions := by
    intro s hs hm
    obtain ⟨hmem, hg⟩ := mem_blocked.mp hs
    exact hc.not_opened (h.atRest hstill hmem) hg hm
  refine ⟨fun s hs => ?_, fun s' hs' hpermit => ?_⟩
  · have hmem := (mem_blocked.mp hs).1
    obtain ⟨t, ht', hid⟩ : ∃ t ∈ c.sessions, t.id = s.id := by
      refine List.mem_map.mp ?_
      rw [ht.ids, ids_apply]
      exact List.mem_append_left _ (List.mem_map_of_mem hmem)
    have hr := hall t ht'
    cases hr with
    | opened hs' => exact absurd ht' (hshut _ hs')
    | passed hs' hid' hl hn =>
      obtain rfl := h.eq_of_id (mem_blocked.mp hs').1 hmem (hid'.symm.trans hid)
      exact ⟨t, ht', hid, hn⟩
    | other hs' hn' hid' =>
      obtain rfl := h.eq_of_id hs' hmem (hid'.symm.trans hid)
      exact absurd hs hn'
  · have hr := hall s' hs'
    cases hr with
    | opened hm => exact absurd hs' (hshut _ hm)
    | passed hm hid hl hn =>
      rw [hl.permit] at hpermit
      cases hpermit
    | other hm hn hid hp' => exact ⟨_, hm, hid.symm, hp' hpermit⟩

/-- Every subscriber hears once of each run that was let through and of no other. -/
theorem resumed_heard (h : b.Lawful i config) (hstill : b.Still) (hp : config.run.pause = .host)
    {ticket : Nat} (ht : Ticks (b.apply ticket .resume).1 c) :
    ∃ es : List Envelope,
      es.filter (fun e => e.event = .resumed) = b.blocked.map (fun s => ⟨s.id, .resumed⟩) ∧
      ∀ u seen, b.hub.Hears u seen → c.hub.Hears u (seen ++ es) := by
  obtain ⟨es, hes, hhub⟩ := ht.hub (h.apply hstill ticket .resume) hp
  have hann : b.announcements .resume = b.blocked.map fun s => ⟨s.id, .resumed⟩ := by
    rw [announcements, h.blocked_eq hstill]
  rw [hub_apply b ticket (by simp) (by simp) (by simp), hann] at hhub
  refine ⟨b.blocked.map (fun s => ⟨s.id, .resumed⟩) ++ es, ?_, fun u seen hu => ?_⟩
  · rw [List.filter_append, List.filter_eq_self.mpr (by simp), List.filter_eq_nil_iff.mpr, List.append_nil]
    simpa using hes
  · rw [hhub, ← List.append_assoc]
    exact (hu.publishAll _).publishAll es

theorem reply_resume (h : b.Lawful i config) (hstill : b.Still) (ticket : Nat) :
    (b.apply ticket .resume).2 =
      some (if b.blocked = [] then .failed .notPaused else .count b.blocked.length) := by
  simp only [apply, resume, h.blocked_eq hstill]
  cases b.blocked <;> rfl

theorem apply_resume_of_nobody (h : b.Lawful i config) (hstill : b.Still) (hn : b.blocked = [])
    (ticket : Nat) : (b.apply ticket .resume).1 = b ∧ ∀ c, Ticks b c → c = b := by
  refine ⟨?_, fun c ht => hstill.eq_of_ticks ht⟩
  simp only [apply, resume, h.blocked_eq hstill, hn]

/-! Checkpoints wait for a call -/

/-- How a run may stand while the runs go on after a call of a host that resumes no single run: it was
let through or called off where it stood at its gate, or every gate holds it. -/
inductive Released (b : Bridge) (call : Call) : Session → Prop
  | opened {s : Session} (hs : s ∈ b.blocked) (hc : call = .resume) :
      Released b call { s with gate := s.gate.resume }
  | calledOff {s : Session} (hs : s ∈ b.blocked) (hc : b.callsOff call s.id) :
      Released b call (cancelled s)
  | locked {s : Session} (hl : s.Locked) : Released b call s

theorem Released.beat {call : Call} {b₁ b₂ : Bridge} {t t' : Session} (h : b.Lawful i config)
    (hstill : b.Still) (hp : config.run.pause = .host) (h₁ : b₁.Lawful i config)
    (ht : t ∈ b₁.sessions) (hr : Released b call t) (hbeat : Beat b₁ t b₂ t') :
    Released b call t' := by
  cases hr with
  | @opened s hs hc =>
    obtain ⟨hm, hg⟩ := mem_blocked.mp hs
    exact .locked (Session.beat_of_opened (h.steady_host hp hm) (h.atRest hstill hm) hg hbeat).1
  | @calledOff s hs hc =>
    obtain ⟨hm, hg⟩ := mem_blocked.mp hs
    exact .locked (Session.beat_of_cancelled (h.steady_host hp hm) (h.atRest hstill hm) hg hbeat)
  | locked hl => exact .locked (hl.beat (h₁.steady_host hp ht) (h₁.pause_host hp) hbeat).1

theorem touch_cases (b : Bridge) {call : Call} (hn : ∀ id, call ≠ .resumeSession id) (s : Session) :
    b.touch call s = s ∨ b.touch call s = cancelled s ∧ b.callsOff call s.id ∨
      b.touch call s = { s with gate := s.gate.resume } ∧ call = .resume ∧
        s.id ∈ (b.active.filter Session.isPaused).map Session.id := by
  by_cases hc : b.callsOff call s.id
  · cases call with
    | start source told | stop | cancel id => exact .inr (.inl ⟨if_pos hc, hc⟩)
    | _ => exact hc.elim
  · cases call with
    | start source told | stop | cancel id => exact .inl (if_neg hc)
    | resume =>
      by_cases hm : s.id ∈ (b.active.filter Session.isPaused).map Session.id
      · exact .inr (.inr ⟨if_pos hm, rfl, hm⟩)
      · exact .inl (if_neg hm)
    | resumeSession id => exact absurd rfl (hn id)
    | _ => exact .inl rfl

theorem released_apply {call : Call} (h : b.Lawful i config) (hstill : b.Still)
    (hp : config.run.pause = .host) (hlocked : ∀ s ∈ b.sessions, s.Locked)
    (hn : ∀ id, call ≠ .resumeSession id) (ticket : Nat) :
    ∀ t ∈ (b.apply ticket call).1.sessions, Released b call t := by
  intro t ht
  obtain ⟨he, -⟩ | ⟨line, r, rs, -, -, he, -⟩ := apply_cases b ticket call <;> rw [he] at ht
  · rcases List.mem_append.mp ht with ht | ht
    · obtain ⟨s, hs, rfl⟩ := List.mem_map.mp ht
      have hr := h.atRest hstill hs
      obtain he | ⟨he, hc⟩ | ⟨he, hc, hm⟩ := touch_cases b hn s <;> rw [he]
      · exact .locked (hlocked s hs)
      · cases hg : s.isAtGate with
        | true => exact .calledOff (mem_blocked.mpr ⟨hs, hg⟩) hc
        | false => exact .locked (hr.locked_cancelled (h.steady_host hp hs) hg (hlocked s hs).permit)
      · rw [h.blocked_eq hstill] at hm
        obtain ⟨s', hs', hid⟩ := List.mem_map.mp hm
        obtain rfl := h.eq_of_id (mem_blocked.mp hs').1 hs hid
        exact .opened hs' hc
    · obtain ⟨source, told, -, rfl⟩ := mem_newcomers ht
      have hsteady := Session.steady_newcomer i .host b b.nextId source h.drive
      exact .locked (hsteady.locked rfl rfl)
  · obtain ⟨s, hs, rfl⟩ := List.mem_map.mp ht
    split
    · exact .locked ((h.atRest hstill hs).locked_receive (h.steady_host hp hs) (hlocked s hs).permit line)
    · exact .locked (hlocked s hs)

theorem Released.still {call : Call} (h : b.Lawful i config) (hstill : b.Still) (hc : c.Still)
    (hs : s ∈ c.sessions) (hr : Released b call s) : s.Locked := by
  cases hr with
  | opened hm hcall =>
    obtain ⟨hm, hg⟩ := mem_blocked.mp hm
    exact (hc.not_opened (h.atRest hstill hm) hg hs).elim
  | calledOff hm hcall => exact (hc.not_cancelled (mem_blocked.mp hm).2 hs).elim
  | locked hl => exact hl

/-- Unless the host resumes single runs, every gate holds every run between its calls. -/
theorem Scheduled.locked {grants : Nat → Bool} {sink : Sink} {calls : List (Nat × Call)}
    (h : Scheduled (create i.engine grants sink config) calls b) (hp : config.run.pause = .host)
    (hn : ∀ p ∈ calls, ∀ id, p.2 ≠ .resumeSession id) : ∀ s ∈ b.sessions, s.Locked := by
  induction h with
  | start => exact fun s hs => by cases hs
  | @call calls b c ticket call h ht hs ih =>
    obtain ⟨hlaw, hstill⟩ := h.lawful
    have hlocked := ih fun p hm => hn p (List.mem_append_left _ hm)
    have hcall := hn (ticket, call) (List.mem_append_right _ List.mem_cons_self)
    have hall := ht.keep (fun h₁ hs hr hbeat => hr.beat hlaw hstill hp h₁ hs hbeat)
      (hlaw.apply hstill ticket call) (released_apply hlaw hstill hp hlocked hcall ticket)
    exact fun s hm => (hall s hm).still hlaw hstill hs hm

/-- A checkpoint is passed only by a call that found the run standing there. -/
theorem Released.getsPast {call : Call} {outcome : GateOutcome} (h : b.Lawful i config)
    (hstill : b.Still) (hr : Released b call s) (hs : s.Poised) (hg : s.GetsPast outcome) :
    ∃ s₀ ∈ b.blocked, s₀.id = s.id ∧ s₀.phase = s.phase ∧
      (call = .resume ∧ outcome = .resumed ∨ b.callsOff call s.id ∧ outcome = .aborted) := by
  cases hr with
  | @opened s₀ hm hcall =>
    obtain ⟨hmem, hgate⟩ := mem_blocked.mp hm
    obtain ⟨-, ha, -⟩ := (h.atRest hstill hmem).atGate hgate
    refine ⟨s₀, hm, rfl, rfl, .inl ⟨hcall, ?_⟩⟩
    have ho := hg.2
    simp only [Gate.wait, Gate.resume, ha] at ho
    exact (Option.some.inj ho).symm
  | @calledOff s₀ hm hcall =>
    rw [Session.cancelled_of_isAtGate (mem_blocked.mp hm).2] at hg ⊢
    refine ⟨s₀, hm, rfl, rfl, .inr ⟨hcall, ?_⟩⟩
    have ho := hg.2
    simp only [Gate.wait, Gate.abort] at ho
    exact (Option.some.inj ho).symm
  | locked hl => exact absurd hg (hl.not_getsPast hs)

/-- A run that stands at its gate stays there unless the call is meant for it. -/
theorem stays_blocked {call : Call} (h : b.Lawful i config) (hstill : b.Still)
    (hn : ∀ id, call ≠ .resumeSession id) {ticket : Nat} (ht : Ticks (b.apply ticket call).1 c)
    (hs : s ∈ b.blocked) (hr : call ≠ .resume) (hc : ¬ b.callsOff call s.id) : s ∈ c.sessions := by
  obtain ⟨hm, hg⟩ := mem_blocked.mp hs
  have hrest := h.atRest hstill hm
  have hstart : ∀ t ∈ (b.apply ticket call).1.sessions, t.id = s.id → t = s := by
    intro t ht hid
    refine (h.apply hstill ticket call).eq_of_id ht ?_ hid
    obtain ⟨he, -⟩ | ⟨line, r, rs, -, -, he, -⟩ := apply_cases b ticket call <;> rw [he]
    · refine List.mem_append_left _ (List.mem_map.mpr ⟨s, hm, ?_⟩)
      obtain he | ⟨-, hcall⟩ | ⟨-, hcall, -⟩ := touch_cases b hn s
      · exact he
      · exact absurd hcall hc
      · exact absurd hcall hr
    · refine List.mem_map.mpr ⟨s, hm, ?_⟩
      obtain ⟨next, hphase, -⟩ := Session.work?_of_isAtGate hg
      split
      · exact Session.receive_of_not_isReading (by simp [Session.isReading, hphase])
      · rfl
  have hall := ht.keep (P := fun t => t.id = s.id → t = s)
    (fun _ _ hr hbeat hid => by
      obtain rfl := hr (hbeat.id.symm.trans hid)
      exact absurd hbeat (hrest.not_beat hg))
    (h.apply hstill ticket call) hstart
  obtain ⟨t, ht', hid⟩ : ∃ t ∈ c.sessions, t.id = s.id := by
    refine List.mem_map.mp ?_
    rw [ht.ids, ids_apply]
    exact List.mem_append_left _ (List.mem_map_of_mem hm)
  exact hall t ht' hid ▸ ht'

theorem collect_collect (b : Bridge) : b.collect.1.collect = (b.collect.1, []) := by
  have hw : ∀ w, b.collect.1.waitReply? w = b.waitReply? w := fun w => by cases w <;> rfl
  have hwaits : b.collect.1.waits.filter (fun p => (b.waitReply? p.2).isNone) = b.collect.1.waits := by
    simp only [collect, List.filter_filter, Bool.and_self]
  have hnone : b.collect.1.waits.filterMap (fun p => (b.waitReply? p.2).map fun r => (p.1, r)) = [] := by
    refine List.filterMap_eq_nil_iff.mpr fun p hp => ?_
    have hp := (List.mem_filter.mp hp).2
    rw [Option.isNone_iff_eq_none.mp hp, Option.map_none]
  rw [collect.eq_1 b.collect.1]
  simp only [hw, hwaits, hnone]
  rfl

theorem Scheduled.collect_eq {e : Engine σ} {grants : Nat → Bool} {sink : Sink}
    {calls : List (Nat × Call)}
    (h : Scheduled (create e grants sink config) calls b) : b.collect = (b, []) := by
  cases h with
  | start => rfl
  | call => exact collect_collect _

theorem perform_resume_of_nobody (h : b.Lawful i config) (hstill : b.Still) (hn : b.blocked = [])
    (hcollect : b.collect = (b, [])) (ticket : Nat) :
    b.perform ticket .resume = (b, { reply := some (.failed .notPaused) }) := by
  obtain ⟨happly, hticks⟩ := apply_resume_of_nobody h hstill hn ticket
  have hsettle : b.settle (fun _ => false) = b :=
    hticks _ (ticks_settle { b with sessions := [] } b.sessions)
  have hreply := reply_resume h hstill ticket
  rw [if_pos hn] at hreply
  simp only [perform, performUntil, happly, hreply, hsettle, hcollect]

/-- Where the host resumes, a call to resume lets through exactly the runs that are blocked at their
gate. It says how many they are, or that none is paused, and then it changes nothing. In whatever order
the runs go on after it, each of those is resumed once, every subscriber hears so once of each of them
and of no other, and no permit is left. So no checkpoint is skipped unless the host resumes single runs:
a run passes one only in a call that found it standing there, by being let through or called off, and in
any other call it stays. -/
theorem resume_releases_the_blocked (i : Interpreter) (grants : Nat → Bool) (sink : Sink)
    (config : Config) (hp : config.run.pause = .host) (calls : List (Nat × Call)) :
    let b₀ := create i.engine grants sink config
    Scheduled b₀ calls (b₀.after calls) ∧
    ∀ b, Scheduled b₀ calls b → ∀ ticket,
      (b.perform ticket .resume).2.reply =
        some (if b.blocked = [] then .failed .notPaused else .count b.blocked.length) ∧
      (b.blocked = [] → b.perform ticket .resume = (b, { reply := some (.failed .notPaused) }) ∧
        ∀ c, Ticks (b.apply ticket .resume).1 c → c = b) ∧
      (∀ c, Ticks (b.apply ticket .resume).1 c → c.Still →
        (∀ s ∈ b.blocked, ∃ s' ∈ c.sessions, s'.id = s.id ∧
          s'.gate.resumed = s.gate.resumed + 1) ∧
        (∃ es : List Envelope,
          es.filter (fun e => e.event = .resumed) = b.blocked.map (fun s => ⟨s.id, .resumed⟩) ∧
          ∀ u seen, b.hub.Hears u seen → c.hub.Hears u (seen ++ es)) ∧
        ∀ s' ∈ c.sessions, s'.gate.permit = true →
          ∃ s ∈ b.sessions, s.id = s'.id ∧ s.gate.permit = true) ∧
      ((∀ p ∈ calls, ∀ id, p.2 ≠ .resumeSession id) →
        (∀ s ∈ b.sessions, s.gate.permit = false) ∧
        ∀ call, (∀ id, call ≠ .resumeSession id) → ∀ c, Ticks (b.apply ticket call).1 c →
          (∀ s ∈ b.blocked, call ≠ .resume → ¬ b.callsOff call s.id → s ∈ c.sessions) ∧
          ∀ s ∈ c.sessions, ∀ outcome, s.GetsPast outcome →
            ∃ s₀ ∈ b.blocked, s₀.id = s.id ∧ s₀.phase = s.phase ∧
              (call = .resume ∧ outcome = .resumed ∨ b.callsOff call s.id ∧ outcome = .aborted)) := by
  intro b₀
  refine ⟨scheduled_after i.engine grants sink config calls, fun b hb ticket => ?_⟩
  obtain ⟨h, hstill⟩ := hb.lawful
  refine ⟨reply_resume h hstill ticket, fun hn => ⟨?_, fun c ht => ?_⟩, fun c ht hc => ?_,
    fun hn => ?_⟩
  · exact perform_resume_of_nobody h hstill hn hb.collect_eq ticket
  · obtain ⟨happly, hticks⟩ := apply_resume_of_nobody h hstill hn ticket
    exact hticks c (happly ▸ ht)
  · obtain ⟨hresumed, hpermits⟩ := resumed_still h hstill hp ht hc
    exact ⟨hresumed, resumed_heard h hstill hp ht, hpermits⟩
  · have hlocked := hb.locked hp hn
    refine ⟨fun s hs => (hlocked s hs).permit, fun call hcall c ht => ⟨fun s hs hr hc => ?_,
      fun s hs outcome hg => ?_⟩⟩
    · exact stays_blocked h hstill hcall ht hs hr hc
    · have hall := ht.keep (fun h₁ hs hr hbeat => hr.beat h hstill hp h₁ hs hbeat)
        (h.apply hstill ticket call) (released_apply h hstill hp hlocked hcall ticket)
      have hlaw := (h.apply hstill ticket call).ticks ht
      exact (hall s hs).getsPast h hstill (hlaw.steady s hs).toPoised hg

/-- A program with two checkpoints stands at the first; a call to resume lets it through that one. -/
theorem resume_releases_the_blocked_first_of_two :
    let config : Config := { run := { pause := .host } }
    let calls : List (Nat × Call) := [(0, .start "pause\npause" true)]
    let b := (create Interpreter.lines.engine (fun _ => true) (.capture "") config).after calls
    config.run.pause = .host ∧
      b.blocked.map (fun s => (s.id, s.gate.resumed)) = [(1, 0)] ∧
      (b.perform 1 .resume).2.reply = some (.count 1) ∧
      ∃ c, Ticks (b.apply 1 .resume).1 c ∧ c.Still ∧
        (∃ s ∈ c.sessions, s.id = 1 ∧ s.gate.resumed = 1) ∧ ∀ s ∈ c.sessions, s.gate.permit = false := by
  intro config calls b
  obtain ⟨hb, h⟩ :=
    resume_releases_the_blocked .lines (fun _ => true) (.capture "") config rfl calls
  obtain ⟨hreply, -, hresumed, hcalls⟩ := h b hb 1
  have hblocked : b.blocked.map (fun s => (s.id, s.gate.resumed)) = [(1, 0)] := by decide +kernel
  obtain ⟨s, he, hs⟩ := List.map_eq_singleton_iff.mp hblocked
  obtain ⟨hid, hcount⟩ := Prod.mk.inj hs
  obtain ⟨c, ht, hc⟩ := exists_still (b.apply 1 .resume).1
  obtain ⟨hone, -, hpermits⟩ := hresumed c ht hc
  obtain ⟨s', hs', hid', hcount'⟩ := hone s (by simp [he])
  obtain ⟨hnone, -⟩ := hcalls (by simp [calls])
  refine ⟨rfl, hblocked, ?_, c, ht, hc, ⟨s', hs', hid'.trans hid, ?_⟩, fun t htm => ?_⟩
  · rw [hreply, he]
    rfl
  · rw [hcount', hcount]
    rfl
  · by_contra hpermit
    obtain ⟨u, hu, -, hup⟩ := hpermits t htm (Bool.not_eq_false _ ▸ hpermit)
    rw [hnone u hu] at hup
    cases hup

end Bridge

end Conduit

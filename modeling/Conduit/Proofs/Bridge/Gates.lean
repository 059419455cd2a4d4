import Conduit.Proofs.Bridge.Settling

/-!
What holds a run at its gate. Where the host resumes, no step of a run opens its own gate, and whoever
learns that it is called off comes to no gate any more: without a permit from outside every gate holds.
-/
namespace Conduit

theorem Gate.permit_wait {g : Gate} (h : g.wait.1.permit = true) : g.permit = true := by
  obtain ⟨-, hw⟩ | ⟨-, hp, -⟩ | ⟨-, -, hw⟩ := g.wait_cases
  · rw [hw] at h
    exact h
  · exact hp
  · rw [hw] at h
    exact h

theorem Behaviour.Keeps.ne_openGate {α : Type} {ends : Station → α → Prop} {q : Station} {r : Request}
    {next : r.Reply → Behaviour α} (h : (ask r next).Keeps ends q) : r ≠ .openGate := by
  rintro rfl
  obtain ⟨⟨reply, q', hm⟩, -⟩ := h
  cases hm

theorem Stage.gate_reply {w : Worker Audience} {id : Nat} {st st' : Stage Audience} {r : Request}
    {reply : r.Reply} (hw : Attends w id .host) (ho : r ≠ .openGate) (ha : r ≠ .awaitGate)
    (h : st.serve w r = (st', some reply)) : st'.gate = st.gate := by
  cases r with
  | tell s =>
    obtain ⟨rfl, -⟩ := Prod.mk.inj h
    obtain ⟨journal, hs⟩ := hear_eq id .host s st
    have hshut : s.opensGate .host = false := by cases s <;> rfl
    rw [hw.hear, hs, hshut]
    rfl
  | read logged =>
    obtain ⟨-, -, journal, rfl⟩ | ⟨line, channel, served, -, -, -, rfl⟩ := serve_read_cases h <;> rfl
  | awaitGate => exact absurd rfl ha
  | openGate => exact absurd rfl ho
  | _ =>
    obtain ⟨rfl, -⟩ := Prod.mk.inj h
    rfl

namespace Session
variable {b b' : Bridge} {s s' : Session} {outcome : GateOutcome}

def GetsPast (s : Session) (outcome : GateOutcome) : Prop :=
  (∃ next, s.phase = .paused next ∨ s.phase = .ready (.ask .awaitGate next)) ∧
    s.gate.wait.2 = some outcome

/-- Every gate holds the run: it has no permit, and if it is called off it learns so before it comes to
a gate. So it bears its token as do runs that no gate can hold up. -/
structure Locked (s : Session) : Prop where
  permit : s.gate.permit = false
  station : ∀ rest, s.work? = some rest →
    ∃ q : Station, rest.Keeps Station.Ends q ∧ q.Bears .autoResume s.cancelled

theorem Locked.wait (h : s.Locked) (hp : s.Poised) {next : GateOutcome → Behaviour Ending}
    (hw : s.work? = some (.ask .awaitGate next)) : s.gate.wait.2 = none := by
  obtain ⟨q, hk, hb⟩ := h.station _ hw
  obtain rfl := hk.checkpoint_of_awaitGate
  have hlive : s.cancelled = false := by
    cases hc : s.cancelled with
    | false => rfl
    | true =>
      rw [hc] at hb
      obtain hoff | hoff | ⟨-, hoff⟩ := hb <;> cases hoff
  obtain ⟨ha, -⟩ | ⟨-, hpermit, -⟩ | ⟨-, -, hwait⟩ := s.gate.wait_cases
  · rw [hp.aborted, hlive] at ha
    cases ha
  · rw [h.permit] at hpermit
    cases hpermit
  · rw [hwait]

theorem Locked.not_getsPast (h : s.Locked) (hp : s.Poised) : ¬ s.GetsPast outcome := by
  rintro ⟨⟨next, hphase⟩, hwait⟩
  have hw : s.work? = some (.ask .awaitGate next) := by
    obtain hphase | hphase := hphase <;> simp only [work?, hphase]
  rw [h.wait hp hw] at hwait
  cases hwait

theorem Locked.beat (h : s.Locked) (hs : s.Steady .host) (hc : b.config.run.pause = .host)
    (hbeat : Bridge.Beat b s b' s') : s'.Locked ∧ s'.gate.resumed = s.gate.resumed := by
  cases hbeat with
  | takeUp hp hb => exact ⟨⟨h.permit, fun rest hr => h.station rest (by simpa [work?, hp] using hr)⟩, rfl⟩
  | @pass next gate outcome hp hg =>
    have hw : s.work? = some (.ask .awaitGate next) := by simp only [work?, hp]
    have hwait := h.wait hs.toPoised hw
    rw [hg] at hwait
    cases hwait
  | @met r next st reply hp hserve =>
    have hw : s.work? = some (.ask r next) := by simp [work?, hp]
    obtain ⟨q, hk, hb⟩ := h.station _ hw
    obtain ⟨q', -, hk', hb'⟩ := station_of_reply hk hb (Behaviour.agrees_reply hs.aborted hserve)
    have ha : r ≠ .awaitGate := by
      rintro rfl
      have hwait := h.wait hs.toPoised hw
      obtain ⟨-, hr⟩ := Prod.mk.inj hserve
      exact Option.some_ne_none _ (hr.symm.trans hwait)
    have hgate : st.gate = s.gate :=
      Stage.gate_reply (hc ▸ Bridge.attends_worker b s.id) hk.ne_openGate ha hserve
    refine ⟨⟨?_, fun rest hr => ?_⟩, congrArg Gate.resumed hgate⟩
    · exact (congrArg Gate.permit hgate).trans h.permit
    · cases hr
      exact ⟨q', hk', hb'⟩
  | @halt work hp hserve =>
    obtain ⟨hpermit, hresumed, hwork⟩ := Bridge.carryOn_of_unanswered hserve
    refine ⟨⟨hpermit.trans h.permit, fun rest hr => ?_⟩, hresumed⟩
    obtain rfl := hwork rest hr
    rw [(Bridge.moves_carryOn b s rest).cancelled]
    exact h.station rest (by simp [work?, hp])

theorem Steady.permit_beat (hs : s.Steady .host) (hc : b.config.run.pause = .host)
    (hbeat : Bridge.Beat b s b' s') (h : s'.gate.permit = true) : s.gate.permit = true := by
  cases hbeat with
  | takeUp => exact h
  | pass hp hg =>
    refine Gate.permit_wait ?_
    rw [hg]
    exact h
  | @met r next st reply hp hserve =>
    have hw : s.work? = some (.ask r next) := by simp [work?, hp]
    obtain ⟨q, hk, -⟩ := hs.station _ hw
    by_cases ha : r = .awaitGate
    · subst ha
      obtain ⟨rfl, -⟩ := Prod.mk.inj hserve
      exact Gate.permit_wait h
    · rw [← h]
      exact congrArg Gate.permit
        (Stage.gate_reply (hc ▸ Bridge.attends_worker b s.id) hk.ne_openGate ha hserve).symm
  | halt hp hserve => exact (Bridge.carryOn_of_unanswered hserve).1.symm.trans h

/-! Runs that stand at their gate -/

theorem beat_of_isAtGate (hg : s.isAtGate = true) (hbeat : Bridge.Beat b s b' s') :
    ∃ next outcome, s.work? = some (.ask .awaitGate next) ∧ s.gate.wait.2 = some outcome ∧
      s' = { s with gate := s.gate.wait.1, phase := .ready (next outcome) } := by
  obtain ⟨next, hphase, hw⟩ := work?_of_isAtGate hg
  cases hbeat with
  | @pass next' gate outcome hp hwait =>
    rw [hphase] at hp
    cases hp
    exact ⟨next, outcome, hw, by rw [hwait], by rw [hwait]⟩
  | takeUp hp | met hp | halt hp =>
    rw [hphase] at hp
    cases hp

theorem AtRest.not_beat (h : s.AtRest) (hg : s.isAtGate = true) : ¬ Bridge.Beat b s b' s' := by
  intro hbeat
  obtain ⟨next, outcome, -, hwait, -⟩ := beat_of_isAtGate hg hbeat
  have hshut := h.shut hg
  obtain ⟨ha, -⟩ | ⟨-, hp, -⟩ | ⟨-, -, hw⟩ := s.gate.wait_cases
  · rw [Gate.passes, ha] at hshut
    cases hshut
  · rw [Gate.passes, hp, Bool.or_true] at hshut
    cases hshut
  · rw [hw] at hwait
    cases hwait

theorem AtRest.atGate (h : s.AtRest) (hg : s.isAtGate = true) :
    s.gate.permit = false ∧ s.gate.aborted = false ∧ s.cancelled = false := by
  have hshut := h.shut hg
  rw [Gate.passes, Bool.or_eq_false_iff] at hshut
  exact ⟨hshut.2, hshut.1, h.aborted ▸ hshut.1⟩

theorem beat_of_opened (hs : s.Steady .host) (hr : s.AtRest) (hg : s.isAtGate = true)
    (hbeat : Bridge.Beat b { s with gate := s.gate.resume } b' s') :
    s'.Locked ∧ s'.gate.resumed = s.gate.resumed + 1 := by
  obtain ⟨-, ha, hlive⟩ := hr.atGate hg
  have hwait : s.gate.resume.wait =
      ({ s.gate.resume with permit := false, waiting := false, resumed := s.gate.resumed + 1 },
        some .resumed) := by
    simp [Gate.wait, Gate.resume, ha]
  obtain ⟨next, outcome, hw, ho, rfl⟩ :=
    beat_of_isAtGate (s := { s with gate := s.gate.resume }) hg hbeat
  simp only [hwait, Option.some.injEq] at ho ⊢
  subst ho
  obtain ⟨q, hk, -⟩ := hs.station _ hw
  obtain rfl := hk.checkpoint_of_awaitGate
  refine ⟨⟨rfl, fun rest hrest => ?_⟩, trivial⟩
  cases hrest
  refine ⟨.running, hk.2 _ _ .pass, ?_⟩
  rw [hlive]
  rfl

theorem cancelled_of_isAtGate (hg : s.isAtGate = true) :
    Bridge.cancelled s = { s with cancelled := true, gate := s.gate.abort } := by
  obtain ⟨next, hphase, -⟩ := work?_of_isAtGate hg
  simp only [Bridge.cancelled, hphase]

theorem beat_of_cancelled (hs : s.Steady .host) (hr : s.AtRest) (hg : s.isAtGate = true)
    (hbeat : Bridge.Beat b (Bridge.cancelled s) b' s') : s'.Locked := by
  obtain ⟨hpermit, -, -⟩ := hr.atGate hg
  have hwait : s.gate.abort.wait = ({ s.gate.abort with waiting := false }, some .aborted) := by
    simp [Gate.wait, Gate.abort]
  rw [cancelled_of_isAtGate hg] at hbeat
  obtain ⟨next, outcome, hw, ho, rfl⟩ :=
    beat_of_isAtGate (s := { s with cancelled := true, gate := s.gate.abort }) hg hbeat
  simp only [hwait, Option.some.injEq] at ho ⊢
  subst ho
  obtain ⟨q, hk, -⟩ := hs.station _ hw
  obtain rfl := hk.checkpoint_of_awaitGate
  refine ⟨hpermit, fun rest hrest => ?_⟩
  cases hrest
  exact ⟨.calledOff, hk.2 _ _ .abort, .inl rfl⟩

/-! Runs without a permit -/

theorem Steady.locked (hs : s.Steady .host) (hp : s.gate.permit = false) (hc : s.cancelled = false) :
    s.Locked := by
  refine ⟨hp, fun rest hw => ?_⟩
  obtain ⟨q, hk, hb, -, -⟩ := hs.station rest hw
  rw [hc] at hb ⊢
  exact ⟨q, hk, hb⟩

theorem AtRest.locked (h : s.AtRest) (hs : s.Steady .host) (hp : s.gate.permit = false) :
    s.Locked := by
  refine ⟨hp, fun rest hw => ?_⟩
  obtain ⟨q, hk, hb, hfresh, -⟩ := hs.station rest hw
  refine ⟨q, hk, ?_⟩
  obtain hf | ⟨-, hu | ⟨-, hwaits⟩⟩ := h.cases
  · rw [isFinished, report?_eq_none hw] at hf
    cases hf
  · rw [hfresh hu]
    cases s.cancelled with
    | false => rfl
    | true => exact .inr (.inl rfl)
  · -- Whoever waits for a line or at its gate has not been called off.
    have hlive : s.cancelled = false := hwaits.elim h.reading fun hg => (h.atGate hg).2.2
    rw [hlive] at hb ⊢
    exact hb

theorem work?_cancelled (h : s.isReading = false) : (Bridge.cancelled s).work? = s.work? := by
  unfold isReading at h
  unfold Bridge.cancelled work?
  cases hp : s.phase with
  | reading logged next =>
    rw [hp] at h
    cases h
  | _ => simp only

/-- Called off anywhere but at its gate, a run learns so before it comes to one. -/
theorem AtRest.locked_cancelled (h : s.AtRest) (hs : s.Steady .host) (hg : s.isAtGate = false)
    (hp : s.gate.permit = false) : (Bridge.cancelled s).Locked := by
  have hoff := cancelled_cancelled s
  have hpermit : (Bridge.cancelled s).gate.permit = false := by
    unfold Bridge.cancelled
    cases s.phase <;> exact hp
  refine ⟨hpermit, fun rest hw => ?_⟩
  rw [hoff]
  have hf : s.isFinished = false := by
    rw [← (alike_cancelled s).finished, isFinished, report?_eq_none hw]
    rfl
  obtain hfin | ⟨-, hu | ⟨-, hread | hgate⟩⟩ := h.cases
  · rw [hf] at hfin
    cases hfin
  · have hwaits : s.isReading = false := by
      by_contra hread
      rw [(of_isReading (Bool.not_eq_false _ ▸ hread)).1] at hu
      cases hu
    rw [work?_cancelled hwaits] at hw
    obtain ⟨q, hk, -, hfresh, -⟩ := hs.station rest hw
    exact ⟨q, hk, .inr (.inl (hfresh hu))⟩
  · obtain ⟨logged, next, hphase, hw'⟩ := work?_of_isReading hread
    obtain ⟨q, hk, -⟩ := hs.station _ hw'
    obtain rfl := hk.running_of_read
    obtain rfl : next none = rest := by
      simpa [Bridge.cancelled, work?, hphase] using hw
    exact ⟨.calledOff, hk.2 _ _ (.miss logged), .inl rfl⟩
  · rw [hg] at hgate
    cases hgate

theorem receive_of_not_isReading (h : s.isReading = false) {line : String} : s.receive line = s := by
  unfold isReading at h
  unfold receive
  cases hp : s.phase with
  | reading logged next =>
    rw [hp] at h
    cases h
  | _ => simp only

theorem AtRest.locked_receive (h : s.AtRest) (hs : s.Steady .host) (hp : s.gate.permit = false)
    (line : String) : (s.receive line).Locked := by
  cases hread : s.isReading with
  | true =>
    have hn := Nudge.handOver line s hread
    refine (hs.nudge h hn).locked ?_ ?_
    · unfold receive
      cases s.phase <;> exact hp
    · have hlive := h.reading hread
      unfold receive
      cases s.phase <;> exact hlive
  | false =>
    rw [receive_of_not_isReading hread]
    exact h.locked hs hp

end Session

end Conduit

import Conduit.Proofs.Bridge.Transcript
import Conduit.Proofs.Engine.Interpreter
import Conduit.Proofs.Engine.Journey

/-!
The runs of an interpreter: at any time each of them stands at a station to which its dialogue has led,
and it waits for input, at its gate or for its turn only where the station allows it.
-/
namespace Conduit

namespace Session

structure Orderly (policy : PausePolicy) (work : Behaviour Ending) (xs : List Exchange) (q : Station)
    (ds : List Deed) (s : Session) : Prop extends Transcript policy work xs ds s where
  keeps : work.Keeps Station.Ends .fresh
  path : Station.fresh.Path xs q
  bears : s.isFinished = false → q.Bears policy s.cancelled
  off : q.isOff = true → s.cancelled = true
  passed : policy = .autoResume → ∀ x ∈ xs, x.isAbort = false

variable {s s' : Session} {policy : PausePolicy} {work rest : Behaviour Ending}
  {xs : List Exchange} {q : Station} {ds es : List Deed}

theorem exists_work (h : s.isFinished = false) : ∃ rest, s.work? = some rest := by
  obtain hw | ⟨r, hr⟩ := s.work?_or_report?
  · exact hw
  · rw [isFinished, hr] at h
    cases h

theorem work?_of_isReading (h : s.isReading = true) :
    ∃ logged next, s.phase = .reading logged next ∧ s.work? = some (.ask (.read logged) next) := by
  unfold isReading at h
  cases hp : s.phase <;> rw [hp] at h <;> cases h
  exact ⟨_, _, rfl, by simp only [work?, hp]⟩

theorem work?_of_isAtGate (h : s.isAtGate = true) :
    ∃ next, s.phase = .paused next ∧ s.work? = some (.ask .awaitGate next) := by
  unfold isAtGate at h
  cases hp : s.phase <;> rw [hp] at h <;> cases h
  exact ⟨_, rfl, by simp only [work?, hp]⟩

/-- A run at rest has finished, waits for its turn or for input, or stands at its gate. -/
theorem AtRest.cases (h : s.AtRest) :
    s.isFinished = true ∨ s.isFinished = false ∧
      (s.hasBegun = false ∨ s.hasBegun = true ∧ (s.isReading = true ∨ s.isAtGate = true)) := by
  have hr := h.ready
  unfold isReady at hr
  unfold isFinished report? hasBegun behind? isReading isAtGate
  cases hp : s.phase <;> simp_all

/-- A run at rest that has begun is held up. If that is for want of a line, it waits for one. -/
theorem Transcript.exists_heldUp (h : s.Transcript policy work xs ds) (hr : s.AtRest) (hxs : xs ≠ []) :
    ∃ rest, work.Reaches xs rest ∧ rest.IsHeldUp ∧
      ∀ logged next, rest = .ask (.read logged) next → s.phase = .reading logged next := by
  obtain ⟨rest, hreach, hw | ⟨outcome, hv, -⟩⟩ := h.leads
  · refine ⟨rest, hreach, ?_⟩
    obtain hf | ⟨-, hu | ⟨-, hread | hgate⟩⟩ := hr.cases
    · rw [isFinished, report?_eq_none hw] at hf
      cases hf
    · exact absurd (h.unbegun hu).1 hxs
    · obtain ⟨logged, next, hphase, hw'⟩ := work?_of_isReading hread
      cases hw.symm.trans hw'
      refine ⟨trivial, fun logged' next' heq => ?_⟩
      cases heq
      exact hphase
    · obtain ⟨next, -, hw'⟩ := work?_of_isAtGate hgate
      cases hw.symm.trans hw'
      exact ⟨trivial, fun _ _ heq => by cases heq⟩
  · refine ⟨rest, hreach, ?_⟩
    cases rest with
    | ask r next => cases hv
    | _ => exact ⟨trivial, fun _ _ heq => by cases heq⟩

namespace Orderly

theorem rest_keeps (h : s.Orderly policy work xs q ds) (hw : s.work? = some rest) :
    rest.Keeps Station.Ends q :=
  h.keeps.reaches (h.reaches hw) h.path

theorem accounts (h : s.Orderly policy work xs q ds) :
    q.Accounts policy (Dialogue.deeds policy {} xs) := by
  simpa using (Station.Accounts.start policy).path h.path

theorem fresh_of_unbegun (h : s.Orderly policy work xs q ds) (hb : s.hasBegun = false) :
    q = .fresh := by
  have hp := h.path
  rw [(h.unbegun hb).1] at hp
  cases hp
  rfl

theorem running_of_isReading (h : s.Orderly policy work xs q ds) (hr : s.isReading = true) :
    q = .running := by
  obtain ⟨logged, next, -, hw⟩ := work?_of_isReading hr
  exact (h.rest_keeps hw).running_of_read

theorem checkpoint_of_isAtGate (h : s.Orderly policy work xs q ds) (hg : s.isAtGate = true) :
    q = .checkpoint := by
  obtain ⟨next, -, hw⟩ := work?_of_isAtGate hg
  exact (h.rest_keeps hw).checkpoint_of_awaitGate

/-- Where pauses are resumed by themselves no run comes to rest at its gate. -/
theorem isAtGate_eq_false (h : s.Orderly .autoResume work xs q ds) (hr : s.AtRest) :
    s.isAtGate = false := by
  by_contra hg
  rw [Bool.not_eq_false] at hg
  obtain rfl := h.checkpoint_of_isAtGate hg
  obtain ⟨ys, line, wasPrint, rfl⟩ := h.path.checkpoint
  have hpermit := h.opened _ List.getLast?_concat rfl
  have hshut := hr.shut hg
  rw [Gate.passes, hpermit, Bool.or_true] at hshut
  cases hshut

theorem closes (h : s.Orderly policy work xs q ds) {r : RunReport} (hr : s.report? = some r) :
    q = .dropped ∧ r.outcome = .cancelled ∨ q = .rejected ∧ r.outcome = .analysisFailed ∨
    (∃ off, q = .gone off ∧
      r.outcome = if off then .cancelled else if s.tally.failed then .runtimeError else .completed) ∨
    q = .running ∧ r.outcome = .panicked := by
  obtain ⟨-, rest, hreach, hv⟩ := h.report hr
  have hk := h.keeps.reaches hreach h.path
  cases rest with
  | ask r next => cases hv
  | panic m => exact .inr (.inr (.inr ⟨hk, (Option.some.inj hv).symm⟩))
  | done ending =>
    have ho : r.outcome = Stage.outcomeOf s.tally ending := (Option.some.inj hv).symm
    cases q with
    | dropped => exact .inl ⟨rfl, by rw [ho, hk]; rfl⟩
    | rejected => exact .inr (.inl ⟨rfl, by rw [ho, hk]; rfl⟩)
    | gone off =>
      refine .inr (.inr (.inl ⟨off, rfl, ?_⟩))
      rw [ho, hk]
      cases off <;> rfl
    | _ => cases hk

/-- A run at rest has announced a checkpoint that it has not passed exactly if it is blocked there. -/
theorem unpassed_eq (h : s.Orderly policy work xs q ds) (hr : s.AtRest) :
    q.unpassed = if s.isPaused then 1 else 0 := by
  have hp : s.isPaused = s.isAtGate := hr.waiting
  rw [hp]
  cases hg : s.isAtGate with
  | true =>
    rw [h.checkpoint_of_isAtGate hg]
    rfl
  | false =>
    obtain hf | ⟨-, hu | ⟨-, hread | hgate⟩⟩ := hr.cases
    · obtain ⟨r, hrep⟩ := Option.isSome_iff_exists.mp hf
      obtain ⟨rfl, -⟩ | ⟨rfl, -⟩ | ⟨off, rfl, -⟩ | ⟨rfl, -⟩ := h.closes hrep <;> rfl
    · rw [h.fresh_of_unbegun hu]
      rfl
    · rw [h.running_of_isReading hread]
      rfl
    · rw [hg] at hgate
      cases hgate

theorem fresh (policy : PausePolicy) (b : Bridge) (id : Nat) (source : String)
    (hk : (b.drive source).Keeps Station.Ends .fresh) (hd : (b.drive source).hasEnded = false) :
    ({ id, phase := b.firstPhase source } : Session).Orderly policy (b.drive source) [] .fresh [] where
  toTranscript := .fresh policy b id source hd
  keeps := hk
  path := .refl _
  bears := fun _ => rfl
  off := fun h => by cases h
  passed := by simp

theorem advance {b : Bridge} (h : s.Orderly policy work xs q ds) (hp : s.Poised)
    (hc : b.config.run.pause = policy) :
    ∃ ys q', (b.advance (fun _ => false) s).2.Orderly policy work (xs ++ ys) q'
        (ds ++ b.advanceDeeds s) ∧ q.Path ys q' ∧ ∀ y ∈ ys, y.Agrees s.cancelled := by
  cases hf : s.isFinished with
  | true =>
    obtain ⟨hstay, hquiet⟩ := Bridge.advance_of_isFinished b hf
    refine ⟨[], q, ?_, .refl q, by simp⟩
    simpa [hstay, hquiet] using h
  | false =>
    obtain ⟨rest, hw⟩ := exists_work hf
    obtain ⟨ys, ht, ha⟩ := h.toTranscript.advance hp hc
    obtain ⟨rest', hr, -⟩ := ht.leads
    obtain ⟨q', hpath, hb, hn⟩ := (h.rest_keeps hw).path (hr.of_append (h.reaches hw)) (h.bears hf) ha
    have hcancelled := Bridge.cancelled_advance b s
    refine ⟨ys, q', ⟨ht, h.keeps, h.path.trans hpath, fun _ => hcancelled ▸ hb, fun ho => ?_,
      fun hauto x hx => ?_⟩, hpath, ha⟩
    · rw [hcancelled]
      exact hb.eq_true ho
    · rcases List.mem_append.mp hx with hx | hx
      · exact h.passed hauto x hx
      · exact hn hauto x hx

theorem nudge (h : s.Orderly policy work xs q ds) (hr : s.AtRest) (hn : Nudge s es s') :
    ∃ ys q', s'.Orderly policy work (xs ++ ys) q' (ds ++ es) ∧
      (q' = q ∨ q = .running ∧ ∃ logged reply, q.Move (.read logged) reply q') := by
  have hp' := hn.poised hr
  obtain ⟨rfl, hp, hta, hre, hpe, hca⟩ | ⟨logged, next, reply, hp, hp', rfl, hta, hre, hca⟩ := hn.cases
  · refine ⟨[], q, ?_, .inl rfl⟩
    rw [List.append_nil, List.append_nil]
    refine ⟨h.toTranscript.still hn.alike.id hp hta hre hpe, h.keeps, h.path, fun hf => ?_,
      fun ho => hca (h.off ho), h.passed⟩
    have hfs : s.isFinished = false := hn.alike.finished.symm.trans hf
    have hb := h.bears hfs
    cases hc' : s'.cancelled with
    | false =>
      have hcs : s.cancelled = false := by
        cases hcs : s.cancelled with
        | false => rfl
        | true => rw [hca hcs] at hc'; cases hc'
      rwa [hcs] at hb
    | true =>
      -- A run may bear a token that it does not know of where it looks at it next: before it begins
      -- and at a checkpoint. One that stood at a read would have been answered there.
      obtain hfin | ⟨-, hu | ⟨-, hread | hgate⟩⟩ := hr.cases
      · rw [hfs] at hfin
        cases hfin
      · exact .inr (.inl (h.fresh_of_unbegun hu))
      · have := hp'.reading (by simpa only [isReading, hp] using hread)
        rw [hc'] at this
        cases this
      · refine .inr (.inr ⟨h.checkpoint_of_isAtGate hgate, ?_⟩)
        cases policy with
        | host => rfl
        | autoResume =>
          rw [h.isAtGate_eq_false hr] at hgate
          cases hgate
  · have hread : s.isReading = true := by simp only [isReading, hp]
    obtain rfl := h.running_of_isReading hread
    have hlive := hr.reading hread
    have hmove : ∃ q', Station.running.Move (.read logged) reply q' ∧ q'.isOff = s'.cancelled := by
      rw [hca, hlive, Bool.false_or]
      cases reply with
      | none => exact ⟨_, .miss logged, rfl⟩
      | some line => exact ⟨_, .take logged line, rfl⟩
    obtain ⟨q', hm, ho⟩ := hmove
    have hpath : Station.running.Path [⟨.read logged, reply⟩] q' := .more hm (.refl q')
    refine ⟨[⟨.read logged, reply⟩], q', ⟨h.toTranscript.met hp hp' hta hre, h.keeps,
      h.path.trans hpath, fun _ => ?_, fun hq => ho ▸ hq, fun hauto x hx => ?_⟩,
      .inr ⟨rfl, logged, reply, hm⟩⟩
    · cases hc : s'.cancelled with
      | true => exact .inl (ho.trans hc)
      | false => exact ho.trans hc
    · rcases List.mem_append.mp hx with hx | hx
      · exact h.passed hauto x hx
      · rw [List.mem_singleton.mp hx]
        rfl

end Orderly

end Session

namespace Bridge

theorem lasting_orderly (i : Interpreter) (config : Config) (given : Nat → String → Prop) :
    Lasting config (i.engine.drive config.run.debug) given fun ds s => ∃ source xs q,
      given s.id source ∧
        s.Orderly config.run.pause (i.engine.drive config.run.debug source) xs q ds where
  fresh := by
    intro b source _ _ hd hg
    have hk := i.keeps_drive config.run.debug source
    exact ⟨source, [], .fresh, hg, hd ▸ .fresh _ b b.nextId source (hd ▸ hk) (hd ▸ rfl)⟩
  nudge := by
    rintro ds es s s' hr ⟨source, xs, q, hg, h⟩ hn
    obtain ⟨ys, q', h', -⟩ := h.nudge hr hn
    exact ⟨source, xs ++ ys, q', hn.alike.id ▸ hg, h'⟩
  advance := by
    rintro b ds s rfl hp ⟨source, xs, q, hg, h⟩
    obtain ⟨ys, q', h', -⟩ := h.advance hp rfl
    exact ⟨source, xs ++ ys, q', (id_advance b s).symm ▸ hg, h'⟩

/-- Whatever is asked of a bridge with an interpreter, its runs are orderly. -/
theorem orderly_runs (i : Interpreter) (grants : Nat → Bool) (sink : Sink) (config : Config)
    (calls : List (Nat × Call)) :
    Settled config (i.engine.drive config.run.debug) (fun ds s => ∃ source xs q,
        (s.id, source) ∈ (create i.engine grants sink config).programs calls ∧
          s.Orderly config.run.pause (i.engine.drive config.run.debug source) xs q ds)
      ((create i.engine grants sink config).history calls)
      ((create i.engine grants sink config).after calls) :=
  (lasting_orderly i config fun id source =>
    (id, source) ∈ (create i.engine grants sink config).programs calls).settled grants sink calls
      fun _ hp => hp

end Bridge

end Conduit

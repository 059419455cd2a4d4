import Conduit.Proofs.Bridge.Round

/-!
The dialogue of a run over all its turns. Whatever its engine asks for, the deeds of a run are those of
its dialogue, what is counted of it can be told from them, and the report of a run that has finished says
what they come to.
-/
namespace Conduit

def Behaviour.verdict? (t : Tally) : Behaviour Ending → Option RunOutcome
  | .done ending => some (Stage.outcomeOf t ending)
  | .panic _ => some .panicked
  | .ask _ _ => none

namespace Session

def closing (s : Session) : List Deed :=
  match s.report? with
  | some r => [.publish (.finished r.outcome)]
  | none => []

def Leaves (s : Session) (rest : Behaviour Ending) : Prop :=
  s.work? = some rest ∨ ∃ outcome, rest.verdict? s.tally = some outcome ∧
    s.report? = some { session := s.id, outcome, pauses := s.tally.pauses,
                       resumes := s.gate.resumed, reads := s.tally.reads }

theorem report?_eq_none {s : Session} {rest : Behaviour Ending} (h : s.work? = some rest) :
    s.report? = none := by
  unfold work? at h
  unfold report?
  cases hp : s.phase <;> simp_all

theorem after_closing (s : Session) (t : Tally) : t.after s.closing = t := by
  unfold closing
  split <;> rfl

theorem resumes_closing (s : Session) : Deed.resumes s.closing = 0 := by
  unfold closing
  split <;> rfl

/-- The run `s` was given the work `work`, has been through the dialogue `xs` and has done the
deeds `ds`. -/
structure Transcript (policy : PausePolicy) (work : Behaviour Ending) (xs : List Exchange)
    (ds : List Deed) (s : Session) : Prop where
  deeds : ∃ lines : List String,
    ds = lines.map .discard ++ Dialogue.deeds policy {} xs ++ s.closing
  unbegun : s.hasBegun = false → xs = [] ∧ ds = []
  tally : s.tally = ({} : Tally).after (Dialogue.deeds policy {} xs)
  resumed : s.gate.resumed = .ofNat (Deed.resumes (Dialogue.deeds policy {} xs))
  leads : ∃ rest, work.Reaches xs rest ∧ s.Leaves rest
  /-- There is something left to ask for, unless a read has just been met. -/
  asks : ∀ rest, s.work? = some rest → rest.hasEnded = true →
    ∃ ys logged reply, xs = ys ++ [⟨.read logged, reply⟩]
  opened : ∀ x, xs.getLast? = some x → x.opensGate policy = true → s.gate.permit = true

theorem AtRest.hasEnded {s : Session} (h : s.AtRest) {rest : Behaviour Ending} (hb : s.hasBegun = true)
    (hw : s.work? = some rest) : rest.hasEnded = false := by
  have hr := h.ready
  unfold work? at hw
  unfold isReady at hr
  unfold hasBegun behind? at hb
  cases hp : s.phase <;> rw [hp] at hw hr hb <;> cases hw <;> simp_all [Behaviour.hasEnded]

end Session

namespace Bridge
variable {b : Bridge} {s : Session} {policy : PausePolicy} {work rest : Behaviour Ending}
  {xs : List Exchange} {ds : List Deed}

theorem carryOn_leaves (b : Bridge) (s : Session) (rest : Behaviour Ending) :
    (b.carryOn (fun _ => false) s rest).2.Leaves
      (rest.run (b.worker s.id) Behaviour.never (b.stageOf s)).2.rest := by
  rw [carryOn_eq]
  cases rest.run (b.worker s.id) Behaviour.never (b.stageOf s) with
  | mk st progress =>
    cases progress with
    | done ending => cases ending <;> exact .inr ⟨_, rfl, rfl⟩
    | panicked m => exact .inr ⟨_, rfl, rfl⟩
    | reading logged next => exact .inl rfl
    | paused next => exact .inl rfl
    | held rest => exact .inl rfl

theorem carryOnDeeds_eq (b : Bridge) (s : Session) (rest : Behaviour Ending) :
    b.carryOnDeeds s rest = rest.deeds (b.worker s.id) b.config.run.pause (b.stageOf s) ++
      (b.carryOn (fun _ => false) s rest).2.closing := by
  unfold carryOnDeeds Session.closing Session.report?
  cases (b.carryOn (fun _ => false) s rest).2.phase <;> rfl

theorem permit_carryOn (b : Bridge) (s : Session) (rest : Behaviour Ending) :
    (b.carryOn (fun _ => false) s rest).2.gate.permit =
      (rest.run (b.worker s.id) Behaviour.never (b.stageOf s)).1.gate.permit := by
  rw [carryOn_eq]
  cases rest.run (b.worker s.id) Behaviour.never (b.stageOf s) with
  | mk st progress =>
    cases progress with
    | done ending => cases ending <;> rfl
    | _ => rfl

theorem transcript_carryOn (b : Bridge) (xs : List Exchange) (lines : List String)
    (hc : b.config.run.pause = policy) (ha : s.gate.aborted = s.cancelled) (hw : s.gate.waiting = false)
    (htally : s.tally = ({} : Tally).after (Dialogue.deeds policy {} xs))
    (hresumed : s.gate.resumed = .ofNat (Deed.resumes (Dialogue.deeds policy {} xs)))
    (hopened : ∀ x, xs.getLast? = some x → x.opensGate policy = true → s.gate.permit = true)
    (hreach : work.Reaches xs rest) :
    (b.carryOn (fun _ => false) s rest).2.Transcript policy work
      (xs ++ rest.dialogue (b.worker s.id) (b.stageOf s))
      (lines.map .discard ++ Dialogue.deeds policy {} xs ++ b.carryOnDeeds s rest) := by
  subst hc
  have hm := moves_carryOn b s rest
  have hrest := atRest_carryOn b rest ha hw
  have hd : Dialogue.deeds b.config.run.pause {} (xs ++ rest.dialogue (b.worker s.id) (b.stageOf s)) =
      Dialogue.deeds b.config.run.pause {} xs ++
        rest.deeds (b.worker s.id) b.config.run.pause (b.stageOf s) := by
    rw [Dialogue.deeds_append, ← htally, Behaviour.deeds_dialogue (attends_worker b s.id)]
    rfl
  have hall := carryOnDeeds_eq b s rest
  have hpermit := Behaviour.permit_run (attends_worker b s.id) rest (b.stageOf s)
  refine ⟨⟨lines, ?_⟩, fun hn => ?_, ?_, ?_, ⟨_, hreach.trans (Behaviour.reaches_run _ _ _), ?_⟩,
    fun rest' hw' he => ?_, fun x hx ho => ?_⟩
  · rw [hd, hall, List.append_assoc, List.append_assoc, List.append_assoc]
  · rw [hm.begun] at hn
    cases hn
  · have ht : (b.carryOn (fun _ => false) s rest).2.tally = s.tally.after (b.carryOnDeeds s rest) :=
      hm.tally
    rw [ht, hall, Tally.after_append, Session.after_closing, hd, Tally.after_append, htally]
  · rw [hm.resumed, hall, Deed.resumes_append, Session.resumes_closing, Nat.add_zero, hd,
      Deed.resumes_append, hresumed, UInt32.ofNat_add]
  · exact carryOn_leaves b s rest
  · rw [hrest.hasEnded hm.begun hw'] at he
    cases he
  · rw [permit_carryOn]
    rw [List.getLast?_append] at hx
    cases hy : (rest.dialogue (b.worker s.id) (b.stageOf s)).getLast? with
    | none =>
      rw [hy] at hx
      rw [hpermit.1 (List.getLast?_eq_none_iff.mp hy)]
      exact hopened x hx ho
    | some y =>
      rw [hy] at hx
      cases hx
      exact hpermit.2 x hy ho

end Bridge

namespace Session.Transcript
variable {b : Bridge} {s s' : Session} {policy : PausePolicy} {work rest : Behaviour Ending}
  {xs : List Exchange} {ds es : List Deed}

theorem closing_of_work (hw : s.work? = some rest) : s.closing = [] := by
  rw [closing, report?_eq_none hw]

theorem reaches (h : s.Transcript policy work xs ds) (hw : s.work? = some rest) :
    work.Reaches xs rest := by
  obtain ⟨rest', hr, he | ⟨outcome, -, he⟩⟩ := h.leads
  · rw [hw] at he
    exact Option.some.inj he ▸ hr
  · rw [report?_eq_none hw] at he
    cases he

theorem deeds_of_work (h : s.Transcript policy work xs ds) (hw : s.work? = some rest) :
    ∃ lines : List String, ds = lines.map .discard ++ Dialogue.deeds policy {} xs := by
  obtain ⟨lines, hd⟩ := h.deeds
  exact ⟨lines, by rw [hd, closing_of_work hw, List.append_nil]⟩

theorem report (h : s.Transcript policy work xs ds) {r : RunReport} (hr : s.report? = some r) :
    r = { session := s.id, outcome := r.outcome, pauses := s.tally.pauses,
          resumes := s.gate.resumed, reads := s.tally.reads } ∧
    ∃ rest, work.Reaches xs rest ∧ rest.verdict? s.tally = some r.outcome := by
  obtain ⟨rest, hreach, hw | ⟨outcome, hv, he⟩⟩ := h.leads
  · rw [report?_eq_none hw] at hr
    cases hr
  · obtain rfl := Option.some.inj (he.symm.trans hr)
    exact ⟨rfl, rest, hreach, hv⟩

/-- But for the lines that it throws away, a run does what its dialogue says and tells of its end. -/
theorem filterMap_deeds {β : Type} {g : Deed → Option β} (h : s.Transcript policy work xs ds)
    (hg : ∀ line, g (.discard line) = none) :
    ds.filterMap g = (Dialogue.deeds policy {} xs).filterMap g ++ s.closing.filterMap g := by
  obtain ⟨lines, rfl⟩ := h.deeds
  have hlines : (lines.map .discard).filterMap g = [] := by
    simp [hg]
  rw [List.filterMap_append, List.filterMap_append, hlines, List.nil_append]

theorem publications (h : s.Transcript policy work xs ds) :
    Deed.publications ds =
      Deed.publications (Dialogue.deeds policy {} xs) ++ Deed.publications s.closing :=
  h.filterMap_deeds fun _ => rfl

theorem filterMap_since {β : Type} {g : Deed → Option β} {ys : List Exchange}
    (h : s.Transcript policy work xs ds) (hw : s.work? = some rest)
    (h' : s'.Transcript policy work (xs ++ ys) (ds ++ es)) (hg : ∀ line, g (.discard line) = none) :
    es.filterMap g = (Dialogue.deeds policy s.tally ys).filterMap g ++ s'.closing.filterMap g := by
  have hall := h'.filterMap_deeds hg
  rw [Dialogue.deeds_append, ← h.tally, List.filterMap_append, List.filterMap_append,
    h.filterMap_deeds hg, closing_of_work hw, List.filterMap_nil, List.append_nil,
    List.append_assoc] at hall
  exact List.append_cancel_left hall

theorem fresh (policy : PausePolicy) (b : Bridge) (id : Nat) (source : String)
    (hd : (b.drive source).hasEnded = false) :
    ({ id, phase := b.firstPhase source } : Session).Transcript policy (b.drive source) [] [] := by
  have hw : ({ id, phase := b.firstPhase source } : Session).work? = some (b.drive source) := by
    unfold Bridge.firstPhase
    split <;> rfl
  refine ⟨⟨[], ?_⟩, fun _ => ⟨rfl, rfl⟩, rfl, rfl, ⟨_, .refl _, .inl hw⟩, fun rest hr he => ?_,
    by simp⟩
  · rw [closing_of_work hw]
    rfl
  · rw [hw] at hr
    rw [← Option.some.inj hr, hd] at he
    cases he

theorem agrees_dialogue (b : Bridge) (rest : Behaviour Ending) (ha : s.gate.aborted = s.cancelled) :
    ∀ y ∈ rest.dialogue (b.worker s.id) (b.stageOf s), y.Agrees s.cancelled :=
  Behaviour.agrees_run (Bridge.attends_worker b s.id) rest (b.stageOf s) ha

/-- A run that gets past the checkpoint at which it stood was told first how it got past it. -/
theorem advance_passed {next : GateOutcome → Behaviour Ending} {gate : Gate}
    {outcome : GateOutcome}
    (h : s.Transcript policy work xs ds) (hc : b.config.run.pause = policy)
    (phase : s.phase = .paused next) (hg : s.gate.wait = (gate, some outcome))
    (aborted : gate.aborted = s.cancelled) (waiting : gate.waiting = false)
    (resumed : gate.resumed = s.gate.resumed + .ofNat (Deed.resumes [.pass outcome]))
    (ho : outcome = if s.cancelled then .aborted else .resumed) :
    ∃ ys, (b.advance (fun _ => false) s).2.Transcript policy work (xs ++ ys)
        (ds ++ b.advanceDeeds s) ∧ ∀ y ∈ ys, y.Agrees s.cancelled := by
  have hw : s.work? = some (.ask .awaitGate next) := by simp [work?, phase]
  obtain ⟨lines, rfl⟩ := h.deeds_of_work hw
  have hd : Dialogue.deeds policy {} (xs ++ [⟨.awaitGate, outcome⟩]) =
      Dialogue.deeds policy {} xs ++ [.pass outcome] := by
    rw [Dialogue.deeds_append, Dialogue.deeds_singleton]
    rfl
  have hopened : ∀ x, (xs ++ [(⟨.awaitGate, outcome⟩ : Exchange)]).getLast? = some x →
      x.opensGate policy = true → gate.permit = true := by
    intro x hx ho
    rw [List.getLast?_concat] at hx
    cases hx
    cases ho
  have ht := Bridge.transcript_carryOn (s := { s with gate }) b (xs ++ [⟨.awaitGate, outcome⟩])
    lines hc aborted waiting (by rw [hd, Tally.after_append]; exact h.tally)
    (by rw [hd, Deed.resumes_append, UInt32.ofNat_add, ← h.resumed]; exact resumed) hopened
    ((h.reaches hw).reply outcome)
  refine ⟨⟨.awaitGate, outcome⟩ ::
    (next outcome).dialogue (b.worker s.id) (b.stageOf { s with gate }), ?_, ?_⟩
  · simp only [Bridge.advance, Bridge.advanceDeeds, phase, hg]
    simpa [hd, phase] using ht
  · intro y hy
    rcases List.mem_cons.mp hy with rfl | hy
    · exact ho
    · exact agrees_dialogue (s := { s with gate }) b (next outcome) aborted y hy

theorem advance (h : s.Transcript policy work xs ds) (hp : s.Poised)
    (hc : b.config.run.pause = policy) :
    ∃ ys, (b.advance (fun _ => false) s).2.Transcript policy work (xs ++ ys)
        (ds ++ b.advanceDeeds s) ∧ ∀ y ∈ ys, y.Agrees s.cancelled := by
  have hwait := hp.waiting
  cases hph : s.phase with
  | finished r | reading logged next =>
    refine ⟨[], ?_, by simp⟩
    simp only [Bridge.advance, Bridge.advanceDeeds, hph, List.append_nil]
    exact h
  | ready rest =>
    have hw : s.work? = some rest := by simp [work?, hph]
    obtain ⟨lines, rfl⟩ := h.deeds_of_work hw
    refine ⟨_, ?_, agrees_dialogue b rest hp.aborted⟩
    simp only [Bridge.advance, Bridge.advanceDeeds, hph]
    exact Bridge.transcript_carryOn b xs lines hc hp.aborted (by rw [hwait, isAtGate, hph]) h.tally
      h.resumed h.opened (h.reaches hw)
  | queued behind rest =>
    have hw : s.work? = some rest := by simp [work?, hph]
    obtain ⟨rfl, rfl⟩ := h.unbegun (by simp [hasBegun, behind?, hph])
    simp only [Bridge.advance, Bridge.advanceDeeds, hph]
    split
    · obtain ⟨journal, admitted, he⟩ := Bridge.clearInput_eq b (.worker s.id)
      have hc' : (b.clearInput (.worker s.id)).config.run.pause = policy := by rw [he, hc]
      refine ⟨_, ?_, agrees_dialogue (b.clearInput (.worker s.id)) rest hp.aborted⟩
      have ht := Bridge.transcript_carryOn (b.clearInput (.worker s.id)) [] b.channel.lines hc'
        hp.aborted (by rw [hwait, isAtGate, hph]) h.tally h.resumed (by simp)
        (h.reaches hw)
      simpa [Dialogue.deeds] using ht
    · refine ⟨[], ?_, by simp⟩
      simpa using h
  | paused next =>
    obtain ⟨ha, hg⟩ | ⟨ha, -, hg⟩ | ⟨-, -, hg⟩ := s.gate.wait_cases
    · exact h.advance_passed hc hph hg hp.aborted rfl (UInt32.add_zero _).symm
        (by rw [← hp.aborted, ha]; rfl)
    · exact h.advance_passed hc hph hg hp.aborted rfl rfl (by rw [← hp.aborted, ha]; rfl)
    · refine ⟨[], ?_, by simp⟩
      simp only [Bridge.advance, Bridge.advanceDeeds, hph, hg, List.append_nil]
      exact h

theorem still (h : s.Transcript policy work xs ds) (id : s'.id = s.id) (phase : s'.phase = s.phase)
    (tally : s'.tally = s.tally) (resumed : s'.gate.resumed = s.gate.resumed)
    (permit : s.gate.permit = true → s'.gate.permit = true) : s'.Transcript policy work xs ds := by
  have hwork : s'.work? = s.work? := by simp only [work?, phase]
  have hreport : s'.report? = s.report? := by simp only [report?, phase]
  refine ⟨?_, ?_, tally.trans h.tally, resumed.trans h.resumed, ?_, ?_,
    fun x hx ho => permit (h.opened x hx ho)⟩
  · simpa only [closing, hreport] using h.deeds
  · simpa only [hasBegun, behind?, phase] using h.unbegun
  · simpa only [Leaves, hwork, hreport, id, tally, resumed] using h.leads
  · simpa only [hwork] using h.asks

theorem met {logged : Bool} {next : Option String → Behaviour Ending} {reply : Option String}
    (h : s.Transcript policy work xs ds) (phase : s.phase = .reading logged next)
    (phase' : s'.phase = .ready (next reply)) (tally : s'.tally = s.tally)
    (resumed : s'.gate.resumed = s.gate.resumed) :
    s'.Transcript policy work (xs ++ [⟨.read logged, reply⟩])
      (ds ++ reply.toList.map .receive) := by
  have hw : s.work? = some (.ask (.read logged) next) := by simp only [work?, phase]
  have hw' : s'.work? = some (next reply) := by simp only [work?, phase']
  obtain ⟨lines, rfl⟩ := h.deeds_of_work hw
  have hd : Dialogue.deeds policy {} (xs ++ [⟨.read logged, reply⟩]) =
      Dialogue.deeds policy {} xs ++ reply.toList.map .receive := by
    rw [Dialogue.deeds_append, Dialogue.deeds_singleton]
    cases reply <;> rfl
  refine ⟨⟨lines, ?_⟩, ?_, ?_, ?_, ⟨_, (h.reaches hw).reply reply, .inl hw'⟩,
    fun _ _ _ => ⟨_, _, _, rfl⟩, fun x hx ho => ?_⟩
  · rw [hd, closing_of_work hw', List.append_nil, List.append_assoc]
  · simp [hasBegun, behind?, phase']
  · rw [hd, Tally.after_append, tally, h.tally]
    cases reply <;> rfl
  · rw [hd, Deed.resumes_append, resumed, h.resumed]
    cases reply <;> rfl
  · rw [List.getLast?_concat] at hx
    cases hx
    cases ho

end Session.Transcript

namespace Nudge
variable {s s' : Session} {es : List Deed}

/-- Either the token and the gate are all that changes, or a run that stood at a read has been answered
there. -/
theorem cases (h : Nudge s es s') :
    (es = [] ∧ s'.phase = s.phase ∧ s'.tally = s.tally ∧ s'.gate.resumed = s.gate.resumed ∧
      (s.gate.permit = true → s'.gate.permit = true) ∧
      (s.cancelled = true → s'.cancelled = true)) ∨
    ∃ logged next reply, s.phase = .reading logged next ∧ s'.phase = .ready (next reply) ∧
      es = reply.toList.map .receive ∧ s'.tally = s.tally ∧ s'.gate.resumed = s.gate.resumed ∧
      s'.cancelled = (s.cancelled || reply.isNone) := by
  cases h with
  | none => exact .inl ⟨rfl, rfl, rfl, rfl, id, id⟩
  | resume => exact .inl ⟨rfl, rfl, rfl, rfl, fun _ => rfl, id⟩
  | cancel =>
    unfold Bridge.cancelled
    cases hp : s.phase with
    | reading logged next => exact .inr ⟨logged, next, .none, rfl, rfl, rfl, rfl, rfl, by simp⟩
    | _ => exact .inl ⟨rfl, by simp, by simp, by simp [Gate.abort], by simp [Gate.abort], by simp⟩
  | handOver line _ h =>
    unfold Session.isReading at h
    unfold Session.receive
    cases hp : s.phase with
    | reading logged next => exact .inr ⟨logged, next, some line, rfl, rfl, rfl, rfl, rfl, by simp⟩
    | _ => simp [hp] at h

theorem transcript {policy : PausePolicy} {work : Behaviour Ending} {xs : List Exchange}
    {ds : List Deed} (h : Nudge s es s') (ht : s.Transcript policy work xs ds) :
    ∃ ys, s'.Transcript policy work (xs ++ ys) (ds ++ es) := by
  obtain ⟨rfl, hp, hta, hre, hpe, -⟩ | ⟨logged, next, reply, hp, hp', rfl, hta, hre, -⟩ := h.cases
  · exact ⟨[], by simpa using ht.still h.alike.id hp hta hre hpe⟩
  · exact ⟨_, ht.met hp hp' hta hre⟩

end Nudge

namespace Bridge

theorem lasting_transcript (e : Engine σ) (config : Config) (given : Nat → String → Prop) :
    Lasting config (e.drive config.run.debug) given fun ds s => ∃ source xs,
      given s.id source ∧
        s.Transcript config.run.pause (e.drive config.run.debug source) xs ds where
  fresh := by
    intro b source _ _ hd hg
    exact ⟨source, [], hg, hd ▸ .fresh _ b b.nextId source (hd ▸ rfl)⟩
  nudge := by
    rintro ds es s s' _ ⟨source, xs, hg, h⟩ hn
    obtain ⟨ys, h'⟩ := hn.transcript h
    exact ⟨source, xs ++ ys, hn.alike.id ▸ hg, h'⟩
  advance := by
    rintro b ds s rfl hp ⟨source, xs, hg, h⟩
    obtain ⟨ys, h', -⟩ := h.advance hp rfl
    exact ⟨source, xs ++ ys, (id_advance b s).symm ▸ hg, h'⟩

/-- Whatever the engine of a bridge, its runs have transcripts of the work on the programs they were
given. -/
theorem transcripts (e : Engine σ) (grants : Nat → Bool) (sink : Sink) (config : Config)
    (calls : List (Nat × Call)) :
    Settled config (e.drive config.run.debug) (fun ds s => ∃ source xs,
        (s.id, source) ∈ (create e grants sink config).programs calls ∧
          s.Transcript config.run.pause (e.drive config.run.debug source) xs ds)
      ((create e grants sink config).history calls) ((create e grants sink config).after calls) :=
  (lasting_transcript e config fun id source =>
    (id, source) ∈ (create e grants sink config).programs calls).settled grants sink calls fun _ hp => hp

end Bridge

end Conduit

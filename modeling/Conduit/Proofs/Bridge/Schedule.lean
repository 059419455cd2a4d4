import Conduit.Proofs.Bridge.Cancel
import Mathlib.Logic.Hydra

/-!
Runs that go on in whatever order, each by one request at a time. However they take turns they come to a
halt, and letting the earliest go on first, each as far as it can, is one of the ways.
-/
namespace Conduit

def Session.afterStage (s : Session) (st : Stage Audience) (phase : Phase) : Session :=
  { s with gate := st.gate, tally := st.audience.tally, phase }

namespace Bridge

/-- One run takes one step: it takes up its work, gets past its gate, has a request met, or comes to a
request that blocks it or to its end. -/
inductive Beat (b : Bridge) (s : Session) : Bridge → Session → Prop
  | takeUp {behind : List Nat} {work : Behaviour Ending} (hp : s.phase = .queued behind work)
      (hb : behind.all b.hasFinished = true) :
      Beat b s (b.clearInput (.worker s.id)) { s with phase := .ready work }
  | pass {next : GateOutcome → Behaviour Ending} {gate : Gate} {outcome : GateOutcome}
      (hp : s.phase = .paused next) (hg : s.gate.wait = (gate, some outcome)) :
      Beat b s b { s with gate, phase := .ready (next outcome) }
  | met {r : Request} {next : r.Reply → Behaviour Ending} {st : Stage Audience} {reply : r.Reply}
      (hp : s.phase = .ready (.ask r next))
      (hs : (b.stageOf s).serve (b.worker s.id) r = (st, some reply)) :
      Beat b s (b.afterStage st) (s.afterStage st (.ready (next reply)))
  | halt {work : Behaviour Ending} (hp : s.phase = .ready work)
      (hs : ∀ r next, work = .ask r next →
        ∃ st, (b.stageOf s).serve (b.worker s.id) r = (st, none)) :
      Beat b s (b.carryOn (fun _ => false) s work).1 (b.carryOn (fun _ => false) s work).2

inductive Tick (b : Bridge) : Bridge → Prop
  | beat {before after : List Session} {s s' : Session} {b' : Bridge}
      (hs : b.sessions = before ++ s :: after) (h : Beat b s b' s') :
      Tick b { b' with sessions := before ++ s' :: after }

abbrev Ticks : Bridge → Bridge → Prop := Relation.ReflTransGen Tick

def Still (b : Bridge) : Prop := ∀ s ∈ b.sessions, ∀ b' s', ¬ Beat b s b' s'

/-- The bridges that can come out of the calls, each made when all runs have come to a halt. -/
inductive Scheduled (b₀ : Bridge) : List (Nat × Call) → Bridge → Prop
  | start : Scheduled b₀ [] b₀
  | call {calls : List (Nat × Call)} {b c : Bridge} {ticket : Nat} {call : Call}
      (h : Scheduled b₀ calls b) (ht : Ticks (b.apply ticket call).1 c) (hs : c.Still) :
      Scheduled b₀ (calls ++ [(ticket, call)]) c.collect.1

variable {b b' : Bridge} {s s' : Session}

/-! Steps are moves -/

theorem Moves.ready (b : Bridge) {s : Session} (work : Behaviour Ending) :
    Moves b s [] b { s with phase := .ready work } where
  frame := rfl
  id := rfl
  cancelled := rfl
  aborted := rfl
  resumed := (UInt32.add_zero _).symm
  sink := rfl
  hub := rfl
  tally := rfl
  pending := rfl
  limit := rfl
  whenFull := rfl
  writers := fun _ hw => hw
  sound := fun hs => hs
  readers := (List.append_nil _).symm
  begun := rfl
  ended := fun h => by cases h

def beatDeeds (b : Bridge) (s : Session) : List Deed :=
  match s.phase with
  | .queued _ _ => b.channel.lines.map .discard
  | .paused _ => s.gate.wait.2.toList.map .pass
  | .ready (.ask r _) =>
    match ((b.stageOf s).serve (b.worker s.id) r).2 with
    | some reply => r.deeds b.config.run.pause s.tally reply
    | none => []
  | .ready work => b.carryOnDeeds s work
  | .reading _ _ | .finished _ => []

theorem carryOnDeeds_of_blocked {r : Request} {st : Stage Audience}
    (hs : (b.stageOf s).serve (b.worker s.id) r = (st, none)) (next : r.Reply → Behaviour Ending) :
    b.carryOnDeeds s (.ask r next) = [] := by
  unfold carryOnDeeds
  rw [carryOn_eq, Behaviour.run_of_stopped hs, Behaviour.deeds, Behaviour.collect_of_stopped hs]
  obtain ⟨logged, rfl, -⟩ | ⟨rfl, -⟩ := Behaviour.serve_eq_none hs <;> rfl

theorem Beat.moves_beatDeeds (h : Beat b s b' s') : Moves b s (b.beatDeeds s) b' s' := by
  cases h with
  | @takeUp behind work hp hb =>
    have hm := (Moves.ready (s := s) (b.clearInput (.worker s.id)) work).of_clearInput
    simpa only [beatDeeds, hp, List.append_nil] using hm
  | @pass next gate outcome hp hg =>
    have hm := (Moves.ready (s := { s with gate }) b (next outcome)).of_wait hg
    simpa [beatDeeds, hp, hg] using hm
  | @met r next st reply hp hs =>
    have hw := attends_worker b s.id
    have hf := Stage.follows_reply hw hs
    have hr := Behaviour.readers_reply hw hs
    simp only [beatDeeds, hp, hs]
    exact ⟨rfl, rfl, rfl, hf.aborted, hf.resumed, hf.sink, hf.hub, hf.tally, hf.pending, hf.limit,
      hf.whenFull, hf.writers, hf.sound, hr.trans (List.append_nil _).symm, rfl, fun h => by cases h⟩
  | @halt work hp hs =>
    have hm := moves_carryOn b s work
    cases work with
    | done a | panic m => simpa only [beatDeeds, hp] using hm
    | ask r next =>
      obtain ⟨st, hs⟩ := hs r next rfl
      rw [carryOnDeeds_of_blocked hs] at hm
      simpa only [beatDeeds, hp, hs] using hm

theorem Beat.moves (h : Beat b s b' s') :
    (∃ ds, Moves b s ds b' s') ∧ s.isFinished = false ∧ s.isReading = false := by
  refine ⟨⟨_, h.moves_beatDeeds⟩, ?_⟩
  cases h with
  | takeUp hp | pass hp | met hp | halt hp =>
    simp [Session.isFinished, Session.report?, Session.isReading, hp]

theorem exists_beat {work : Behaviour Ending} (b : Bridge) (hp : s.phase = .ready work) :
    ∃ b' s', Beat b s b' s' := by
  cases work with
  | done a => exact ⟨_, _, .halt hp fun r next h => by cases h⟩
  | panic m => exact ⟨_, _, .halt hp fun r next h => by cases h⟩
  | ask r next =>
    cases hs : (b.stageOf s).serve (b.worker s.id) r with
    | mk st reply =>
      cases reply with
      | some reply => exact ⟨_, _, .met hp hs⟩
      | none =>
        refine ⟨_, _, .halt hp fun r' next' h => ?_⟩
        cases h
        exact ⟨st, hs⟩

/-! Every schedule comes to its end -/

end Bridge

inductive Phase.Next : Phase → Phase → Prop
  | takeUp (behind : List Nat) (work : Behaviour Ending) : Next (.ready work) (.queued behind work)
  | pass (next : GateOutcome → Behaviour Ending) (outcome : GateOutcome) :
      Next (.ready (next outcome)) (.paused next)
  | met {r : Request} (next : r.Reply → Behaviour Ending) (reply : r.Reply) :
      Next (.ready (next reply)) (.ready (.ask r next))
  | read (logged : Bool) (next : Option String → Behaviour Ending) :
      Next (.reading logged next) (.ready (.ask (.read logged) next))
  | pause (next : GateOutcome → Behaviour Ending) :
      Next (.paused next) (.ready (.ask .awaitGate next))
  | finish (report : RunReport) (work : Behaviour Ending) : Next (.finished report) (.ready work)

namespace Phase

theorem acc_finished (report : RunReport) : Acc Next (.finished report) := by
  refine ⟨_, fun p h => ?_⟩
  cases h

theorem acc_reading (logged : Bool) (next : Option String → Behaviour Ending) :
    Acc Next (.reading logged next) := by
  refine ⟨_, fun p h => ?_⟩
  cases h

theorem acc_paused {next : GateOutcome → Behaviour Ending}
    (h : ∀ outcome, Acc Next (.ready (next outcome))) : Acc Next (.paused next) := by
  refine ⟨_, fun p hp => ?_⟩
  cases hp with
  | pass _ outcome => exact h outcome

/-- The work that is left of a run is a tree, and each step goes down one branch of it. -/
theorem acc_ready (work : Behaviour Ending) : Acc Next (.ready work) := by
  induction work with
  | done a | panic m =>
    refine ⟨_, fun p h => ?_⟩
    cases h
    exact acc_finished _
  | ask r next ih =>
    refine ⟨_, fun p h => ?_⟩
    cases h with
    | met _ reply => exact ih reply
    | read logged => exact acc_reading logged _
    | pause => exact acc_paused ih
    | finish report => exact acc_finished report

theorem wellFounded_next : WellFounded Next := by
  refine ⟨fun p => ?_⟩
  cases p with
  | queued behind work =>
    refine ⟨_, fun p h => ?_⟩
    cases h
    exact acc_ready work
  | ready work => exact acc_ready work
  | reading logged next => exact acc_reading logged next
  | paused next => exact acc_paused fun outcome => acc_ready (next outcome)
  | finished report => exact acc_finished report

end Phase

namespace Bridge
variable {b b' c : Bridge} {s s' : Session}

theorem next_carryOn {work : Behaviour Ending}
    (hs : ∀ r next, work = .ask r next → ∃ st, (b.stageOf s).serve (b.worker s.id) r = (st, none)) :
    Phase.Next (b.carryOn (fun _ => false) s work).2.phase (.ready work) := by
  cases work with
  | done ending => exact .finish _ _
  | panic m => exact .finish _ _
  | ask r next =>
    obtain ⟨st, hs⟩ := hs r next rfl
    rw [carryOn_eq, Behaviour.run_of_stopped hs]
    obtain ⟨logged, rfl, -⟩ | ⟨rfl, -⟩ := Behaviour.serve_eq_none hs
    · exact .read logged next
    · exact .pause next

theorem Beat.next (h : Beat b s b' s') : Phase.Next s'.phase s.phase := by
  cases h with
  | takeUp hp hb =>
    rw [hp]
    exact .takeUp _ _
  | pass hp hg =>
    rw [hp]
    exact .pass _ _
  | met hp hs =>
    rw [hp]
    exact .met _ _
  | halt hp hs =>
    rw [hp]
    exact next_carryOn hs

def phases (b : Bridge) : Multiset Phase := b.sessions.map Session.phase

theorem Tick.cutExpand (h : Tick b b') : Relation.CutExpand Phase.Next b'.phases b.phases := by
  obtain @⟨before, after, s, s', b', hs, hbeat⟩ := h
  have hsplit : ∀ t : Session, (((before ++ t :: after).map Session.phase : List Phase) :
      Multiset Phase) = (before.map Session.phase : List Phase) +
        ({t.phase} + ((after.map Session.phase : List Phase) : Multiset Phase)) := by
    intro t
    rw [List.map_append, List.map_cons, ← Multiset.coe_add, ← Multiset.cons_coe,
      Multiset.singleton_add]
  rw [phases, phases, hs, hsplit, hsplit, Relation.cutExpand_add_left, Relation.cutExpand_add_right]
  exact Relation.cutExpand_singleton_singleton hbeat.next

/-- However the runs of a bridge take turns, there is no end of steps: each of them leaves less of the
work of one run and all of that of the others. -/
theorem ticks_end : WellFounded fun b' b : Bridge => Tick b b' :=
  Subrelation.wf (fun h => h.cutExpand) (InvImage.wf phases Phase.wellFounded_next.cutExpand)

theorem exists_still (b : Bridge) : ∃ c, Ticks b c ∧ c.Still := by
  induction b using ticks_end.induction with
  | _ b ih =>
    by_cases hb : b.Still
    · exact ⟨b, .refl, hb⟩
    · simp only [Still, not_forall, not_not] at hb
      obtain ⟨s, hs, b', s', hbeat⟩ := hb
      obtain ⟨before, after, hsplit⟩ := List.append_of_mem hs
      have htick := Tick.beat hsplit hbeat
      obtain ⟨c, ht, hc⟩ := ih _ htick
      exact ⟨c, .head htick ht, hc⟩

/-! Letting the earliest go on first -/

theorem Ticks.beat {before after : List Session} (hs : b.sessions = before ++ s :: after)
    (h : Beat b s b' s') : Ticks b { b' with sessions := before ++ s' :: after } :=
  .single (.beat hs h)

theorem ticks_carryOn {before after : List Session} (work : Behaviour Ending)
    (hs : b.sessions = before ++ { s with phase := .ready work } :: after) :
    Ticks b { (b.carryOn (fun _ => false) s work).1 with
      sessions := before ++ (b.carryOn (fun _ => false) s work).2 :: after } := by
  have hready : ∀ (s : Session) work, ({ s with phase := .ready work } : Session).phase = .ready work :=
    fun _ _ => rfl
  induction work generalizing b s with
  | done a => exact .beat hs (.halt (hready s (.done a)) fun r next h => by cases h)
  | panic m => exact .beat hs (.halt (hready s (.panic m)) fun r next h => by cases h)
  | ask r next ih =>
    cases hserve : (b.stageOf s).serve (b.worker s.id) r with
    | mk st reply =>
      cases reply with
      | none =>
        refine .beat hs (.halt (hready s (.ask r next)) fun r' next' h => ?_)
        cases h
        exact ⟨st, hserve⟩
      | some reply =>
        have hc : s.cancelled = st.cancelled :=
          (Stage.follows_reply (attends_worker b s.id) hserve).cancelled.symm
        have hrun : b.carryOn (fun _ => false) s (.ask r next) =
            (b.afterStage st).carryOn (fun _ => false) (s.afterStage st (.ready (next reply)))
              (next reply) := by
          have hstage : (b.afterStage st).stageOf (s.afterStage st (.ready (next reply))) = st := by
            simp only [stageOf, afterStage, Session.afterStage, hc]
          rw [carryOn_eq, carryOn_eq, Behaviour.run_of_reply hserve, hstage]
          rfl
        refine (Ticks.beat hs (.met rfl hserve)).trans ?_
        rw [hrun]
        exact @ih reply { b.afterStage st with
          sessions := before ++ s.afterStage st (.ready (next reply)) :: after } _ rfl

theorem clearInput_upTo (b : Bridge) (before : List Session) (thread : Log.Thread) :
    (b.upTo before).clearInput thread = (b.clearInput thread).upTo before := by
  unfold clearInput upTo
  simp only
  split <;> rfl

theorem hasFinished_upTo {before rest : List Session} (hs : b.sessions = before ++ rest) {id : Nat}
    (h : (b.upTo before).hasFinished id = true) : b.hasFinished id = true := by
  unfold hasFinished find? at h ⊢
  rw [hs, List.find?_append]
  cases hf : before.find? fun s => s.id = id with
  | none => simp [upTo, hf] at h
  | some s => simpa [upTo, hf] using h

theorem ticks_advanceAmong {before after : List Session} (hs : b.sessions = before ++ s :: after) :
    Ticks b (b.advanceAmong before s after) := by
  have hstays : (b.upTo before).advance (fun _ => false) s = (b.upTo before, s) →
      Ticks b (b.advanceAmong before s after) := by
    intro h
    rw [advanceAmong, h]
    simp only [upTo, ← hs]
    exact .refl
  cases hp : s.phase with
  | finished r | reading logged next => exact hstays (by simp only [advance, hp])
  | ready work =>
    simp only [advanceAmong, advance, hp]
    refine ticks_carryOn work ?_
    rw [← hp]
    exact hs
  | queued behind work =>
    by_cases hall : behind.all (b.upTo before).hasFinished = true
    · have hb : behind.all b.hasFinished = true :=
        List.all_eq_true.mpr fun id hid => hasFinished_upTo hs (List.all_eq_true.mp hall id hid)
      simp only [advanceAmong, advance, hp, hall, if_true, clearInput_upTo]
      exact (Ticks.beat hs (.takeUp hp hb)).trans (ticks_carryOn work rfl)
    · exact hstays (by simp [advance, hp, hall])
  | paused next =>
    cases hg : s.gate.wait with
    | mk gate outcome =>
      cases outcome with
      | none => exact hstays (by simp only [advance, hp, hg])
      | some outcome =>
        simp only [advanceAmong, advance, hp, hg]
        exact (Ticks.beat hs (.pass hp hg)).trans (ticks_carryOn (s := { s with gate }) _ rfl)

theorem ticks_settle (b : Bridge) (rest : List Session) :
    Ticks { b with sessions := b.sessions ++ rest } (rest.foldl (advanceAndKeep fun _ => false) b) := by
  induction rest generalizing b with
  | nil =>
    rw [List.append_nil]
    exact .refl
  | cons s rest ih =>
    have h := ih (b.advanceAndKeep (fun _ => false) s)
    rw [sessions_advanceAndKeep, List.append_assoc] at h
    refine Relation.ReflTransGen.trans ?_ h
    exact @ticks_advanceAmong { b with sessions := b.sessions ++ s :: rest } s b.sessions rest rfl

/-- Where every run is at rest, and whoever waits for its turn does so with reason, no run can take a
step. -/
theorem still_of_atRest (hb : b.Sound) (hr : ∀ s ∈ b.sessions, s.AtRest)
    (hq : ∀ s ∈ b.sessions, ∀ behind, s.behind? = some behind → b.Queues s behind) : b.Still := by
  intro s hs b' s' h
  cases h with
  | @takeUp behind work hp hall =>
    obtain ⟨t, ht, hid, -, hf⟩ := (hq s hs behind (by simp [Session.behind?, hp])).held
    have hover := List.all_eq_true.mp hall t.id hid
    rw [hasFinished, hb.find?_eq ht, Option.any_some, hf] at hover
    cases hover
  | pass hp hg =>
    have hshut := (hr s hs).shut (by rw [Session.isAtGate, hp])
    obtain ⟨ha, -⟩ | ⟨-, ha, -⟩ | ⟨-, -, hw⟩ := s.gate.wait_cases
    · simp [Gate.passes, ha] at hshut
    · simp [Gate.passes, ha] at hshut
    · rw [hw] at hg
      cases hg
  | met hp | halt hp =>
    have hready := (hr s hs).ready
    rw [Session.isReady, hp] at hready
    cases hready

/-- Where every run is at rest and none waits for its turn, no run can take a step. -/
theorem still_of_begun (hb : b.Sound) (hr : ∀ s ∈ b.sessions, s.AtRest)
    (hbegun : ∀ s ∈ b.sessions, s.hasBegun = true) : b.Still := by
  refine still_of_atRest hb hr fun s hs behind hbehind => ?_
  have h := hbegun s hs
  rw [Session.hasBegun, hbehind] at h
  cases h

theorem Still.eq_of_ticks (h : b.Still) (ht : Ticks b c) : c = b := by
  obtain rfl | ⟨b', ⟨hs, hbeat⟩, -⟩ := ht.cases_head
  · rfl
  · exact absurd hbeat (h _ (by simp [hs]) _ _)

theorem Still.atRest (h : b.Still) (hs : s ∈ b.sessions) (hp : s.Poised) : s.AtRest := by
  refine ⟨hp, ?_, fun hgate => ?_⟩
  · unfold Session.isReady
    cases hphase : s.phase with
    | ready work =>
      obtain ⟨b', s', hbeat⟩ := exists_beat b hphase
      exact absurd hbeat (h s hs b' s')
    | _ => rfl
  · obtain ⟨next, hphase, -⟩ := Session.work?_of_isAtGate hgate
    obtain ⟨-, hw⟩ | ⟨-, -, hw⟩ | ⟨ha, hpermit, -⟩ := s.gate.wait_cases
    · exact absurd (.pass hphase hw) (h s hs _ _)
    · exact absurd (.pass hphase hw) (h s hs _ _)
    · simp [Gate.passes, ha, hpermit]

/-- What the calls make of a bridge that lets the earliest run go on first can come out of them. -/
theorem scheduled_after (e : Engine σ) (grants : Nat → Bool) (sink : Sink) (config : Config)
    (calls : List (Nat × Call)) :
    Scheduled (create e grants sink config) calls ((create e grants sink config).after calls) := by
  induction calls using List.reverseRecOn with
  | nil => exact .start
  | append_singleton calls c ih =>
    obtain ⟨ticket, call⟩ := c
    have hset := transcripts e grants sink config (calls ++ [(ticket, call)])
    have hq := queues_after e grants sink config (calls ++ [(ticket, call)])
    have hb := hset.sound
    have hr := fun s hs => (hset.runs s hs).1
    rw [after_append] at hq hb hr ⊢
    refine .call ih (ticks_settle { (((create e grants sink config).after calls).apply ticket call).1 with
      sessions := [] } _) ?_
    -- Answering the calls that waited touches neither the runs nor the channel.
    exact still_of_atRest ⟨hb.channel, hb.writers, hb.ordered, hb.known, hb.readers, hb.distinct⟩ hr
      fun s hs behind h => ⟨(hq s hs behind h).earlier, (hq s hs behind h).held⟩

end Bridge

end Conduit

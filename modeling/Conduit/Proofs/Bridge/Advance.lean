import Conduit.Bridge.Call
import Conduit.Proofs.Bridge.Deeds

/-!
One run of a bridge that goes on: the deeds it does and what they make of the bridge. A run that cannot
go on does nothing; nothing else of the bridge changes than what its deeds account for.
-/
namespace Conduit

def Session.isReading (s : Session) : Bool :=
  match s.phase with
  | .reading _ _ => true
  | _ => false

def Session.receive (line : String) (s : Session) : Session :=
  match s.phase with
  | .reading _ next => { s with phase := .ready (next (some line)) }
  | _ => s

def Session.behind? (s : Session) : Option (List Nat) :=
  match s.phase with
  | .queued behind _ => some behind
  | _ => none

def Session.hasBegun (s : Session) : Bool := s.behind?.isNone

theorem Session.of_isReading {s : Session} (h : s.isReading = true) :
    s.hasBegun = true ∧ s.isFinished = false := by
  unfold isReading at h
  split at h
  · rename_i hp
    simp [hasBegun, behind?, isFinished, report?, hp]
  · cases h

namespace Bridge

def carryOnDeeds (b : Bridge) (s : Session) (work : Behaviour Ending) : List Deed :=
  work.deeds (b.worker s.id) b.config.run.pause (b.stageOf s) ++
    match (b.carryOn (fun _ => false) s work).2.phase with
    | .finished r => [.publish (.finished r.outcome)]
    | _ => []

def advanceDeeds (b : Bridge) (s : Session) : List Deed :=
  match s.phase with
  | .finished _ | .reading _ _ => []
  | .ready work => b.carryOnDeeds s work
  | .queued behind work =>
    if behind.all b.hasFinished then
      b.channel.lines.map .discard ++ (b.clearInput (.worker s.id)).carryOnDeeds s work
    else []
  | .paused next =>
    match s.gate.wait with
    | (gate, some outcome) => .pass outcome :: b.carryOnDeeds { s with gate } (next outcome)
    | (_, none) => []

structure Moves (b : Bridge) (s : Session) (ds : List Deed) (b' : Bridge) (s' : Session) : Prop where
  frame : b' = { b with
    channel := b'.channel, sink := b'.sink, hub := b'.hub, journal := b'.journal
    admitted := b'.admitted }
  id : s'.id = s.id
  cancelled : s'.cancelled = s.cancelled
  aborted : s'.gate.aborted = s.gate.aborted
  resumed : s'.gate.resumed = s.gate.resumed + .ofNat (Deed.resumes ds)
  sink : b'.sink = b.sink.feed (Deed.prints ds)
  hub : b'.hub = b.hub.publishAll ((Deed.publications ds).map (Envelope.mk s.id))
  tally : s'.tally = (Deed.publications ds).foldl Tally.note s.tally
  pending : b.channel.pending = Deed.removals ds ++ b'.channel.pending
  limit : b'.channel.limit = b.channel.limit
  whenFull : b'.channel.whenFull = b.channel.whenFull
  writers : b'.channel.writers ⊆ b.channel.writers
  sound : b.channel.Sound → b'.channel.Sound
  readers : b'.channel.readers =
    b.channel.readers ++ if s'.isReading then [⟨s.id, some s.id⟩] else []
  begun : s'.hasBegun = true
  ended : s'.isFinished = true → ∃ outcome, Deed.publish (.finished outcome) ∈ ds

variable {b b' : Bridge} {s s' : Session}

theorem attends_worker (b : Bridge) (id : Nat) :
    Stage.Attends (b.worker id) id b.config.run.pause :=
  ⟨rfl, rfl⟩

/-- What is left to say once a run has gone as far as it could: a run that ended tells so. -/
theorem follows_phaseAfter (id : Nat) (st : Stage Audience) (progress : Progress Ending) :
    Stage.Follows id st
      (match (phaseAfter id st progress).2 with
        | .finished r => [.publish (.finished r.outcome)]
        | _ => [])
      (phaseAfter id st progress).1 := by
  cases progress with
  | done ending => cases ending <;> exact .of_gate rfl rfl rfl rfl rfl rfl rfl rfl rfl
  | panicked m => exact .of_gate rfl rfl rfl rfl rfl rfl rfl rfl rfl
  | reading logged next => exact .refl id st
  | paused next => exact .refl id st
  | held rest => exact .refl id st

theorem channel_phaseAfter (id : Nat) (st : Stage Audience) (progress : Progress Ending) :
    (phaseAfter id st progress).1.channel = st.channel := by
  cases progress with
  | done ending => cases ending <;> rfl
  | _ => rfl

/-- A run is carried on as far as it goes, and then it is seen where it stands. -/
theorem carryOn_eq (b : Bridge) (s : Session) (work : Behaviour Ending) :
    b.carryOn (fun _ => false) s work =
      let (st, progress) := work.run (b.worker s.id) Behaviour.never (b.stageOf s)
      let (st, phase) := phaseAfter s.id st progress
      (b.afterStage st, { s with gate := st.gate, tally := st.audience.tally, phase }) :=
  rfl

theorem moves_carryOn (b : Bridge) (s : Session) (work : Behaviour Ending) :
    Moves b s (b.carryOnDeeds s work) (b.carryOn (fun _ => false) s work).1
      (b.carryOn (fun _ => false) s work).2 := by
  have hw := attends_worker b s.id
  have hf := Behaviour.follows_run hw work (b.stageOf s)
  have hr := Behaviour.readers_run hw work (b.stageOf s)
  unfold carryOnDeeds
  rw [carryOn_eq]
  cases hp : work.run (b.worker s.id) Behaviour.never (b.stageOf s) with
  | mk st progress =>
    rw [hp] at hf hr
    have h := hf.trans (follows_phaseAfter s.id st progress)
    refine ⟨rfl, rfl, rfl, h.aborted, h.resumed, h.sink, h.hub, h.tally, h.pending, h.limit,
      h.whenFull, h.writers, h.sound, ?_, ?_, ?_⟩
    · have hc := channel_phaseAfter s.id st progress
      change (phaseAfter s.id st progress).1.channel.readers = _
      rw [hc, hr]
      cases progress <;> simp [phaseAfter, Session.isReading, stageOf]
    · cases progress <;> rfl
    · simp only [Session.isFinished, Session.report?]
      cases (phaseAfter s.id st progress).2 with
      | finished r => exact fun _ => ⟨r.outcome, List.mem_append_right _ List.mem_cons_self⟩
      | _ => simp

theorem clearInput_eq (b : Bridge) (thread : Log.Thread) :
    ∃ journal admitted, b.clearInput thread =
      { b with channel := b.channel.clear.1, journal, admitted } := by
  unfold clearInput
  simp only
  split <;> exact ⟨_, _, rfl⟩

theorem Moves.of_clearInput {thread : Log.Thread} {ds : List Deed}
    (h : Moves (b.clearInput thread) s ds b' s') :
    Moves b s (b.channel.lines.map .discard ++ ds) b' s' := by
  obtain ⟨journal, admitted, hc⟩ := clearInput_eq b thread
  rw [hc] at h
  refine ⟨h.frame, h.id, h.cancelled, h.aborted, ?_, ?_, ?_, ?_, ?_, h.limit, h.whenFull, ?_,
    fun hs => h.sound hs.clear, h.readers, h.begun, fun hf => ?_⟩
  · simpa using h.resumed
  · simpa using h.sink
  · simpa using h.hub
  · simpa using h.tally
  · simp only [Deed.removals_append, Deed.removals_discard, List.append_assoc]
    rw [← h.pending]
    exact b.channel.pending_clear
  · exact fun w hw => List.mem_of_mem_drop (h.writers hw)
  · obtain ⟨outcome, hm⟩ := h.ended hf
    exact ⟨outcome, List.mem_append_right _ hm⟩

theorem Moves.of_wait {gate : Gate} {outcome : GateOutcome} {ds : List Deed}
    (hg : s.gate.wait = (gate, some outcome)) (h : Moves b { s with gate } ds b' s') :
    Moves b s (.pass outcome :: ds) b' s' := by
  have hr : gate.aborted = s.gate.aborted ∧
      gate.resumed = s.gate.resumed + .ofNat (Deed.resumes [.pass outcome]) := by
    obtain ⟨-, hw⟩ | ⟨-, -, hw⟩ | ⟨-, -, hw⟩ := s.gate.wait_cases <;> rw [hw] at hg <;> cases hg
    · exact ⟨rfl, (UInt32.add_zero _).symm⟩
    · exact ⟨rfl, rfl⟩
  refine ⟨h.frame, h.id, h.cancelled, h.aborted.trans hr.1, ?_, h.sink, h.hub, h.tally, h.pending,
    h.limit, h.whenFull, h.writers, h.sound, h.readers, h.begun, fun hf => ?_⟩
  · rw [h.resumed, ← List.singleton_append, Deed.resumes_append, hr.2, UInt32.ofNat_add,
      UInt32.add_assoc]
  · obtain ⟨outcome, hm⟩ := h.ended hf
    exact ⟨outcome, List.mem_cons_of_mem _ hm⟩

/-- A run either cannot go on or moves; one that was queued moves only when every run before it has
finished. -/
theorem advance_cases (b : Bridge) (s : Session) :
    (b.advance (fun _ => false) s = (b, s) ∧ b.advanceDeeds s = []) ∨
    (Moves b s (b.advanceDeeds s) (b.advance (fun _ => false) s).1
        (b.advance (fun _ => false) s).2 ∧
      s.isFinished = false ∧ s.isReading = false ∧
      ∀ behind, s.behind? = some behind → behind.all b.hasFinished = true) := by
  cases hp : s.phase with
  | finished r => exact .inl (by simp only [advance, advanceDeeds, hp, and_self])
  | reading logged next => exact .inl (by simp only [advance, advanceDeeds, hp, and_self])
  | ready work =>
    refine .inr ⟨?_, ?_, ?_, ?_⟩
    · simp only [advance, advanceDeeds, hp]
      exact moves_carryOn b s work
    · simp [Session.isFinished, Session.report?, hp]
    · simp [Session.isReading, hp]
    · simp [Session.behind?, hp]
  | queued behind work =>
    by_cases hb : behind.all b.hasFinished = true
    · refine .inr ⟨?_, ?_, ?_, ?_⟩
      · simp only [advance, advanceDeeds, hp, hb, if_true]
        exact (moves_carryOn _ s work).of_clearInput
      · simp [Session.isFinished, Session.report?, hp]
      · simp [Session.isReading, hp]
      · intro ids hids
        simp only [Session.behind?, hp, Option.some.injEq] at hids
        rw [← hids, hb]
    · exact .inl (by simp [advance, advanceDeeds, hp, hb])
  | paused next =>
    cases hg : s.gate.wait with
    | mk gate outcome =>
      cases outcome with
      | none => exact .inl (by simp only [advance, advanceDeeds, hp, hg, and_self])
      | some outcome =>
        refine .inr ⟨?_, ?_, ?_, ?_⟩
        · simp only [advance, advanceDeeds, hp, hg]
          exact (moves_carryOn b { s with gate } (next outcome)).of_wait hg
        · simp [Session.isFinished, Session.report?, hp]
        · simp [Session.isReading, hp]
        · simp [Session.behind?, hp]

end Bridge

end Conduit

import Conduit.Proofs.Bridge.Account
import Conduit.Proofs.Bridge.Calls
import Conduit.Proofs.Engine.Dialogue

/-!
One call of a host, seen by a single run: the host may do one thing to it, and then it goes on as far as
it can. What holds of every new run and is kept by both holds of every run after any calls.
-/
namespace Conduit

namespace Session

def isReady (s : Session) : Bool :=
  match s.phase with
  | .ready _ => true
  | _ => false

def isAtGate (s : Session) : Bool :=
  match s.phase with
  | .paused _ => true
  | _ => false

/-- What is true of a run at any time: its gate is aborted together with its token, it waits at the gate
when it stands there, and it does not stand at a read once it is called off. -/
structure Poised (s : Session) : Prop where
  aborted : s.gate.aborted = s.cancelled
  waiting : s.gate.waiting = s.isAtGate
  reading : s.isReading = true → s.cancelled = false

structure AtRest (s : Session) : Prop extends Poised s where
  ready : s.isReady = false
  shut : s.isAtGate = true → s.gate.passes = false

end Session

/-- What a host does to a run in one call, with the deeds that this makes the run do. -/
inductive Nudge : Session → List Deed → Session → Prop
  | none (s : Session) : Nudge s [] s
  | resume (s : Session) : Nudge s [] { s with gate := s.gate.resume }
  | cancel (s : Session) : Nudge s [] (Bridge.cancelled s)
  | handOver (line : String) (s : Session) (h : s.isReading = true) :
      Nudge s [.receive line] (s.receive line)

namespace Nudge
variable {s s' : Session} {ds : List Deed}

theorem alike (h : Nudge s ds s') : Session.Alike s s' := by
  cases h with
  | none => exact .refl s
  | resume => exact Session.alike_resume s
  | cancel => exact Session.alike_cancelled s
  | handOver line _ h => exact Session.alike_receive line s

theorem poised (h : Nudge s ds s') (hs : s.AtRest) : s'.Poised := by
  cases h with
  | none => exact hs.toPoised
  | resume => exact ⟨hs.aborted, hs.waiting, hs.reading⟩
  | cancel =>
    have hw := hs.waiting
    unfold Bridge.cancelled
    cases hp : s.phase <;> rw [Session.isAtGate, hp] at hw <;>
      exact ⟨rfl, hw, by simp [Session.isReading]⟩
  | handOver line _ h =>
    have hw := hs.waiting
    unfold Session.isReading at h
    unfold Session.receive
    cases hp : s.phase <;> rw [hp] at h <;> cases h
    rw [Session.isAtGate, hp] at hw
    exact ⟨hs.aborted, hw, by simp [Session.isReading]⟩

theorem report (h : Nudge s ds s') {r : RunReport} (hr : s.report? = some r) :
    ds = [] ∧ s'.report? = some r ∧ s'.tally = s.tally := by
  unfold Session.report? at hr
  cases hp : s.phase <;> rw [hp] at hr <;> cases hr
  cases h with
  | none => exact ⟨rfl, by simp [Session.report?, hp], rfl⟩
  | resume => exact ⟨rfl, by simp [Session.report?, hp], rfl⟩
  | cancel =>
    exact ⟨rfl, by simp [Bridge.cancelled, Session.report?, hp], by simp [Bridge.cancelled, hp]⟩
  | handOver line _ h => simp [Session.isReading, hp] at h

end Nudge

namespace Act
variable (id : Nat) (acts more : List Act)

@[simp] theorem deedsOf_append : deedsOf id (acts ++ more) = deedsOf id acts ++ deedsOf id more := by
  simp [deedsOf]

@[simp] theorem deedsOf_run_self (ds : List Deed) : deedsOf id (ds.map (run id)) = ds := by
  simp [deedsOf, List.filter_map, Function.comp_def]

theorem deedsOf_run_ne {id id' : Nat} (h : id' ≠ id) (ds : List Deed) :
    deedsOf id (ds.map (run id')) = [] := by
  simp [deedsOf, List.filter_map, Function.comp_def, h]

theorem deedsOf_of_deeds {acts : List Act} (h : deeds acts = []) : deedsOf id acts = [] := by
  simp [deedsOf, h]

end Act

namespace Bridge
variable {b b' : Bridge}

/-! What the host does by itself -/

theorem cancelled_cancelled (s : Session) : cancelled (cancelled s) = cancelled s := by
  unfold cancelled
  cases hp : s.phase <;> simp [Gate.abort]

theorem sessions_cancelSession (b : Bridge) (id : Nat) :
    (b.cancelSession id).sessions = b.sessions.map fun s => if s.id = id then cancelled s else s := by
  unfold cancelSession
  cases hf : b.find? id with
  | none =>
    rw [find?, List.find?_eq_none] at hf
    refine ((List.map_congr_left fun s hs => ?_).trans (List.map_id _)).symm
    exact if_neg (by simpa using hf s hs)
  | some s =>
    simp only
    split <;> split <;> rfl

theorem sessions_cancelAll (running : List Session) (word : Session → String) (b : Bridge) :
    (running.foldl (fun b s => (b.note .host .info .control (word s)).cancelSession s.id) b).sessions =
      b.sessions.map fun s => if s.id ∈ running.map Session.id then cancelled s else s := by
  induction running generalizing b with
  | nil => simp
  | cons t running ih =>
    rw [List.foldl_cons, ih, sessions_cancelSession, List.map_map]
    refine List.map_congr_left fun s _ => ?_
    by_cases ht : s.id = t.id
    · simp [ht, (Session.alike_cancelled s).id, cancelled_cancelled]
    · simp [ht]

theorem sessions_resumeAll (paused : List Session) (b : Bridge) :
    (paused.foldl (fun b s => (b.resumeSession s.id).publish s.id .resumed) b).sessions =
      b.sessions.map fun s =>
        if s.id ∈ paused.map Session.id then { s with gate := s.gate.resume } else s := by
  induction paused generalizing b with
  | nil => simp
  | cons t paused ih =>
    rw [List.foldl_cons, ih]
    simp only [publish, resumeSession, mapSession, List.map_map]
    refine List.map_congr_left fun s _ => ?_
    by_cases ht : s.id = t.id
    · simp [ht, Gate.resume]
    · simp [ht]

theorem sessions_clearInput (b : Bridge) (thread : Log.Thread) :
    (b.clearInput thread).sessions = b.sessions := by
  obtain ⟨journal, admitted, h⟩ := clearInput_eq b thread
  rw [h]

theorem sessions_makeWay_eq (b : Bridge) (id : Nat) :
    (b.makeWay id).sessions = b.sessions.map fun s =>
      if b.config.run.overlap = .supersede ∧ s.id ∈ b.active.map Session.id then cancelled s
      else s := by
  unfold makeWay
  cases b.config.run.overlap with
  | queue => simp
  | interleave =>
    simp only [sessions_clearInput]
    split <;> simp [note]
  | supersede =>
    simp only [sessions_clearInput, true_and]
    exact sessions_cancelAll b.active (fun s =>
      "session " ++ Decimal.natText id ++ " supersedes session " ++ Decimal.natText s.id) b

def touch (b : Bridge) (call : Call) (s : Session) : Session :=
  match call with
  | .start _ _ =>
    if b.config.run.overlap = .supersede ∧ s.id ∈ b.active.map Session.id then cancelled s else s
  | .stop => if s.id ∈ b.active.map Session.id then cancelled s else s
  | .cancel id => if s.id = id then cancelled s else s
  | .resume =>
    if s.id ∈ (b.active.filter Session.isPaused).map Session.id then { s with gate := s.gate.resume }
    else s
  | .resumeSession id => if s.id = id then { s with gate := s.gate.resume } else s
  | _ => s

theorem nudge_touch (b : Bridge) (call : Call) (s : Session) : Nudge s [] (b.touch call s) := by
  unfold touch
  split
  · split
    · exact .cancel s
    · exact .none s
  · split
    · exact .cancel s
    · exact .none s
  · split
    · exact .cancel s
    · exact .none s
  · split
    · exact .resume s
    · exact .none s
  · split
    · exact .resume s
    · exact .none s
  · exact .none s

def newcomers (b : Bridge) : Call → List Session
  | .start source _ => b.newRuns source
  | _ => []

theorem mem_newcomers {call : Call} {s : Session} (h : s ∈ b.newcomers call) :
    ∃ source told, call = .start source told ∧
      s = { id := b.nextId, phase := b.firstPhase source } := by
  cases call with
  | start source told =>
    simp only [newcomers, newRuns] at h
    split at h
    · exact ⟨source, told, rfl, List.mem_singleton.mp h⟩
    · cases h
  | _ => cases h

theorem apply_cases (b : Bridge) (ticket : Nat) (call : Call) :
    ((b.apply ticket call).1.sessions = b.sessions.map (b.touch call) ++ b.newcomers call ∧
      Act.deeds (b.applyActs call) = []) ∨
    ∃ line r rs, b.channel.readers = r :: rs ∧ b.newcomers call = [] ∧
      (b.apply ticket call).1.sessions =
        b.sessions.map (fun s => if s.id = r.ticket then s.receive line else s) ∧
      Act.deeds (b.applyActs call) = [(r.ticket, .receive line)] := by
  have same : ∀ sessions : List Session, sessions.map (fun s => s) ++ [] = sessions := by simp
  have wait : ∀ w, (b.await ticket w).1.sessions = b.sessions := by
    intro w
    unfold await
    split <;> rfl
  cases call with
  | start source told =>
    obtain ⟨journal, h⟩ := apply_start_eq b ticket source told
    refine .inl ⟨?_, ?_⟩
    · rw [h]
      exact congrArg (· ++ _) (sessions_makeWay_eq b b.nextId)
    · simp only [applyActs, startActs, makeWayActs, Act.deeds_append]
      cases b.config.run.overlap <;> cases b.canSpawn <;> simp [Act.deeds, Act.deed?, Act.discards]
  | submit line =>
    simp only [apply, applyActs, submit, submitActs]
    cases h : b.trySubmit line with
    | none =>
      rw [trySubmit_eq_none h]
      cases b.channel.whenFull <;> exact .inl ⟨(same _).symm, rfl⟩
    | some b' =>
      obtain ⟨hf, ⟨hr, rfl⟩ | ⟨r, rs, hr, rfl⟩⟩ := trySubmit_eq_some h
      · simp only [hf, acceptActs, hr]
        exact .inl ⟨(same _).symm, rfl⟩
      · simp only [hf, acceptActs, hr]
        exact .inr ⟨line, r, rs, rfl, rfl, rfl, rfl⟩
  | trySubmit line =>
    simp only [apply, applyActs]
    cases h : b.trySubmit line with
    | none =>
      rw [trySubmit_eq_none h]
      exact .inl ⟨(same _).symm, rfl⟩
    | some b' =>
      obtain ⟨hf, ⟨hr, rfl⟩ | ⟨r, rs, hr, rfl⟩⟩ := trySubmit_eq_some h
      · simp only [hf, acceptActs, hr]
        exact .inl ⟨(same _).symm, rfl⟩
      · simp only [hf, acceptActs, hr]
        exact .inr ⟨line, r, rs, rfl, rfl, rfl, rfl⟩
  | resume =>
    refine .inl ⟨?_, ?_⟩
    · simp only [apply, resume, newcomers, List.append_nil]
      cases h : b.active.filter Session.isPaused with
      | nil => exact (List.map_id' _).symm.trans (List.map_congr_left fun t _ => by simp [touch, h])
      | cons s paused =>
        simp only [sessions_resumeAll]
        exact List.map_congr_left fun t _ => by rw [touch, h]
    · simp [applyActs, resumeActs, Act.deeds, Act.deed?]
  | stop =>
    refine .inl ⟨?_, rfl⟩
    simp only [apply, stop, newcomers, List.append_nil]
    cases h : b.active with
    | nil => exact (List.map_id' _).symm.trans (List.map_congr_left fun t _ => by simp [touch, h])
    | cons s running =>
      refine (sessions_cancelAll (s :: running)
        (fun s => "Stopping session " ++ Decimal.natText s.id) b).trans ?_
      exact List.map_congr_left fun t _ => by rw [touch, h]
  | cancel id => exact .inl ⟨(sessions_cancelSession _ id).trans (List.append_nil _).symm, rfl⟩
  | resumeSession id => exact .inl ⟨(List.append_nil _).symm, rfl⟩
  | waitIdle => exact .inl ⟨(wait _).trans (same _).symm, rfl⟩
  | join id => exact .inl ⟨(wait _).trans (same _).symm, rfl⟩
  | clear =>
    obtain ⟨journal, admitted, h⟩ := clearInput_eq b .host
    refine .inl ⟨?_, Act.deeds_discards _⟩
    simp only [apply, h]
    exact (same _).symm
  | tryRead =>
    refine .inl ⟨?_, ?_⟩
    · simp only [apply, tryRead]
      cases b.channel.take? <;> exact (same _).symm
    · simp only [applyActs, tryReadActs, Act.deeds]
      cases b.channel.lines <;> rfl
  | print _ | subscribe | leave _ | receive _ => exact .inl ⟨(same _).symm, rfl⟩

theorem mem_apply (hb : b.Sound) (ticket : Nat) (call : Call) {s' : Session}
    (hs : s' ∈ (b.apply ticket call).1.sessions) :
    (∃ s ∈ b.sessions, Nudge s (Act.deedsOf s.id (b.applyActs call)) s') ∨
    Act.deedsOf b.nextId (b.applyActs call) = [] ∧ s' ∈ b.newcomers call := by
  obtain ⟨h, hd⟩ | ⟨line, r, rs, hr, -, h, hd⟩ := apply_cases b ticket call <;> rw [h] at hs
  · simp only [Act.deedsOf_of_deeds _ hd, true_and]
    rcases List.mem_append.mp hs with hs | hs
    · obtain ⟨s, hm, rfl⟩ := List.mem_map.mp hs
      exact .inl ⟨s, hm, nudge_touch b call s⟩
    · exact .inr hs
  · obtain ⟨s, hm, rfl⟩ := List.mem_map.mp hs
    refine .inl ⟨s, hm, ?_⟩
    rw [Act.deedsOf, hd]
    by_cases hid : s.id = r.ticket
    · obtain ⟨-, t, ht, hti, hread⟩ := hb.readers r (by simp [hr])
      obtain rfl := hb.eq_of_id ht hm (hti.trans hid.symm)
      simpa [hid] using Nudge.handOver line t hread
    · simpa [hid, Ne.symm hid] using Nudge.none s

theorem deedsOf_applyActs (hb : b.Sound) {id : Nat} (hn : ∀ s ∈ b.sessions, s.id ≠ id) (call : Call) :
    Act.deedsOf id (b.applyActs call) = [] := by
  obtain ⟨-, hd⟩ | ⟨line, r, rs, hr, -, -, hd⟩ := apply_cases b 0 call
  · exact Act.deedsOf_of_deeds id hd
  · obtain ⟨-, t, ht, hti, -⟩ := hb.readers r (by simp [hr])
    simp [Act.deedsOf, hd, hti ▸ hn t ht]

/-! How the runs go on -/

theorem settleActs_append (before after : List Session) (b : Bridge) :
    b.settleActs (before ++ after) = b.settleActs before ++
      (before.foldl (advanceAndKeep fun _ => false) b).settleActs after := by
  induction before generalizing b with
  | nil => rfl
  | cons s before ih =>
    simp only [List.cons_append, settleActs, ih, List.foldl_cons, List.append_assoc]

theorem deedsOf_settleActs {id : Nat} {rest : List Session} (hn : ∀ s ∈ rest, s.id ≠ id)
    (b : Bridge) : Act.deedsOf id (b.settleActs rest) = [] := by
  induction rest generalizing b with
  | nil => rfl
  | cons s rest ih =>
    rw [settleActs, Act.deedsOf_append, Act.deedsOf_run_ne (hn s List.mem_cons_self),
      ih fun t ht => hn t (List.mem_cons_of_mem s ht)]
    rfl

theorem config_advanceAndKeep (b : Bridge) (s : Session) :
    (b.advanceAndKeep (fun _ => false) s).config = b.config := by
  change (b.advance (fun _ => false) s).1.config = b.config
  obtain ⟨h, -⟩ | ⟨h, -⟩ := advance_cases b s
  · rw [h]
  · rw [h.frame]

theorem config_settle (rest : List Session) (b : Bridge) :
    (rest.foldl (advanceAndKeep fun _ => false) b).config = b.config := by
  induction rest generalizing b with
  | nil => rfl
  | cons s rest ih =>
    rw [List.foldl_cons, ih, config_advanceAndKeep]

theorem id_advance (b : Bridge) (s : Session) : (b.advance (fun _ => false) s).2.id = s.id := by
  obtain ⟨h, -⟩ | ⟨h, -⟩ := advance_cases b s
  · rw [h]
  · exact h.id

theorem cancelled_advance (b : Bridge) (s : Session) :
    (b.advance (fun _ => false) s).2.cancelled = s.cancelled := by
  obtain ⟨h, -⟩ | ⟨h, -⟩ := advance_cases b s
  · rw [h]
  · exact h.cancelled

theorem hasBegun_advance (b : Bridge) {s : Session} (hb : s.hasBegun = true) :
    (b.advance (fun _ => false) s).2.hasBegun = true := by
  obtain ⟨h, -⟩ | ⟨h, -⟩ := advance_cases b s
  · rw [h]
    exact hb
  · exact h.begun

theorem advance_of_isFinished (b : Bridge) {s : Session} (hf : s.isFinished = true) :
    b.advance (fun _ => false) s = (b, s) ∧ b.advanceDeeds s = [] := by
  obtain h | ⟨-, hn, -⟩ := advance_cases b s
  · exact h
  · rw [hn] at hf
    cases hf

theorem sessions_advanceAndKeep (b : Bridge) (s : Session) :
    (b.advanceAndKeep (fun _ => false) s).sessions =
      b.sessions ++ [(b.advance (fun _ => false) s).2] := by
  simp only [advanceAndKeep, sessions_advance]

def whenReached (b : Bridge) (before : List Session) : Bridge :=
  before.foldl (advanceAndKeep fun _ => false) b

theorem sessions_settle (rest : List Session) (b : Bridge) :
    ∃ more, (rest.foldl (advanceAndKeep fun _ => false) b).sessions = b.sessions ++ more := by
  induction rest generalizing b with
  | nil => exact ⟨[], (List.append_nil _).symm⟩
  | cons s rest ih =>
    obtain ⟨more, h⟩ := ih (b.advanceAndKeep (fun _ => false) s)
    rw [sessions_advanceAndKeep, List.append_assoc] at h
    exact ⟨_, h⟩

theorem ids_settle (rest : List Session) (b : Bridge) :
    (rest.foldl (advanceAndKeep fun _ => false) b).sessions.map Session.id =
      b.sessions.map Session.id ++ rest.map Session.id := by
  induction rest generalizing b with
  | nil => exact (List.append_nil _).symm
  | cons s rest ih =>
    rw [List.foldl_cons, ih, sessions_advanceAndKeep, List.map_append, List.append_assoc,
      List.map_singleton, id_advance]
    rfl

theorem mem_settle {rest : List Session} {s' : Session}
    (hs : s' ∈ (rest.foldl (advanceAndKeep fun _ => false) b).sessions) :
    s' ∈ b.sessions ∨ ∃ before s after, rest = before ++ s :: after ∧
      s' = ((b.whenReached before).advance (fun _ => false) s).2 ∧
      ∃ more, (rest.foldl (advanceAndKeep fun _ => false) b).sessions =
        (b.whenReached before).sessions ++ s' :: more := by
  induction rest generalizing b with
  | nil => exact .inl hs
  | cons s rest ih =>
    obtain hs | ⟨before, t, after, rfl, rfl, hplace⟩ := ih hs
    · rw [sessions_advanceAndKeep] at hs
      rcases List.mem_append.mp hs with hs | hs
      · exact .inl hs
      · obtain ⟨more, hmore⟩ := sessions_settle rest (b.advanceAndKeep (fun _ => false) s)
        rw [sessions_advanceAndKeep, List.append_assoc] at hmore
        rw [List.mem_singleton.mp hs]
        exact .inr ⟨[], s, rest, rfl, rfl, more, hmore⟩
    · exact .inr ⟨s :: before, t, after, rfl, rfl, hplace⟩

/-- Where numbers occur once, a run does in a round what it does when it is reached. -/
theorem deedsOf_settleActs_self {before after : List Session} {s : Session}
    (hn : ((before ++ s :: after).map Session.id).Nodup) (b : Bridge) :
    Act.deedsOf s.id (b.settleActs (before ++ s :: after)) = (b.whenReached before).advanceDeeds s := by
  rw [List.map_append, List.map_cons, List.nodup_append, List.nodup_cons] at hn
  obtain ⟨-, ⟨ha, -⟩, hb⟩ := hn
  rw [settleActs_append, settleActs, Act.deedsOf_append, Act.deedsOf_append, Act.deedsOf_run_self,
    deedsOf_settleActs, deedsOf_settleActs, List.nil_append, List.append_nil]
  · rfl
  · exact fun t ht he => ha (he ▸ List.mem_map_of_mem ht)
  · exact fun t ht => hb t.id (List.mem_map_of_mem ht) s.id List.mem_cons_self

theorem Sound.nodup (h : b.Sound) : (b.sessions.map Session.id).Nodup :=
  List.pairwise_map.mpr (h.ordered.imp Nat.ne_of_lt)

theorem Sound.apply (h : b.Sound) (ticket : Nat) (call : Call) : (b.apply ticket call).1.Sound :=
  (h.accounts (steps_apply b ticket call)).sound

/-! Whole calls -/

/-- How the run `s'` came out of a call: the host left it as `s`, and the bridge was as `c` when it was
this run's turn to go on. -/
structure Turn (b : Bridge) (ticket : Nat) (call : Call) (c : Bridge) (s s' : Session) : Prop where
  config : c.config = b.config
  applied : s ∈ (b.apply ticket call).1.sessions
  id : s.id = s'.id
  goes : s' = (c.advance (fun _ => false) s).2
  deeds : Act.deedsOf s'.id (b.performActs ticket call) =
    Act.deedsOf s'.id (b.applyActs call) ++ c.advanceDeeds s
  place : ∃ after, (b.perform ticket call).1.sessions = c.sessions ++ s' :: after

theorem mem_perform (hb : b.Sound) {ticket : Nat} {call : Call} {s' : Session}
    (hs : s' ∈ (b.perform ticket call).1.sessions) :
    ∃ (c : Bridge) (s₁ : Session), Turn b ticket call c s₁ s' ∧
      ((∃ s ∈ b.sessions, Nudge s (Act.deedsOf s.id (b.applyActs call)) s₁) ∨
        Act.deedsOf b.nextId (b.applyActs call) = [] ∧ s₁ ∈ b.newcomers call) := by
  have hb₁ := hb.apply ticket call
  have hc := (hb.accounts (steps_apply b ticket call)).config
  obtain hs | ⟨before, s₁, after, he, rfl, hplace⟩ :=
    @mem_settle { (b.apply ticket call).1 with sessions := [] } (b.apply ticket call).1.sessions s' hs
  · cases hs
  have hmem : s₁ ∈ (b.apply ticket call).1.sessions := he ▸ by simp
  have hn := hb₁.nodup
  rw [he] at hn
  refine ⟨whenReached { (b.apply ticket call).1 with sessions := [] } before, s₁,
    ⟨?_, hmem, (id_advance _ _).symm, rfl, ?_, hplace⟩, mem_apply hb ticket call hmem⟩
  · rw [whenReached, config_settle]
    exact hc
  · rw [performActs, Act.deedsOf_append, settledActs, id_advance, he, deedsOf_settleActs_self hn]

theorem ids_apply (b : Bridge) (ticket : Nat) (call : Call) :
    (b.apply ticket call).1.sessions.map Session.id =
      b.sessions.map Session.id ++ (b.newcomers call).map Session.id := by
  obtain ⟨h, -⟩ | ⟨line, r, rs, -, hn, h, -⟩ := apply_cases b ticket call <;> rw [h]
  · rw [List.map_append, List.map_map]
    congr 1
    exact List.map_congr_left fun s _ => (nudge_touch b call s).alike.id
  · rw [hn, List.map_map, List.map_nil, List.append_nil]
    refine List.map_congr_left fun s _ => ?_
    exact (Session.alike_ite (Session.alike_receive line) r.ticket s).id

theorem ids_perform (b : Bridge) (ticket : Nat) (call : Call) :
    (b.perform ticket call).1.sessions.map Session.id =
      b.sessions.map Session.id ++ (b.newcomers call).map Session.id :=
  (ids_settle _ _).trans (ids_apply b ticket call)

theorem exists_perform (hb : b.Sound) (ticket : Nat) (call : Call) {s : Session} (hs : s ∈ b.sessions) :
    ∃ (c : Bridge) (s₁ : Session) (s' : Session), s' ∈ (b.perform ticket call).1.sessions ∧
      s'.id = s.id ∧ Turn b ticket call c s₁ s' ∧
      Nudge s (Act.deedsOf s.id (b.applyActs call)) s₁ := by
  have hid : s.id ∈ (b.perform ticket call).1.sessions.map Session.id := by
    rw [ids_perform]
    exact List.mem_append_left _ (List.mem_map_of_mem hs)
  obtain ⟨s', hs', he⟩ := List.mem_map.mp hid
  obtain ⟨c, s₁, ht, ⟨t, hm, hn⟩ | ⟨-, hnew⟩⟩ := mem_perform hb hs'
  · obtain rfl := hb.eq_of_id hm hs (hn.alike.id.symm.trans (ht.id.trans he))
    exact ⟨c, s₁, s', hs', he, ht, hn⟩
  · obtain ⟨source, told, -, rfl⟩ := mem_newcomers hnew
    exact absurd (ht.id.trans he) (Nat.ne_of_gt (hb.known s hs))

/-! Runs that came to rest -/

theorem atRest_carryOn (b : Bridge) {s : Session} (work : Behaviour Ending)
    (ha : s.gate.aborted = s.cancelled) (hw : s.gate.waiting = false) :
    (b.carryOn (fun _ => false) s work).2.AtRest := by
  have hf := Behaviour.follows_run (attends_worker b s.id) work (b.stageOf s)
  have hr := Stage.rests_run (attends_worker b s.id) work (b.stageOf s) hw
  rw [carryOn_eq]
  cases hp : work.run (b.worker s.id) Behaviour.never (b.stageOf s) with
  | mk st progress =>
    rw [hp] at hf hr
    have haborted : st.gate.aborted = s.cancelled := hf.aborted.trans ha
    cases progress with
    | done ending =>
      cases ending <;> exact ⟨⟨haborted, hr, fun h => by cases h⟩, rfl, fun h => by cases h⟩
    | panicked m => exact ⟨⟨haborted, hr, fun h => by cases h⟩, rfl, fun h => by cases h⟩
    | reading logged next =>
      exact ⟨⟨haborted, hr.2, fun _ => hf.cancelled.symm.trans hr.1⟩, rfl, fun h => by cases h⟩
    | paused next => exact ⟨⟨haborted, hr.2, fun h => by cases h⟩, rfl, fun _ => hr.1⟩
    | held rest => exact hr.elim

theorem atRest_advance (b : Bridge) {s : Session} (h : s.Poised) :
    (b.advance (fun _ => false) s).2.AtRest := by
  have hw := h.waiting
  cases hp : s.phase with
  | finished r | reading logged next =>
    simp only [advance, hp]
    exact ⟨h, by simp [Session.isReady, hp], by simp [Session.isAtGate, hp]⟩
  | ready work =>
    simp only [advance, hp]
    exact atRest_carryOn b work h.aborted (by rw [hw, Session.isAtGate, hp])
  | queued behind work =>
    simp only [advance, hp]
    split
    · exact atRest_carryOn _ work h.aborted (by rw [hw, Session.isAtGate, hp])
    · exact ⟨h, by simp [Session.isReady, hp], by simp [Session.isAtGate, hp]⟩
  | paused next =>
    obtain ⟨-, hg⟩ | ⟨-, -, hg⟩ | ⟨ha, hpm, hg⟩ := s.gate.wait_cases <;> simp only [advance, hp, hg]
    · exact atRest_carryOn b _ h.aborted rfl
    · exact atRest_carryOn b _ h.aborted rfl
    · exact ⟨h, by simp [Session.isReady, hp], fun _ => by simp [Gate.passes, ha, hpm]⟩

theorem poised_newcomer (b : Bridge) (id : Nat) (source : String) :
    ({ id, phase := b.firstPhase source } : Session).Poised := by
  unfold firstPhase
  split <;> exact ⟨rfl, rfl, fun _ => rfl⟩

/-! Histories -/

def programs (b : Bridge) : List (Nat × Call) → List (Nat × String)
  | [] => []
  | (ticket, call) :: calls =>
    (match call with
      | .start source _ => [(b.nextId, source)]
      | _ => []) ++ (b.perform ticket call).1.programs calls

theorem programs_append (b : Bridge) (calls more : List (Nat × Call)) :
    b.programs (calls ++ more) = b.programs calls ++ (b.after calls).programs more := by
  induction calls generalizing b with
  | nil => rfl
  | cons c calls ih =>
    simp only [List.cons_append, programs, ih, List.append_assoc, after]

/-- A property of runs and their deeds that new runs have and that every nudge and every turn keeps.
The runs are those of bridges with one configuration, each with a program that it may be given. -/
structure Lasting (config : Config) (drive : String → Behaviour Ending)
    (given : Nat → String → Prop) (P : List Deed → Session → Prop) : Prop where
  fresh : ∀ (b : Bridge) source, b.Sound → b.config = config → b.drive = drive →
    given b.nextId source → P [] { id := b.nextId, phase := b.firstPhase source }
  nudge : ∀ {ds es s s'}, s.AtRest → P ds s → Nudge s es s' → P (ds ++ es) s'
  advance : ∀ {b : Bridge} {ds s}, b.config = config → s.Poised → P ds s →
    P (ds ++ b.advanceDeeds s) (b.advance (fun _ => false) s).2

/-- The runs of a settled bridge, with the deeds that each has done in the past. -/
structure Settled (config : Config) (drive : String → Behaviour Ending)
    (P : List Deed → Session → Prop) (past : List Act) (b : Bridge) : Prop where
  sound : b.Sound
  config : b.config = config
  drive : b.drive = drive
  unborn : ∀ id, b.nextId ≤ id → Act.deedsOf id past = []
  runs : ∀ s ∈ b.sessions, s.AtRest ∧ P (Act.deedsOf s.id past) s

variable {config : Config} {drive : String → Behaviour Ending} {given : Nat → String → Prop}
  {P : List Deed → Session → Prop} {past : List Act}

theorem settled_create (e : Engine σ) (grants : Nat → Bool) (sink : Sink) (config : Config)
    (P : List Deed → Session → Prop) :
    Settled config (e.drive config.run.debug) P [] (create e grants sink config) where
  sound := sound_create e grants sink config
  config := rfl
  drive := rfl
  unborn := fun _ _ => rfl
  runs := fun s hs => by cases hs

theorem nextId_step {acts : List Act} (h : Step b acts b') : b.nextId ≤ b'.nextId := by
  cases h with
  | advance before s after hs =>
    obtain ⟨he, -⟩ | ⟨b₁, s', he, hm, -⟩ := advanceAmong_cases hs
    · exact Nat.le_of_eq (by rw [he])
    · exact Nat.le_of_eq (by rw [he, hm.frame])
  | useId | spawn source => exact Nat.le_succ _
  | _ => exact Nat.le_refl _

theorem nextId_steps {acts : List Act} (h : Steps b acts b') : b.nextId ≤ b'.nextId :=
  h.keep (P := fun _ c => b.nextId ≤ c.nextId) (fun hb hs => Nat.le_trans hb (nextId_step hs)) []
    (Nat.le_refl _)

theorem programs_ge (b : Bridge) (calls : List (Nat × Call)) :
    ∀ p ∈ b.programs calls, b.nextId ≤ p.1 := by
  induction calls generalizing b with
  | nil => exact fun p hp => by cases hp
  | cons c calls ih =>
    obtain ⟨ticket, call⟩ := c
    intro p hp
    rcases List.mem_append.mp hp with hp | hp
    · cases call with
      | start source told => exact Nat.le_of_eq (List.mem_singleton.mp hp ▸ rfl)
      | _ => cases hp
    · exact Nat.le_trans (nextId_steps (steps_perform b ticket call)) (ih _ p hp)

theorem programs_ordered (b : Bridge) (calls : List (Nat × Call)) :
    (b.programs calls).Pairwise fun p p' => p.1 < p'.1 := by
  induction calls generalizing b with
  | nil => exact .nil
  | cons c calls ih =>
    obtain ⟨ticket, call⟩ := c
    cases call with
    | start source told =>
      refine List.pairwise_cons.mpr ⟨fun p hp => ?_, ih _⟩
      have hused : b.nextId < (b.apply ticket (.start source told)).1.nextId := by
        obtain ⟨journal, hb⟩ := apply_start_eq b ticket source told
        rw [hb]
        exact Nat.lt_succ_self _
      have hkept := nextId_steps (steps_settled b ticket (.start source told))
      exact Nat.lt_of_lt_of_le (Nat.lt_of_lt_of_le hused hkept) (programs_ge _ calls p hp)
    | _ => exact ih _

theorem programs_unique {calls : List (Nat × Call)} {n : Nat} {source source' : String}
    (h : (n, source) ∈ b.programs calls) (h' : (n, source') ∈ b.programs calls) :
    source = source' := by
  have hn : ((b.programs calls).map Prod.fst).Nodup :=
    List.pairwise_map.mpr ((programs_ordered b calls).imp Nat.ne_of_lt)
  exact (Prod.mk.inj (List.inj_on_of_nodup_map hn h h' rfl)).2

theorem deedsOf_performActs (hb : b.Sound) (ticket : Nat) (call : Call) {id : Nat}
    (hid : (b.perform ticket call).1.nextId ≤ id) :
    Act.deedsOf id (b.performActs ticket call) = [] := by
  have hn := nextId_steps (steps_apply b ticket call)
  have hn' := nextId_steps (steps_settled b ticket call)
  rw [performActs, Act.deedsOf_append, settledActs]
  rw [deedsOf_applyActs hb, deedsOf_settleActs]
  · rfl
  · intro s hs he
    have := (hb.apply ticket call).known s hs
    omega
  · intro s hs he
    have := hb.known s hs
    omega

theorem Settled.turn (hP : Lasting config drive given P) (h : Settled config drive P past b)
    {ticket : Nat} {call : Call}
    (hg : ∀ source told, call = .start source told → given b.nextId source) {s' : Session}
    (hs' : s' ∈ (b.perform ticket call).1.sessions) :
    ∃ (c : Bridge) (s₁ : Session), Turn b ticket call c s₁ s' ∧ s₁.Poised ∧
      P (Act.deedsOf s₁.id (past ++ b.applyActs call)) s₁ ∧
      ((∃ s ∈ b.sessions, Nudge s (Act.deedsOf s.id (b.applyActs call)) s₁) ∨
        s₁ ∈ b.newcomers call) := by
  obtain ⟨c, s₁, ht, ⟨s, hs, hnudge⟩ | ⟨hnone, hnew⟩⟩ := mem_perform h.sound hs'
  · obtain ⟨hrest, hp⟩ := h.runs s hs
    refine ⟨c, s₁, ht, hnudge.poised hrest, ?_, .inl ⟨s, hs, hnudge⟩⟩
    rw [Act.deedsOf_append, hnudge.alike.id]
    exact hP.nudge hrest hp hnudge
  · obtain ⟨source, told, hcall, rfl⟩ := mem_newcomers hnew
    refine ⟨c, _, ht, poised_newcomer b b.nextId source, ?_, .inr hnew⟩
    rw [Act.deedsOf_append, hnone, h.unborn b.nextId (Nat.le_refl _), List.append_nil]
    exact hP.fresh b source h.sound h.config h.drive (hg source told hcall)

theorem Settled.perform (hP : Lasting config drive given P) (h : Settled config drive P past b)
    (ticket : Nat) (call : Call)
    (hg : ∀ source told, call = .start source told → given b.nextId source) :
    Settled config drive P (past ++ b.performActs ticket call) (b.perform ticket call).1 := by
  have ha := h.sound.accounts (steps_perform b ticket call)
  have hn := nextId_steps (steps_perform b ticket call)
  refine ⟨ha.sound, ha.config.trans h.config, ha.drive.trans h.drive, ?_, ?_⟩
  · intro id hid
    rw [Act.deedsOf_append, h.unborn id (Nat.le_trans hn hid),
      deedsOf_performActs h.sound ticket call hid, List.append_nil]
  · intro s' hs'
    obtain ⟨c, s₁, ht, hpoised, hp, -⟩ := h.turn hP hg hs'
    rw [Act.deedsOf_append, ht.deeds, ← ht.id, ← List.append_assoc, ← Act.deedsOf_append, ht.goes]
    exact ⟨atRest_advance c hpoised, hP.advance (ht.config.trans h.config) hpoised hp⟩

theorem Settled.after (hP : Lasting config drive given P) (h : Settled config drive P past b)
    (calls : List (Nat × Call)) (hg : ∀ p ∈ b.programs calls, given p.1 p.2) :
    Settled config drive P (past ++ b.history calls) (b.after calls) := by
  induction calls generalizing b past with
  | nil => simpa [history, Bridge.after] using h
  | cons c calls ih =>
    rw [history, ← List.append_assoc]
    refine ih (h.perform hP c.1 c.2 ?_) fun p hp => hg p (List.mem_append_right _ hp)
    intro source told hc
    refine hg (b.nextId, source) (List.mem_append_left _ ?_)
    rw [hc]
    exact List.mem_singleton_self _

theorem Lasting.settled {e : Engine σ} (hP : Lasting config (e.drive config.run.debug) given P)
    (grants : Nat → Bool) (sink : Sink) (calls : List (Nat × Call))
    (hg : ∀ p ∈ (create e grants sink config).programs calls, given p.1 p.2) :
    Settled config (e.drive config.run.debug) P ((create e grants sink config).history calls)
      ((create e grants sink config).after calls) :=
  (settled_create e grants sink config P).after hP calls hg

theorem Lasting.turn {e : Engine σ} {grants : Nat → Bool} {sink : Sink} {calls : List (Nat × Call)}
    {ticket : Nat} {call : Call}
    (hP : Lasting config (e.drive config.run.debug) (fun id source =>
      (id, source) ∈ (create e grants sink config).programs (calls ++ [(ticket, call)])) P)
    {s' : Session}
    (hs' : s' ∈ ((create e grants sink config).after (calls ++ [(ticket, call)])).sessions) :
    let b := (create e grants sink config).after calls
    ∃ (c : Bridge) (s₁ : Session), Turn b ticket call c s₁ s' ∧ s₁.Poised ∧
      P (Act.deedsOf s₁.id ((create e grants sink config).history calls ++ b.applyActs call)) s₁ ∧
      ((∃ s ∈ b.sessions, s.AtRest ∧ P (Act.deedsOf s.id ((create e grants sink config).history calls)) s ∧
          Nudge s (Act.deedsOf s.id (b.applyActs call)) s₁) ∨
        s₁ ∈ b.newcomers call) := by
  have hset : Settled config (e.drive config.run.debug) P ((create e grants sink config).history calls)
      ((create e grants sink config).after calls) := by
    refine hP.settled grants sink calls fun p hp => ?_
    rw [programs_append]
    exact List.mem_append_left _ hp
  rw [after_append] at hs'
  obtain ⟨c, s₁, ht, hpoised, hp, ⟨s, hs, hn⟩ | hnew⟩ := hset.turn hP (fun source told hc => by
    rw [programs_append, hc]
    simp [programs]) hs'
  · exact ⟨c, s₁, ht, hpoised, hp, .inl ⟨s, hs, (hset.runs s hs).1, (hset.runs s hs).2, hn⟩⟩
  · exact ⟨c, s₁, ht, hpoised, hp, .inr hnew⟩

end Bridge

end Conduit

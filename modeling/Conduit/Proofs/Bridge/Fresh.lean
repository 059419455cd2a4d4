import Conduit.Engine.Scripted
import Conduit.Proofs.Bridge.Account
import Conduit.Proofs.Bridge.Calls
import Conduit.Proofs.Bridge.Course

/-!
Which lines a new run can get. Lines leave in the order in which they were handed in, so those that
were there when a run was started are the first to leave from then on; whether the run gets one of
them depends on where the input is cleared.
-/
namespace Conduit.Bridge
variable {b b' b₀ : Bridge} {acts past : List Act} {n m : Nat}

theorem advanceDeeds_of_queued {s : Session} (h : s.hasBegun = false)
    (hq : ∀ behind, s.behind? = some behind → behind.all b.hasFinished = true) :
    ∃ ds, b.advanceDeeds s = b.channel.lines.map .discard ++ ds := by
  unfold advanceDeeds
  cases hp : s.phase with
  | queued behind work =>
    have hall := hq behind (by simp [Session.behind?, hp])
    simp only [hall, if_true]
    exact ⟨_, rfl⟩
  | _ => simp [Session.hasBegun, Session.behind?, hp] at h

def Spares (n m : Nat) (removed : List (Taker × String)) : Prop :=
  ∀ p ∈ removed.take m, p.1 ≠ .run n

theorem Spares.append {l l' : List (Taker × String)} (h : Spares n m l)
    (h' : Spares n (m - l.length) l') : Spares n m (l ++ l') := by
  intro p hp
  rw [List.take_append, List.mem_append] at hp
  rcases hp with hp | hp
  · exact h p hp
  · exact h' p hp

theorem spares_of_others {l : List (Taker × String)} (h : ∀ p ∈ l, p.1 ≠ .run n) : Spares n m l :=
  fun p hp => h p (List.mem_of_mem_take hp)

theorem spares_zero (n : Nat) (l : List (Taker × String)) : Spares n 0 l := by
  simp [Spares]

/-- What has happened since the run `n` was started on `b₀`, when `m` lines were there. -/
structure Fresh (b₀ : Bridge) (n m : Nat) (past : List Act) (b : Bridge) : Prop where
  accounts : Accounts b₀ past b
  given : n < b.nextId
  spared : Spares n m (Act.removed past)
  begun : ∀ s ∈ b.sessions, s.id = n → s.hasBegun = true → m ≤ (Act.removed past).length

/-- The lines of `b₀` have left or are still in the buffer: it never holds fewer than had to make room
for a writer. -/
theorem Accounts.covered (h : Accounts b₀ past b) (h₀ : b₀.channel.Sound)
    (hw : b₀.channel.writers = []) :
    b₀.channel.lines.length ≤ (Act.removed past).length + b.channel.lines.length := by
  have hl := congrArg List.length h.lines
  simp only [Channel.pending, hw, List.map_nil, List.append_nil, List.length_append,
    List.length_map] at hl
  by_cases hn : b.channel.writers = []
  · rw [hn, List.length_nil] at hl
    omega
  · have hf := h.sound.channel.full hn
    have hb := h₀.bounded
    rw [h.limit] at hf
    omega

theorem removed_run_others {id : Nat} (hid : id ≠ n) (ds : List Deed) :
    ∀ p ∈ Act.removed (ds.map (.run id)), p.1 ≠ .run n := by
  intro p hp
  obtain ⟨a, ha, hr⟩ := List.mem_filterMap.mp hp
  obtain ⟨d, -, rfl⟩ := List.mem_map.mp ha
  cases d <;> cases hr <;> simp [hid]

theorem Fresh.of_step (h : Fresh b₀ n m past b) (hs : Step b acts b') (hn : b.nextId ≤ b'.nextId)
    (hr : Spares n (m - (Act.removed past).length) (Act.removed acts))
    (hb : ∀ s' ∈ b'.sessions, s'.id = n → s'.hasBegun = true →
      ∃ s ∈ b.sessions, s.id = n ∧ s.hasBegun = true) : Fresh b₀ n m (past ++ acts) b' where
  accounts := h.accounts.step hs
  given := Nat.lt_of_lt_of_le h.given hn
  spared := by
    rw [Act.removed_append]
    exact h.spared.append hr
  begun := by
    intro s' hs' hid hbegun
    obtain ⟨s, hsm, hsid, hsb⟩ := hb s' hs' hid hbegun
    have hle := h.begun s hsm hsid hsb
    rw [Act.removed_append, List.length_append]
    omega

/-- The run `n` itself goes on: if it only begins now, what was there is thrown away first. -/
theorem Fresh.advance {before after : List Session} {s : Session} (h : Fresh b₀ n m past b)
    (hc : m ≤ (Act.removed past).length + b.channel.lines.length)
    (hs : b.sessions = before ++ s :: after) :
    Fresh b₀ n m (past ++ ((b.upTo before).advanceDeeds s).map (.run s.id))
      (b.advanceAmong before s after) := by
  have hstep := Step.advance before s after hs
  obtain ⟨he, hd⟩ | ⟨b₁, s', he, hm, -, -, hq⟩ := advanceAmong_cases hs
  · rw [he, hd, List.map_nil, List.append_nil]
    exact h
  have hnext : (b.advanceAmong before s after).nextId = b.nextId := by
    rw [he, hm.frame]
  have hold : ∀ t ∈ (b.advanceAmong before s after).sessions, t ∈ b.sessions ∨ t = s' := by
    intro t ht
    rw [he, List.mem_append, List.mem_cons] at ht
    rw [hs, List.mem_append, List.mem_cons]
    tauto
  by_cases hid : s.id = n
  · by_cases hb : s.hasBegun = true
    · have hle := h.begun s (by simp [hs]) hid hb
      refine h.of_step hstep (Nat.le_of_eq hnext.symm) ?_ fun _ _ _ _ => ⟨s, by simp [hs], hid, hb⟩
      rw [Nat.sub_eq_zero_of_le hle]
      exact spares_zero n _
    · obtain ⟨ds, hds⟩ := advanceDeeds_of_queued (b := b.upTo before) (by simpa using hb) hq
      have hrem : Act.removed (((b.upTo before).advanceDeeds s).map (.run s.id)) =
          (b.channel.lines.map fun line => (.nobody, line)) ++ Act.removed (ds.map (.run s.id)) := by
        rw [hds, List.map_append, Act.removed_append]
        simp [Act.removed, Act.removed?, List.filterMap_map, Function.comp_def, upTo]
      refine ⟨h.accounts.step hstep, hnext ▸ h.given, ?_, fun _ _ _ _ => ?_⟩
      · rw [Act.removed_append, hrem]
        refine h.spared.append fun p hp => ?_
        rw [List.take_append_of_le_length (by rw [List.length_map]; omega)] at hp
        obtain ⟨line, -, rfl⟩ := List.mem_map.mp (List.mem_of_mem_take hp)
        simp
      · rw [Act.removed_append, hrem, List.length_append, List.length_append, List.length_map]
        omega
  · refine h.of_step hstep (Nat.le_of_eq hnext.symm)
      (spares_of_others (removed_run_others hid _)) fun t ht htid hb => ?_
    rcases hold t ht with ht | rfl
    · exact ⟨t, ht, htid, hb⟩
    · exact absurd (hm.id.symm.trans htid) hid

theorem Fresh.step (h : Fresh b₀ n m past b)
    (hc : m ≤ (Act.removed past).length + b.channel.lines.length) (hs : Step b acts b') :
    Fresh b₀ n m (past ++ acts) b' := by
  have quiet : ∀ g : Session → Session, (∀ s, Session.Alike s (g s)) →
      b'.sessions = b.sessions.map g → b.nextId ≤ b'.nextId →
      Spares n (m - (Act.removed past).length) (Act.removed acts) → Fresh b₀ n m (past ++ acts) b' := by
    intro g hg hm hn hr
    refine h.of_step hs hn hr fun s' hs' hid hb => ?_
    rw [hm] at hs'
    obtain ⟨s, hsm, rfl⟩ := List.mem_map.mp hs'
    exact ⟨s, hsm, (hg s).id.symm.trans hid, by rwa [Session.hasBegun, (hg s).behind] at hb⟩
  have still : b'.sessions = b.sessions → b.nextId ≤ b'.nextId →
      (∀ p ∈ Act.removed acts, p.1 ≠ .run n) → Fresh b₀ n m (past ++ acts) b' := fun hm hn hr =>
    quiet id Session.Alike.refl (hm.trans (List.map_id _).symm) hn (spares_of_others hr)
  cases hs with
  | advance before s after hs => exact h.advance hc hs
  | handOver line r rs hf hr =>
    -- The buffer is empty, so every line that was there has left.
    rw [h.accounts.sound.channel.empty (by simp [hr]), List.length_nil, Nat.add_zero] at hc
    refine quiet _ (Session.alike_ite (Session.alike_receive line) r.ticket) rfl (Nat.le_refl _) ?_
    rw [Nat.sub_eq_zero_of_le hc]
    exact spares_zero n _
  | cancel id =>
    exact quiet _ (Session.alike_ite Session.alike_cancelled id) rfl (Nat.le_refl _)
      (spares_of_others (by simp [Act.removed]))
  | resume id =>
    exact quiet _ (Session.alike_ite Session.alike_resume id) rfl (Nat.le_refl _)
      (spares_of_others (by simp [Act.removed]))
  | spawn source =>
    refine h.of_step (.spawn source) (Nat.le_succ _) (spares_of_others (by simp [Act.removed])) ?_
    intro s hs hid hb
    rcases List.mem_append.mp hs with hs | hs
    · exact ⟨s, hs, hid, hb⟩
    · rw [List.mem_singleton.mp hs] at hid
      exact absurd hid (Nat.ne_of_gt h.given)
  | take line channel served ht => exact still rfl (Nat.le_refl _) (by simp [Act.removed, Act.removed?])
  | clear => exact still rfl (Nat.le_refl _) (by simp)
  | useId => exact still rfl (Nat.le_succ _) (by simp [Act.removed])
  | _ => exact still rfl (Nat.le_refl _) (by simp [Act.removed, Act.removed?])

theorem Fresh.steps (h₀ : b₀.channel.Sound) (hw : b₀.channel.writers = [])
    (h : Fresh b₀ n b₀.channel.lines.length past b) (hs : Steps b acts b') :
    Fresh b₀ n b₀.channel.lines.length (past ++ acts) b' :=
  hs.keep (P := Fresh b₀ n b₀.channel.lines.length)
    (fun h hs => h.step (h.accounts.covered h₀ hw) hs) past h

/-! Starting -/

/-- The one case in which the input is not cleared for a new run: runs queue, none is in flight that
it could wait for, and yet lines are there. -/
def StartsStale (b : Bridge) : Prop :=
  b.config.run.overlap = .queue ∧ b.active = [] ∧ b.channel.lines ≠ [] ∧ b.canSpawn = true

theorem removed_startActs (b : Bridge) : Act.removed b.startActs = Act.removed b.makeWayActs := by
  rw [startActs, Act.removed_append]
  split
  · exact List.append_nil _
  · exact List.append_nil _

theorem fresh_start (h : b.Sound) (hf : ¬ b.StartsStale) (ticket : Nat) (source : String)
    (told : Bool) :
    Fresh b b.nextId b.channel.lines.length b.startActs (b.apply ticket (.start source told)).1 := by
  have ha := h.accounts (steps_apply b ticket (.start source told))
  obtain ⟨journal, hb⟩ := apply_start_eq b ticket source told
  refine ⟨ha, ?_, ?_, ?_⟩
  · rw [hb]
    exact Nat.lt_succ_self _
  · refine spares_of_others fun p hp => ?_
    rw [removed_startActs, makeWayActs] at hp
    split at hp
    · cases hp
    all_goals
      obtain ⟨line, -, rfl⟩ := List.mem_map.mp (Act.removed_discards _ ▸ hp)
      simp
  · intro s hs hid hbegun
    rw [removed_startActs, makeWayActs]
    cases hq : b.config.run.overlap with
    | interleave | supersede => simp
    | queue =>
      rw [hb, makeWay_of_queue hq] at hs
      rcases List.mem_append.mp hs with hs | hs
      · exact absurd hid (Nat.ne_of_lt (h.known s hs))
      · unfold newRuns at hs
        split at hs
        · rename_i hc
          rw [List.mem_singleton.mp hs] at hbegun
          have hl : b.channel.lines = [] := by
            by_contra hl
            refine hf ⟨hq, ?_, hl, hc⟩
            by_contra hn
            simp [Session.hasBegun, Session.behind?, firstPhase_of_queue hq, hn] at hbegun
          simp [hl]
        · cases hs

theorem spares_start (h : b.Sound) (hw : b.channel.writers = []) (hf : ¬ b.StartsStale)
    (ticket : Nat) (source : String) (told : Bool) (calls : List (Nat × Call)) :
    Spares b.nextId b.channel.lines.length
      (Act.removed (b.history ((ticket, .start source told) :: calls))) := by
  have hs := (steps_settled b ticket (.start source told)).trans (steps_history _ calls)
  have hfresh := (fresh_start h hf ticket source told).steps h.channel hw hs
  rw [history, performActs, List.append_assoc]
  exact hfresh.spared

/-! A start that finds lines -/

end Conduit.Bridge

namespace Conduit.Behaviour
variable {α : Type}

def readsFirst (name : String) : Behaviour α → Bool
  | .done _ | .panic _ | .ask .awaitGate _ => false
  | .ask (.read _) _ => true
  | .ask r next =>
    match r.calm name [] with
    | some (reply, _) => (next reply).readsFirst name
    | none => false

theorem deeds_of_readsFirst {w : Worker Audience} {id : Nat} {policy : PausePolicy}
    (hw : Stage.Attends w id policy) {work : Behaviour α} (hr : work.readsFirst w.name = true)
    {st : Stage Audience} (hc : st.cancelled = false) {line : String} {rest : List String}
    (hl : st.channel.lines = line :: rest) :
    ∃ ds es, work.deeds w policy st = ds ++ .receive line :: es ∧ Deed.removals ds = [] := by
  induction work generalizing st with
  | done a => cases hr
  | panic m => cases hr
  | ask r next ih =>
    have step : ∀ {st' reply}, st.serve w r = (st', some reply) → (∀ logged, r ≠ .read logged) →
        Deed.removals (r.deeds policy st.audience.tally reply) = [] →
        (next reply).readsFirst w.name = true →
        ∃ ds es, (ask r next).deeds w policy st = ds ++ .receive line :: es ∧
          Deed.removals ds = [] := by
      intro st' reply hs hn hd hr
      have hf := Stage.follows_reply hw hs
      obtain ⟨ds, es, he, hnil⟩ :=
        ih reply hr (hf.cancelled.trans hc) (by rw [channel_reply hw hn hs, hl])
      refine ⟨r.deeds policy st.audience.tally reply ++ ds, es, ?_, ?_⟩
      · rw [deeds, collect_of_reply hs, ← deeds, he, List.append_assoc]
      · rw [Deed.removals_append, hd, hnil]
        rfl
    cases r with
    | read logged =>
      cases ht : st.channel.take? with
      | none => simp [Channel.take?_eq_none.mp ht] at hl
      | some p =>
        obtain ⟨first, channel, served⟩ := p
        obtain ⟨rest', hl', -⟩ := Channel.take?_cases ht
        obtain ⟨rfl, -⟩ := List.cons.inj (hl'.symm.trans hl)
        have hs : st.serve w (.read logged) =
            ({ st with channel, admitted := st.admitted ++ Stage.writerTickets served },
              some (some first)) := by
          simp only [Stage.serve, hc, Stage.takeLine?, ht, Bool.false_eq_true, if_false]
          rfl
        exact ⟨[], _, collect_of_reply hs next, rfl⟩
    | awaitGate => cases hr
    | tell s => exact step rfl (by simp) (by simp [Request.deeds]) hr
    | isCancelled => exact step rfl (by simp) rfl (by rw [hc]; exact hr)
    | _ => exact step rfl (by simp) rfl hr

end Conduit.Behaviour

namespace Conduit.Bridge
variable {b : Bridge}

theorem settleActs_finished {finished : List Session} (hf : ∀ s ∈ finished, s.isFinished = true)
    (b : Bridge) (rest : List Session) :
    b.settleActs (finished ++ rest) =
      settleActs { b with sessions := b.sessions ++ finished } rest := by
  induction finished generalizing b with
  | nil => rw [List.append_nil, List.nil_append]
  | cons s finished ih =>
    obtain ⟨h, hd⟩ | ⟨-, hn, -⟩ := advance_cases b s
    · rw [List.cons_append, settleActs, hd, List.map_nil, List.nil_append, advanceAndKeep, h,
        ih (fun t ht => hf t (List.mem_cons_of_mem s ht))]
      simp only [List.append_assoc, List.singleton_append]
    · rw [hf s List.mem_cons_self] at hn
      cases hn

/-- Where a start finds lines, the new run is the only one that can go on, and the channel is as it
was. -/
theorem settledActs_of_startsStale (hs : b.StartsStale) (ticket : Nat) (source : String)
    (told : Bool) :
    ∃ hub journal, b.settledActs ticket (.start source told) =
      ({ b with nextId := b.nextId + 1, hub, journal }.carryOnDeeds
        { id := b.nextId, phase := .ready (b.drive source) } (b.drive source)).map
          (.run b.nextId) := by
  obtain ⟨hq, ha, -, hc⟩ := hs
  have hfin : ∀ s ∈ b.sessions, s.isFinished = true := by
    intro s hs
    by_contra hf
    have hm : s ∈ b.active := mem_active.mpr ⟨hs, by simpa using hf⟩
    rw [ha] at hm
    cases hm
  have hnew : b.newRuns source = [{ id := b.nextId, phase := .ready (b.drive source) }] := by
    simp only [newRuns, hc, firstPhase_of_queue hq, ha, if_true]
  obtain ⟨journal, hb⟩ := apply_start_eq b ticket source told
  rw [hnew, makeWay_of_queue hq] at hb
  rw [settledActs, hb, settleActs_finished hfin, settleActs, settleActs, List.append_nil]
  exact ⟨_, journal, rfl⟩

theorem removed_of_startsStale (hs : b.StartsStale) {source : String}
    (hr : (b.drive source).readsFirst (b.workerName b.nextId) = true) (ticket : Nat) (told : Bool)
    (calls : List (Nat × Call)) :
    ∃ line rest, b.channel.lines = line :: rest ∧
      (Act.removed (b.history ((ticket, .start source told) :: calls))).head? =
        some (.run b.nextId, line) := by
  obtain ⟨line, rest, hl⟩ := List.exists_cons_of_ne_nil hs.2.2.1
  obtain ⟨hub, journal, hset⟩ := settledActs_of_startsStale hs ticket source told
  let s : Session := { id := b.nextId, phase := .ready (b.drive source) }
  let b₁ : Bridge := { b with nextId := b.nextId + 1, hub, journal }
  obtain ⟨ds, es, hd, hn⟩ := Behaviour.deeds_of_readsFirst (attends_worker b₁ b.nextId) hr
    (show (b₁.stageOf s).cancelled = false from rfl) hl
  have hw : Act.removed b.startActs = [] := by
    rw [removed_startActs, makeWayActs, hs.1]
    rfl
  have hnil : Act.removed (ds.map (.run b.nextId)) = [] := by
    rw [← List.map_eq_nil_iff, Act.removed_run, hn]
  refine ⟨line, rest, hl, ?_⟩
  rw [history, performActs, Act.removed_append, Act.removed_append, applyActs, hw, hset, carryOnDeeds,
    hd, List.map_append, List.map_append, Act.removed_append, Act.removed_append, hnil]
  rfl

/-- Lines leave in the order in which they came, so the first to leave after a start are those that
were there. The new run gets none of them, unless runs queue and none is in flight: there nothing is
cleared, and a run that comes to a read gets the oldest of them. -/
theorem fresh_input_unless_queue_is_idle (e : Engine σ) (grants : Nat → Bool) (sink : Sink)
    (config : Config) (calls : List (Nat × Call))
    (hw : ((create e grants sink config).after calls).channel.writers = []) :
    let b := (create e grants sink config).after calls
    ∀ ticket source told more,
      let acts := b.history ((ticket, .start source told) :: more)
      b.channel.lines ++ Act.submitted acts = (Act.removed acts).map Prod.snd ++
        (b.after ((ticket, .start source told) :: more)).channel.pending ∧
      (¬ b.StartsStale →
        ∀ p ∈ (Act.removed acts).take b.channel.lines.length, p.1 ≠ .run b.nextId) ∧
      (b.StartsStale → (e.drive config.run.debug source).readsFirst (b.workerName b.nextId) = true →
        ∃ line rest, b.channel.lines = line :: rest ∧
          (Act.removed acts).head? = some (.run b.nextId, line)) := by
  intro b ticket source told more acts
  have ha := (sound_create e grants sink config).accounts
    (steps_history (create e grants sink config) calls)
  refine ⟨?_, fun hf => spares_start ha.sound hw hf ticket source told more, fun hs hr => ?_⟩
  · have hl := (ha.sound.accounts (steps_history b ((ticket, .start source told) :: more))).lines
    rwa [show b.channel.pending = b.channel.lines by
      rw [Channel.pending, hw, List.map_nil, List.append_nil]] at hl
  · have hd : b.drive source = e.drive config.run.debug source := congrFun ha.drive source
    exact removed_of_startsStale hs (hd ▸ hr) ticket told more

/-- One line is there. A script that reads gets it where runs queue, but not where they interleave. -/
theorem fresh_input_unless_queue_is_idle_one_line :
    let queue : Config := { run := { overlap := .queue } }
    let idle :=
      (create Scripted.engine (fun _ => true) (.capture "") queue).after [(0, .submit "old")]
    let plain :=
      (create Scripted.engine (fun _ => true) (.capture "") {}).after [(0, .submit "old")]
    let read : List (Nat × Call) := [(1, .start "read a" true)]
    idle.channel.writers = [] ∧ plain.channel.writers = [] ∧
    (∃ line rest, idle.channel.lines = line :: rest ∧
      (Act.removed (idle.history read)).head? = some (.run idle.nextId, line)) ∧
    (∀ p ∈ (Act.removed (plain.history read)).take plain.channel.lines.length,
      p.1 ≠ .run plain.nextId) := by
  intro queue idle plain read
  have hi : idle.channel.writers = [] := by decide +kernel
  have hp : plain.channel.writers = [] := by decide +kernel
  refine ⟨hi, hp, ?_, ?_⟩
  · refine (fresh_input_unless_queue_is_idle Scripted.engine (fun _ => true) (.capture "") queue _ hi 1
      "read a" true []).2.2 ⟨rfl, rfl, by decide +kernel, by decide +kernel⟩ (by decide +kernel)
  · refine (fresh_input_unless_queue_is_idle Scripted.engine (fun _ => true) (.capture "") {} _ hp 1
      "read a" true []).2.1 fun h => ?_
    have hq : OverlapPolicy.interleave = .queue := h.1
    cases hq

end Conduit.Bridge

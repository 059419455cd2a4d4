import Conduit.Proofs.Bridge.Serial
import Conduit.Proofs.Bridge.Settling

/-!
Where a new run supersedes the earlier ones only the latest is left alone. At any time all others in
flight have been called off; an interpreter then ends them at once and without another word, so the
output is that of one run after the other.
-/
namespace Conduit

theorem Nudge.calledOff {s s' : Session} {es : List Deed} (h : Nudge s es s')
    (hs : s.cancelled = true ∧ s.gate.aborted = true) :
    s'.cancelled = true ∧ s'.gate.aborted = true := by
  cases h with
  | none => exact hs
  | resume => exact hs
  | cancel =>
    unfold Bridge.cancelled
    cases s.phase <;> exact ⟨rfl, rfl⟩
  | handOver line =>
    unfold Session.receive
    cases s.phase <;> exact hs

namespace Bridge
variable {b b' c : Bridge} {s : Session} {past : List Act}

def OnlyLatestLives (b : Bridge) : Prop :=
  ∀ s ∈ b.active, ∀ t ∈ b.sessions, s.id < t.id → s.cancelled = true ∧ s.gate.aborted = true

structure Superseding (b : Bridge) : Prop extends Sound b where
  overlap : b.config.run.overlap = .supersede
  latest : b.OnlyLatestLives

namespace Superseding

theorem create (e : Engine σ) (grants : Nat → Bool) (sink : Sink) {config : Config}
    (ho : config.run.overlap = .supersede) : (create e grants sink config).Superseding where
  toSound := sound_create e grants sink config
  overlap := ho
  latest := fun s hs => by cases hs

theorem tick (h : b.Superseding) (ht : Tick b b') : b'.Superseding := by
  obtain @⟨before, after, s, s', b', hs, hbeat⟩ := ht
  obtain ⟨⟨ds, hm⟩, hf, hread⟩ := hbeat.moves
  -- Each run was there before the step, with the same number, token and gate.
  have hold : ∀ u ∈ before ++ s' :: after, ∃ v ∈ b.sessions, v.id = u.id ∧
      (u.isFinished = false → v.isFinished = false) ∧ u.cancelled = v.cancelled ∧
      u.gate.aborted = v.gate.aborted := by
    intro u hu
    simp only [List.mem_append, List.mem_cons] at hu
    rcases hu with hu | rfl | hu
    · exact ⟨u, by simp [hs, hu], rfl, id, rfl, rfl⟩
    · exact ⟨s, by simp [hs], hm.id.symm, fun _ => hf, hm.cancelled, hm.aborted⟩
    · exact ⟨u, by simp [hs, hu], rfl, id, rfl, rfl⟩
  refine ⟨h.toSound.moves hs hm hread, ?_, fun u hu t ht hlt => ?_⟩
  · rw [hm.frame]
    exact h.overlap
  · obtain ⟨hmem, huf⟩ := mem_active.mp hu
    obtain ⟨v, hv, hid, hvf, hc, ha⟩ := hold u hmem
    obtain ⟨w, hw, hid', -⟩ := hold t ht
    rw [hc, ha]
    exact h.latest v (mem_active.mpr ⟨hv, hvf huf⟩) w hw (by omega)

theorem ticks (h : b.Superseding) (ht : Ticks b c) : c.Superseding := by
  induction ht with
  | refl => exact h
  | tail _ ht ih => exact ih.tick ht

/-- Whatever the host does, it calls off all runs in flight before it adds another. -/
theorem apply (h : b.Superseding) (ticket : Nat) (call : Call) :
    (b.apply ticket call).1.Superseding := by
  have ha := h.toSound.accounts (steps_apply b ticket call)
  refine ⟨ha.sound, by rw [ha.config]; exact h.overlap, fun s' hs' t' ht' hlt => ?_⟩
  obtain ⟨hmem, hf⟩ := mem_active.mp hs'
  obtain ⟨s, hs, hn⟩ | ⟨-, hnew⟩ := mem_apply h.toSound ticket call hmem
  · have hactive : s ∈ b.active := mem_active.mpr ⟨hs, hn.alike.finished.symm.trans hf⟩
    obtain ⟨t, ht, hn'⟩ | ⟨-, hnew⟩ := mem_apply h.toSound ticket call ht'
    · rw [hn.alike.id, hn'.alike.id] at hlt
      exact hn.calledOff (h.latest s hactive t ht hlt)
    · obtain ⟨source, told, rfl, -⟩ := mem_newcomers hnew
      have hcalled : b.callsOff (.start source told) s.id :=
        ⟨h.overlap, List.mem_map_of_mem hactive⟩
      obtain ⟨rfl, -⟩ := applied_of_callsOff h.toSound hs hcalled hmem hn.alike.id
      unfold cancelled
      cases s.phase <;> exact ⟨rfl, rfl⟩
  · -- The new run is the latest.
    obtain ⟨source, told, -, rfl⟩ := mem_newcomers hnew
    obtain ⟨t, ht, hn'⟩ | ⟨-, hnew'⟩ := mem_apply h.toSound ticket call ht'
    · have hknown := h.known t ht
      rw [hn'.alike.id] at hlt
      simp only at hlt
      omega
    · obtain ⟨source', told', -, rfl⟩ := mem_newcomers hnew'
      simp only at hlt
      omega

theorem collect (h : b.Superseding) : b.collect.1.Superseding where
  channel := h.channel
  writers := h.writers
  ordered := h.ordered
  known := h.known
  readers := h.readers
  distinct := h.distinct
  overlap := h.overlap
  latest := h.latest

/-- Nothing holds up a run that was called off, so only the latest run is in flight once all are at
rest. -/
theorem last (h : b.Superseding) (hr : ∀ s ∈ b.sessions, s.AtRest ∧ s.hasBegun = true) :
    ∀ s ∈ b.active, ∀ t ∈ b.sessions, t.id ≤ s.id := by
  intro s hs t ht
  by_contra hlt
  obtain ⟨hmem, hf⟩ := mem_active.mp hs
  obtain ⟨hrest, hbegun⟩ := hr s hmem
  obtain ⟨hc, -⟩ := h.latest s hs t ht (by omega)
  rw [hrest.isFinished_of_cancelled hc hbegun] at hf
  cases hf

end Superseding

theorem length_active_le_one (hb : b.Sound)
    (hl : ∀ s ∈ b.active, ∀ t ∈ b.sessions, t.id ≤ s.id) : b.active.length ≤ 1 := by
  have hordered : b.active.Pairwise fun s t => s.id < t.id := hb.ordered.filter _
  cases h : b.active with
  | nil => exact Nat.zero_le 1
  | cons s rest =>
    cases rest with
    | nil => exact Nat.le_refl 1
    | cons t rest =>
      rw [h] at hordered
      have hlt := (List.pairwise_cons.mp hordered).1 t List.mem_cons_self
      have hle := hl s (by simp [h]) t (mem_active.mp (by simp [h] : t ∈ b.active)).1
      omega

theorem Scheduled.superseding {e : Engine σ} {grants : Nat → Bool} {sink : Sink} {config : Config}
    {calls : List (Nat × Call)} (ho : config.run.overlap = .supersede)
    (h : Scheduled (create e grants sink config) calls b) : b.Superseding := by
  induction h with
  | start => exact .create e grants sink ho
  | call _ ht _ ih => exact ((ih.apply _ _).ticks ht).collect

/-! Whose turn it is -/

theorem grouped_settleActs {rest : List Session} (hr : rest.Pairwise fun s t => s.id < t.id)
    (b : Bridge) :
    ((Act.deeds (b.settleActs rest)).map Prod.fst).Pairwise (· ≤ ·) ∧
      ∀ i ∈ (Act.deeds (b.settleActs rest)).map Prod.fst,
        ∃ s ∈ rest, s.id = i ∧ s.isFinished = false := by
  induction rest generalizing b with
  | nil => exact ⟨.nil, fun i hi => by cases hi⟩
  | cons s rest ih =>
    obtain ⟨hlt, hr⟩ := List.pairwise_cons.mp hr
    obtain ⟨hg, hm⟩ := ih hr (b.advanceAndKeep (fun _ => false) s)
    have hids : (Act.deeds (b.settleActs (s :: rest))).map Prod.fst =
        List.replicate (b.advanceDeeds s).length s.id ++
          (Act.deeds ((b.advanceAndKeep (fun _ => false) s).settleActs rest)).map Prod.fst := by
      simp [settleActs, Function.comp_def, List.map_const']
    rw [hids]
    refine ⟨List.pairwise_append.mpr ⟨List.pairwise_replicate.mpr (.inr (Nat.le_refl _)), hg,
      fun i hi j hj => ?_⟩, fun i hi => ?_⟩
    · obtain ⟨t, ht, rfl, -⟩ := hm j hj
      rw [List.eq_of_mem_replicate hi]
      exact Nat.le_of_lt (hlt t ht)
    · rcases List.mem_append.mp hi with hi | hi
      · refine ⟨s, List.mem_cons_self, (List.eq_of_mem_replicate hi).symm, ?_⟩
        cases hf : s.isFinished with
        | false => rfl
        | true =>
          rw [(advance_of_isFinished b hf).2] at hi
          cases hi
      · obtain ⟨t, ht, hid, hf⟩ := hm i hi
        exact ⟨t, List.mem_cons_of_mem s ht, hid, hf⟩

/-- By itself a call makes at most one run do something, one that was in flight. -/
theorem grouped_applyActs (hb : b.Sound) (call : Call) :
    ((Act.deeds (b.applyActs call)).map Prod.fst).Pairwise (· ≤ ·) ∧
      ∀ i ∈ (Act.deeds (b.applyActs call)).map Prod.fst, ∃ s ∈ b.active, s.id = i := by
  obtain ⟨-, hd⟩ | ⟨line, r, rs, hr, -, -, hd⟩ := apply_cases b 0 call <;> rw [hd]
  · exact ⟨.nil, fun i hi => by cases hi⟩
  · refine ⟨List.pairwise_singleton _ _, fun i hi => ?_⟩
    obtain ⟨-, s, hs, hid, hread⟩ := hb.readers r (by simp [hr])
    rw [List.mem_singleton.mp hi]
    exact ⟨s, mem_active.mpr ⟨hs, (Session.of_isReading hread).2⟩, hid⟩

/-- Where only the latest run is in flight, a call keeps what the runs do grouped by run: only that run
and a new one do anything. -/
theorem grouped_perform (hb : b.Sound) (hl : ∀ s ∈ b.active, ∀ t ∈ b.sessions, t.id ≤ s.id)
    (hg : ((Act.deeds past).map Prod.fst).Pairwise (· ≤ ·))
    (hm : ∀ i ∈ (Act.deeds past).map Prod.fst, ∃ s ∈ b.sessions, s.id = i) (ticket : Nat)
    (call : Call) :
    ((Act.deeds (past ++ b.performActs ticket call)).map Prod.fst).Pairwise (· ≤ ·) ∧
      ∀ i ∈ (Act.deeds (past ++ b.performActs ticket call)).map Prod.fst,
        ∃ s ∈ (b.perform ticket call).1.sessions, s.id = i := by
  obtain ⟨hga, hma⟩ := grouped_applyActs hb call
  obtain ⟨hgs, hms⟩ := grouped_settleActs (hb.apply ticket call).ordered
    { (b.apply ticket call).1 with sessions := [] }
  have late_apply : ∀ i ∈ (Act.deeds (b.applyActs call)).map Prod.fst,
      ∀ t ∈ b.sessions, t.id ≤ i := by
    intro i hi
    obtain ⟨s, hs, rfl⟩ := hma i hi
    exact hl s hs
  have late_settle : ∀ i ∈ (Act.deeds (b.settledActs ticket call)).map Prod.fst,
      ∀ t ∈ b.sessions, t.id ≤ i := by
    intro i hi
    obtain ⟨s', hs', rfl, hf⟩ := hms i hi
    obtain ⟨s, hs, hn⟩ | ⟨-, hnew⟩ := mem_apply hb ticket call hs'
    · rw [hn.alike.id]
      exact hl s (mem_active.mpr ⟨hs, hn.alike.finished.symm.trans hf⟩)
    · obtain ⟨source, told, -, rfl⟩ := mem_newcomers hnew
      exact fun t ht => Nat.le_of_lt (hb.known t ht)
  have stays : ∀ s ∈ b.sessions, ∃ s' ∈ (b.perform ticket call).1.sessions, s'.id = s.id := by
    intro s hs
    refine List.mem_map.mp ?_
    rw [ids_perform]
    exact List.mem_append_left _ (List.mem_map_of_mem hs)
  simp only [performActs, Act.deeds_append, List.map_append]
  refine ⟨List.pairwise_append.mpr ⟨hg, List.pairwise_append.mpr ⟨hga, hgs, ?_⟩, ?_⟩, ?_⟩
  · intro i hi j hj
    obtain ⟨s, hs, rfl⟩ := hma i hi
    exact late_settle j hj s (mem_active.mp hs).1
  · intro i hi j hj
    obtain ⟨s, hs, rfl⟩ := hm i hi
    rcases List.mem_append.mp hj with hj | hj
    · exact late_apply j hj s hs
    · exact late_settle j hj s hs
  · intro i hi
    simp only [List.mem_append] at hi
    rcases hi with hi | hi | hi
    · obtain ⟨s, hs, rfl⟩ := hm i hi
      exact stays s hs
    · obtain ⟨s, hs, rfl⟩ := hma i hi
      exact stays s (mem_active.mp hs).1
    · obtain ⟨s', hs', rfl, -⟩ := hms i hi
      refine List.mem_map.mp ?_
      rw [ids_perform, ← ids_apply b ticket call]
      exact List.mem_map_of_mem hs'

theorem superseding_after (e : Engine σ) (grants : Nat → Bool) (sink : Sink) {config : Config}
    (ho : config.run.overlap = .supersede) (calls : List (Nat × Call)) :
    let b := (create e grants sink config).after calls
    b.Superseding ∧ ∀ s ∈ b.active, ∀ t ∈ b.sessions, t.id ≤ s.id := by
  have h := (scheduled_after e grants sink config calls).superseding ho
  exact ⟨h, h.last (begun_runs e grants sink config (by rw [ho]; simp) calls)⟩

/-- Whatever the runs do is grouped by run: before a run does anything all earlier ones have done
everything. -/
theorem grouped_history (e : Engine σ) (grants : Nat → Bool) (sink : Sink) {config : Config}
    (ho : config.run.overlap = .supersede) (calls : List (Nat × Call)) :
    let acts := (create e grants sink config).history calls
    ((Act.deeds acts).map Prod.fst).Pairwise (· ≤ ·) ∧
      ∀ i ∈ (Act.deeds acts).map Prod.fst,
        ∃ s ∈ ((create e grants sink config).after calls).sessions, s.id = i := by
  induction calls using List.reverseRecOn with
  | nil => exact ⟨.nil, fun i hi => by cases hi⟩
  | append_singleton calls c ih =>
    obtain ⟨ticket, call⟩ := c
    obtain ⟨h, hl⟩ := superseding_after e grants sink ho calls
    obtain ⟨hg, hm⟩ := ih
    have hhistory : (create e grants sink config).history (calls ++ [(ticket, call)]) =
        (create e grants sink config).history calls ++
          ((create e grants sink config).after calls).performActs ticket call := by
      simp only [history_append, history, List.append_nil]
    rw [hhistory, after_append]
    exact grouped_perform h.toSound hl hg hm ticket call

/-- A run of an interpreter that is in flight when another is started ends cancelled in that call. It
prints nothing more, then or later. -/
theorem ends_superseded (i : Interpreter) (grants : Nat → Bool) (sink : Sink) {config : Config}
    (ho : config.run.overlap = .supersede) (calls : List (Nat × Call)) (ticket : Nat)
    (source : String) (told : Bool) (later : List (Nat × Call))
    (hs : s ∈ ((create i.engine grants sink config).after calls).active) :
    let b := (create i.engine grants sink config).after calls
    let rest := (ticket, Call.start source told) :: later
    (∃ s' ∈ (b.after rest).sessions, s'.id = s.id ∧
      ∃ r, s'.report? = some r ∧ r.outcome = .cancelled) ∧
    Deed.prints (Act.deedsOf s.id (b.history rest)) = [] := by
  intro b rest
  obtain ⟨h, -⟩ := superseding_after i.engine grants sink ho calls
  have hbegun :=
    (begun_runs i.engine grants sink config (by rw [ho]; simp) calls s (mem_active.mp hs).1).2
  obtain ⟨⟨s₁, hs₁, hid, r, hr, houtcome⟩, -, hprints, -⟩ :=
    ends_of_callsOff i grants sink config calls ticket
    (.start source told) hs hbegun ⟨h.overlap, List.mem_map_of_mem hs⟩
  have hsound := (h.toSound.accounts (steps_perform b ticket (.start source told))).sound
  obtain ⟨⟨s', hs', hid', hr'⟩, hquiet, -⟩ := report_after hsound hs₁ hr later
  refine ⟨⟨s', hs', hid'.trans hid, r, hr', houtcome⟩, ?_⟩
  rw [hid] at hquiet
  simp only [rest, history, Act.deedsOf_append, Deed.prints_append, hquiet]
  rw [hprints]
  rfl

/-- Superseding leaves one live run. At any time, between any two steps of the runs, all that are in
flight but the latest have been called off and their gates aborted. Of the runs of an interpreter at most
one is in flight once they have come to a halt. One that is in flight when another is started ends
cancelled and prints nothing more, so what the runs print is the output of the first one, then that of
the second, and so on. -/
theorem superseding_leaves_one_live_run (grants : Nat → Bool) (sink : Sink) (config : Config)
    (ho : config.run.overlap = .supersede) (calls : List (Nat × Call)) :
    (∀ {σ : Type} (e : Engine σ) (b : Bridge), Scheduled (create e grants sink config) calls b →
      b.OnlyLatestLives ∧
      ∀ ticket call c, Ticks (b.apply ticket call).1 c → c.OnlyLatestLives) ∧
    ∀ i : Interpreter,
      let b₀ := create i.engine grants sink config
      (∀ b, Scheduled b₀ calls b → b.active.length ≤ 1) ∧
      Scheduled b₀ calls (b₀.after calls) ∧
      (∀ s ∈ (b₀.after calls).active, ∀ ticket source told later,
        let rest := (ticket, Call.start source told) :: later
        (∃ s' ∈ (b₀.after (calls ++ rest)).sessions, s'.id = s.id ∧
          ∃ r, s'.report? = some r ∧ r.outcome = .cancelled) ∧
        Deed.prints (Act.deedsOf s.id ((b₀.after calls).history rest)) = []) ∧
      (b₀.after calls).sink = sink.feed (Act.printed (b₀.history calls)) ∧
      (b₀.after calls).sessions.Pairwise (fun s t => s.id < t.id) ∧
      Act.runPrints (b₀.history calls) = (b₀.after calls).sessions.flatMap
        (fun s => Deed.prints (Act.deedsOf s.id (b₀.history calls))) := by
  refine ⟨fun e b hb => ?_, fun i => ?_⟩
  · have h := hb.superseding ho
    exact ⟨h.latest, fun ticket call c hc => ((h.apply ticket call).ticks hc).latest⟩
  · intro b₀
    obtain ⟨h, -⟩ := superseding_after i.engine grants sink ho calls
    obtain ⟨hg, hm⟩ := grouped_history i.engine grants sink ho calls
    refine ⟨fun b hb => ?_, scheduled_after i.engine grants sink config calls,
      fun s hs ticket source told later => ?_, ?_, h.ordered,
      runPrints_of_deeds (h.toSound.deeds_of_grouped hg hm)⟩
    · have h := hb.superseding ho
      obtain ⟨hlawful, hstill⟩ := hb.lawful
      refine length_active_le_one h.toSound (h.last fun s hs => ⟨hlawful.atRest hstill hs, ?_⟩)
      by_contra hu
      rw [Bool.not_eq_true, Session.hasBegun, Option.isNone_eq_false_iff] at hu
      obtain ⟨behind, hb⟩ := Option.isSome_iff_exists.mp hu
      have hq := (hlawful.queued s hs behind hb).1
      rw [ho] at hq
      cases hq
    · intro rest
      rw [after_append]
      exact ends_superseded i grants sink ho calls ticket source told later hs
    · exact ((sound_create i.engine grants sink config).accounts (steps_history _ calls)).sink

/-- A run at a read that is superseded by another, which then prints. -/
theorem superseding_leaves_one_live_run_two :
    let config : Config := { run := { overlap := .supersede } }
    let first : List (Nat × Call) := [(0, .start "println a\nread b" true)]
    let rest : List (Nat × Call) := [(1, .start "println c" true)]
    let b₀ := create Interpreter.lines.engine (fun _ => true) (.capture "") config
    config.run.overlap = .supersede ∧
    (b₀.after first).active.map Session.id = [1] ∧
    (∃ s' ∈ (b₀.after (first ++ rest)).sessions, s'.id = 1 ∧
      ∃ r, s'.report? = some r ∧ r.outcome = .cancelled) ∧
    Act.runPrints (b₀.history (first ++ rest)) = [.line "a", .line "c"] ∧
    Act.runPrints (b₀.history (first ++ rest)) = (b₀.after (first ++ rest)).sessions.flatMap
      (fun s => Deed.prints (Act.deedsOf s.id (b₀.history (first ++ rest)))) := by
  intro config first rest b₀
  have hactive : (b₀.after first).active.map Session.id = [1] := by decide +kernel
  have hmem : 1 ∈ (b₀.after first).active.map Session.id := hactive ▸ List.mem_singleton_self 1
  obtain ⟨s, hs, hid⟩ := List.mem_map.mp hmem
  obtain ⟨-, h⟩ := superseding_leaves_one_live_run (fun _ => true) (.capture "") config rfl first
  obtain ⟨-, h'⟩ :=
    superseding_leaves_one_live_run (fun _ => true) (.capture "") config rfl (first ++ rest)
  obtain ⟨-, -, hends, -⟩ := h .lines
  obtain ⟨-, -, -, -, -, hprints⟩ := h' .lines
  refine ⟨rfl, hactive, ?_, by decide +kernel, hprints⟩
  rw [← hid]
  exact (hends s hs 1 "println c" true []).1

end Bridge

end Conduit

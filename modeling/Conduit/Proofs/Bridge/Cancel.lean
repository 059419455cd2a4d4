import Conduit.Proofs.Bridge.Life

/-!
Cancellation. A run that is called off while its program runs ends in the same call and does nothing on
its way out but tell so; one that is called off while it waits for its turn never takes up its work.
Other runs and the input are not concerned.
-/
namespace Conduit

namespace Session
variable {s : Session} {policy : PausePolicy} {work : Behaviour Ending} {xs : List Exchange}
  {q : Station} {ds : List Deed} {c : Bridge}

theorem AtRest.isFinished_of_cancelled (h : s.AtRest) (hc : s.cancelled = true)
    (hb : s.hasBegun = true) : s.isFinished = true := by
  obtain hf | ⟨-, hu | ⟨-, hread | hgate⟩⟩ := h.cases
  · exact hf
  · rw [hu] at hb
    cases hb
  · rw [h.reading hread] at hc
    cases hc
  · have hshut := h.shut hgate
    rw [Gate.passes, h.aborted, hc] at hshut
    cases hshut

theorem cancelled_cancelled (s : Session) : (Bridge.cancelled s).cancelled = true := by
  unfold Bridge.cancelled
  cases s.phase <;> rfl

theorem Orderly.cancel (h : s.Orderly policy work xs q ds) (hr : s.AtRest) (hb : s.hasBegun = true)
    (hf : s.isFinished = false) :
    ∃ ys q', (Bridge.cancelled s).Orderly policy work (xs ++ ys) q' ds ∧
      (q' = .calledOff ∨ q' = .checkpoint) := by
  obtain ⟨ys, q', h', hq⟩ := h.nudge hr (.cancel s)
  rw [List.append_nil] at h'
  refine ⟨ys, q', h', ?_⟩
  have hbears := h'.bears ((alike_cancelled s).finished.trans hf)
  rw [cancelled_cancelled] at hbears
  obtain rfl | ⟨rfl, logged, reply, hm⟩ := hq
  · obtain hfin | ⟨-, hu | ⟨-, hread | hgate⟩⟩ := hr.cases
    · rw [hf] at hfin
      cases hfin
    · rw [hu] at hb
      cases hb
    · obtain rfl := h.running_of_isReading hread
      obtain hoff | hoff | ⟨hoff, -⟩ := hbears <;> cases hoff
    · exact .inr (h.checkpoint_of_isAtGate hgate)
  · cases hm with
    | take => obtain hoff | hoff | ⟨hoff, -⟩ := hbears <;> cases hoff
    | miss => exact .inl rfl

theorem Orderly.closes_leaving (h : s.Orderly policy work xs q ds) {r : RunReport}
    (hr : s.report? = some r) :
    q ≠ .checkpoint ∧ (q.IsLeaving → r.outcome = .cancelled ∧ q.toClose = []) := by
  obtain ⟨rfl, -⟩ | ⟨rfl, -⟩ | ⟨off, rfl, ho⟩ | ⟨rfl, -⟩ := h.closes hr
  · exact ⟨by simp, fun hl => by obtain hl | hl | hl | hl := hl <;> cases hl⟩
  · exact ⟨by simp, fun hl => by obtain hl | hl | hl | hl := hl <;> cases hl⟩
  · refine ⟨by simp, fun hl => ?_⟩
    obtain hl | hl | hl | hl := hl <;> cases hl
    exact ⟨ho, rfl⟩
  · exact ⟨by simp, fun hl => by obtain hl | hl | hl | hl := hl <;> cases hl⟩

/-- A run that is called off amid its program ends in its next turn. It prints nothing more and takes no
line; all it does is tell that it leaves. -/
theorem Orderly.called_off (h : s.Orderly policy work xs q ds) (hr : s.AtRest)
    (hb : s.hasBegun = true) (hf : s.isFinished = false) (hc : c.config.run.pause = policy) :
    (∃ r, (c.advance (fun _ => false) (Bridge.cancelled s)).2.report? = some r ∧
      r.outcome = .cancelled) ∧
    Deed.publications (c.advanceDeeds (Bridge.cancelled s)) =
      [.stackPopped 0, .executionStopped, .finished .cancelled] ∧
    Deed.prints (c.advanceDeeds (Bridge.cancelled s)) = [] ∧
    Deed.removals (c.advanceDeeds (Bridge.cancelled s)) = [] := by
  obtain ⟨ys, q₁, h₁, hq₁⟩ := h.cancel hr hb hf
  have hpoised := (Nudge.cancel s).poised hr
  have hbegun : (Bridge.cancelled s).hasBegun = true := by
    rw [hasBegun, (alike_cancelled s).behind]
    exact hb
  have hf₁ : (Bridge.cancelled s).isFinished = false := (alike_cancelled s).finished.trans hf
  have hoff := cancelled_cancelled s
  generalize Bridge.cancelled s = s₁ at h₁ hpoised hbegun hf₁ hoff
  obtain ⟨zs, q', h', hpath, hagrees⟩ := h₁.advance hpoised hc
  have hfinished := (Bridge.atRest_advance c hpoised).isFinished_of_cancelled
    ((Bridge.cancelled_advance c s₁).trans hoff) (Bridge.hasBegun_advance c hbegun)
  obtain ⟨r, hrep⟩ := Option.isSome_iff_exists.mp hfinished
  obtain ⟨rest, hw⟩ := exists_work hf₁
  have hdepth : s₁.tally.depth = 1 := by
    rw [h₁.tally]
    exact h₁.accounts.depth (by obtain rfl | rfl := hq₁ <;> rfl)
  rw [hoff] at hagrees
  have hend := h'.closes_leaving hrep
  obtain ⟨hleaving, passed, es, hpassed, hdeeds, hclose⟩ :=
    hpath.closing policy hq₁ hagrees hdepth hend.1
  obtain ⟨ho, hnone⟩ := hend.2 hleaving
  rw [hnone, List.append_nil] at hclose
  have hclosing : (c.advance (fun _ => false) s₁).2.closing = [.publish (.finished .cancelled)] := by
    simp only [closing, hrep, ho]
  -- Events, prints and receipts alike: nothing but the closing events, and the wait that was aborted.
  have since : ∀ {β : Type} {g : Deed → Option β}, (∀ line, g (.discard line) = none) →
      g (.pass .aborted) = none →
      (c.advanceDeeds s₁).filterMap g = ([.stackPopped 0, .executionStopped, .finished .cancelled].map
        Deed.publish).filterMap g := by
    intro β g hg hp
    have hnone : passed.filterMap g = [] := by
      obtain rfl | rfl := hpassed
      · rfl
      · simp [hp]
    rw [h₁.filterMap_since hw h'.toTranscript hg, hdeeds, ← hclose, hclosing, List.filterMap_append,
      hnone, List.nil_append, ← List.filterMap_append]
    rfl
  refine ⟨⟨r, hrep, ho⟩, since (fun _ => rfl) rfl, since (fun _ => rfl) rfl, ?_⟩
  rw [Bridge.removals_advanceDeeds c hbegun]
  exact since (fun _ => rfl) rfl

/-- A run that was called off while it waited for its turn: it waits on, or it has looked at its token,
thrown away what was buffered and told that it is over. -/
def Idle (policy : PausePolicy) (work : Behaviour Ending) (ds : List Deed) (s : Session) : Prop :=
  s.cancelled = true ∧
    (s.hasBegun = false ∧ s.Transcript policy work [] ds ∧ ds = [] ∨
      s.report? = some ⟨s.id, .cancelled, 0, 0, 0⟩ ∧
        s.Transcript policy work [Engine.look true] ds ∧
        ∃ lines : List String, ds = lines.map .discard ++ [.publish (.finished .cancelled)])

theorem Orderly.idle_advance (h : s.Orderly policy work xs q ds) (hp : s.Poised)
    (hi : s.Idle policy work ds) (hc : c.config.run.pause = policy) :
    (c.advance (fun _ => false) s).2.Idle policy work (ds ++ c.advanceDeeds s) := by
  obtain ⟨hoff, ⟨hu, ht, rfl⟩ | ⟨hr, ht⟩⟩ := hi
  · obtain ⟨rfl, -⟩ := h.unbegun hu
    obtain ⟨ys, q', h', hpath, hagrees⟩ := h.advance hp hc
    obtain ⟨he, hd⟩ | ⟨hm, -⟩ := Bridge.advance_cases c s
    · rw [he, hd]
      exact ⟨hoff, .inl ⟨hu, ht, rfl⟩⟩
    · have hoff' := hm.cancelled.trans hoff
      have hfinished := (Bridge.atRest_advance c hp).isFinished_of_cancelled hoff' hm.begun
      obtain ⟨r, hr⟩ := Option.isSome_iff_exists.mp hfinished
      obtain rfl := h.fresh_of_unbegun hu
      rw [hoff] at hagrees
      -- The first thing it does is to look at its token, and that ends it.
      obtain ⟨rfl, rfl⟩ : ys = [Engine.look true] ∧ q' = .dropped := by
        cases hpath with
        | refl => obtain ⟨h, -⟩ | ⟨h, -⟩ | ⟨off, h, -⟩ | ⟨h, -⟩ := h'.closes hr <;> cases h
        | more hm p =>
          have hx := hagrees _ List.mem_cons_self
          cases hm with
          | begin => cases hx
          | drop =>
            cases p with
            | refl => exact ⟨rfl, rfl⟩
            | more hm => cases hm
      have ho : r.outcome = .cancelled := by
        obtain ⟨-, ho⟩ | ⟨hn, -⟩ | ⟨off, hn, -⟩ | ⟨hn, -⟩ := h'.closes hr
        · exact ho
        all_goals cases hn
      obtain ⟨hrep, -⟩ := h'.report hr
      obtain ⟨lines, hdeeds⟩ := h'.deeds
      rw [ho, h'.tally, h'.resumed] at hrep
      simp only [closing, hr, ho] at hdeeds
      refine ⟨hoff', .inr ⟨hr.trans (congrArg some hrep), h'.toTranscript, lines, ?_⟩⟩
      simpa [Dialogue.deeds, Engine.look, Request.deeds] using hdeeds
  · obtain ⟨hstay, hquiet⟩ :=
      Bridge.advance_of_isFinished c (s := s) (by rw [isFinished, hr]; rfl)
    rw [hstay, hquiet, List.append_nil]
    exact ⟨hoff, .inr ⟨hr, ht⟩⟩

theorem Idle.publications (h : s.Idle policy work ds) :
    Deed.publications ds = if s.isFinished then [.finished .cancelled] else [] := by
  obtain ⟨-, ⟨hwaits, -, rfl⟩ | ⟨hr, -, lines, rfl⟩⟩ := h
  · have hf : s.isFinished = false := by
      unfold hasBegun behind? at hwaits
      unfold isFinished report?
      cases hp : s.phase <;> simp_all
    rw [hf]
    rfl
  · have hf : s.isFinished = true := by rw [isFinished, hr]; rfl
    rw [hf, Deed.publications_append, Deed.publications_discard]
    rfl

theorem Idle.nudge {s' : Session} {es : List Deed} (h : s.Idle policy work ds)
    (hn : Nudge s es s') : s'.Idle policy work (ds ++ es) := by
  obtain ⟨hoff, h⟩ := h
  obtain ⟨rfl, hp, hta, hre, hpe, hca⟩ | ⟨logged, next, reply, hp, -⟩ := hn.cases
  · have hreport : s'.report? = s.report? := by simp only [report?, hp]
    refine ⟨hca hoff, ?_⟩
    rw [List.append_nil]
    obtain ⟨hu, ht, hd⟩ | ⟨hr, ht, hd⟩ := h
    · refine .inl ⟨?_, ht.still hn.alike.id hp hta hre hpe, hd⟩
      rw [hasBegun, hn.alike.behind]
      exact hu
    · exact .inr ⟨by rw [hreport, hr, hn.alike.id], ht.still hn.alike.id hp hta hre hpe, hd⟩
  · obtain ⟨hu, -⟩ | ⟨hr, -⟩ := h
    · simp [hasBegun, behind?, hp] at hu
    · simp [report?, hp] at hr

theorem Orderly.idle (h : s.Orderly policy work xs q ds) (hu : s.hasBegun = false)
    (hc : s.cancelled = true) : s.Idle policy work ds := by
  have ht := h.toTranscript
  obtain ⟨rfl, rfl⟩ := h.unbegun hu
  exact ⟨hc, .inl ⟨hu, ht, rfl⟩⟩

end Session

namespace Bridge
variable {b : Bridge} {s : Session}

def callsOff (b : Bridge) (call : Call) (id : Nat) : Prop :=
  match call with
  | .cancel id' => id = id'
  | .stop => id ∈ b.active.map Session.id
  | .start _ _ => b.config.run.overlap = .supersede ∧ id ∈ b.active.map Session.id
  | _ => False

theorem applied_of_callsOff (hb : b.Sound) {ticket : Nat} {call : Call} {s₁ : Session}
    (hs : s ∈ b.sessions) (hc : b.callsOff call s.id)
    (hs₁ : s₁ ∈ (b.apply ticket call).1.sessions) (hid : s₁.id = s.id) :
    s₁ = cancelled s ∧ Act.deedsOf s.id (b.applyActs call) = [] := by
  have htouch : b.touch call s = cancelled s := by
    cases call with
    | cancel id => exact if_pos hc
    | stop => exact if_pos hc
    | start source told => exact if_pos hc
    | _ => exact hc.elim
  obtain ⟨h, hd⟩ | ⟨line, r, rs, -, -, -, hd⟩ := apply_cases b ticket call
  · refine ⟨?_, Act.deedsOf_of_deeds s.id hd⟩
    rw [← htouch]
    refine (hb.apply ticket call).eq_of_id hs₁ ?_ ?_
    · rw [h]
      exact List.mem_append_left _ (List.mem_map_of_mem hs)
    · rw [hid, (nudge_touch b call s).alike.id]
  · cases call with
    | cancel id | stop => cases hd
    | start source told =>
      simp only [applyActs, startActs, makeWayActs, hc.1, Act.deeds_append, Act.deeds_discards] at hd
      split at hd <;> cases hd
    | _ => exact hc.elim

/-! Runs that wait for their turn -/

/-- Whoever waits for its turn waits for earlier runs, of which one at least has not finished. -/
structure Queues (b : Bridge) (s : Session) (behind : List Nat) : Prop where
  earlier : ∀ id ∈ behind, id < s.id ∧ ∃ t ∈ b.sessions, t.id = id
  held : ∃ t ∈ b.sessions, t.id ∈ behind ∧ t.id < s.id ∧ t.isFinished = false

theorem not_all_finished {c : Bridge} {behind : List Nat}
    (h : (c.advance (fun _ => false) s).2.behind? = some behind) :
    (c.advance (fun _ => false) s).2 = s ∧ behind.all c.hasFinished = false := by
  obtain ⟨he, -⟩ | ⟨hm, -⟩ := advance_cases c s
  · rw [he] at h
    refine ⟨by rw [he], ?_⟩
    unfold Session.behind? at h
    cases hp : s.phase with
    | queued ids work =>
      rw [hp] at h
      cases h
      by_contra hall
      rw [Bool.not_eq_false] at hall
      have hbegun := (moves_carryOn (c.clearInput (.worker s.id)) s work).begun
      simp only [advance, hp, hall, if_true] at he
      rw [he] at hbegun
      simp [Session.hasBegun, Session.behind?, hp] at hbegun
    | _ => simp [hp] at h
  · have hbegun := hm.begun
    rw [Session.hasBegun, h] at hbegun
    cases hbegun

theorem mem_active_of_behind {id : Nat} {source : String} {behind : List Nat}
    (h : ({ id, phase := b.firstPhase source } : Session).behind? = some behind) :
    ∀ n ∈ behind, n ∈ b.active.map Session.id := by
  unfold firstPhase Session.behind? at h
  split at h
  · rename_i hphase
    split at hphase
    · rename_i hactive
      cases hphase
      cases h
      intro n hn
      rwa [hactive]
    · cases hphase
  · cases h

/-- An earlier run that had not finished when it was another's turn has not finished after the call. -/
theorem Turn.held {c : Bridge} {s' t : Session} {ticket : Nat} {call : Call}
    (h : Turn b ticket call c s s') (hb : (b.perform ticket call).1.Sound)
    (ht : t ∈ (b.perform ticket call).1.sessions) (hlt : t.id < s'.id)
    (hf : c.hasFinished t.id = false) : t.isFinished = false := by
  obtain ⟨after, hplace⟩ := h.place
  have hordered := hb.ordered
  rw [hplace] at hordered
  -- Runs go on in the order of their numbers, so `t` had had its turn.
  have htc : t ∈ c.sessions := by
    rw [hplace] at ht
    rcases List.mem_append.mp ht with htc | hta
    · exact htc
    · rcases List.mem_cons.mp hta with rfl | hta
      · omega
      · have := (List.pairwise_cons.mp (List.pairwise_append.mp hordered).2.1).1 t hta
        omega
  have hsub : c.sessions ⊆ (b.perform ticket call).1.sessions := by
    rw [hplace]
    exact List.subset_append_left _ _
  rwa [hasFinished, find?_of_mem htc fun u hu hid => hb.eq_of_id (hsub hu) ht hid,
    Option.any_some] at hf

theorem queues_perform (hb : b.Sound)
    (h : ∀ s ∈ b.sessions, ∀ behind, s.behind? = some behind → b.Queues s behind) (ticket : Nat)
    (call : Call) :
    ∀ s ∈ (b.perform ticket call).1.sessions, ∀ behind, s.behind? = some behind →
      (b.perform ticket call).1.Queues s behind := by
  intro s' hs' behind hbehind
  obtain ⟨c, s₁, ht, hfrom⟩ := mem_perform hb hs'
  have hgoes := ht.goes
  rw [hgoes] at hbehind
  obtain ⟨hstay, hall⟩ := not_all_finished hbehind
  rw [hstay] at hgoes hbehind
  subst hgoes
  have hearlier : ∀ id ∈ behind, id < s'.id ∧ ∃ t ∈ b.sessions, t.id = id := by
    rcases hfrom with ⟨s, hs, hn⟩ | ⟨-, hnew⟩
    · rw [hn.alike.behind] at hbehind
      rw [hn.alike.id]
      exact (h s hs behind hbehind).earlier
    · obtain ⟨source, told, -, rfl⟩ := mem_newcomers hnew
      intro id hid
      obtain ⟨t, ht, rfl⟩ := List.mem_map.mp (mem_active_of_behind hbehind id hid)
      exact ⟨hb.known t (mem_active.mp ht).1, t, (mem_active.mp ht).1, rfl⟩
  have hthere : ∀ id ∈ behind, id < s'.id ∧ ∃ t ∈ (b.perform ticket call).1.sessions, t.id = id := by
    intro id hid
    obtain ⟨hlt, t, ht, rfl⟩ := hearlier id hid
    refine ⟨hlt, List.mem_map.mp ?_⟩
    rw [ids_perform]
    exact List.mem_append_left _ (List.mem_map_of_mem ht)
  refine ⟨hthere, ?_⟩
  obtain ⟨id, hid, hunfinished⟩ := List.all_eq_false.mp hall
  obtain ⟨hlt, t, htm, rfl⟩ := hthere id hid
  exact ⟨t, htm, hid, hlt, ht.held (hb.accounts (steps_perform b ticket call)).sound htm hlt
    (by simpa using hunfinished)⟩

theorem queues_after (e : Engine σ) (grants : Nat → Bool) (sink : Sink) (config : Config)
    (calls : List (Nat × Call)) :
    ∀ s ∈ ((create e grants sink config).after calls).sessions, ∀ behind, s.behind? = some behind →
      ((create e grants sink config).after calls).Queues s behind := by
  induction calls using List.reverseRecOn with
  | nil => exact fun s hs => by cases hs
  | append_singleton calls c ih =>
    rw [after_append]
    exact queues_perform ((sound_create e grants sink config).accounts
      (steps_history _ calls)).sound ih
      c.1 c.2

/-- Where only runs that wait for their turn have not finished, all have: the first of them would wait
for none. -/
theorem all_finished {e : Engine σ} {grants : Nat → Bool} {sink : Sink} {config : Config}
    {calls : List (Nat × Call)}
    (h : ∀ s ∈ ((create e grants sink config).after calls).sessions, s.isFinished = false →
      s.hasBegun = false) :
    ∀ s ∈ ((create e grants sink config).after calls).sessions, s.isFinished = true := by
  suffices hall : ∀ n, ∀ s ∈ ((create e grants sink config).after calls).sessions, s.id = n →
      s.isFinished = true from fun s hs => hall s.id s hs rfl
  intro n
  induction n using Nat.strongRecOn with
  | _ n ih =>
    rintro s hs rfl
    by_contra hf
    have hu := h s hs (Bool.eq_false_iff.mpr hf)
    rw [Session.hasBegun, Option.isNone_eq_false_iff] at hu
    obtain ⟨behind, hbehind⟩ := Option.isSome_iff_exists.mp hu
    obtain ⟨t, htm, -, hlt, htf⟩ :=
      (queues_after e grants sink config calls s hs behind hbehind).held
    rw [ih t.id hlt t htm rfl] at htf
    cases htf

/-- Where all runs in flight are called off, whoever has not finished after that waits for its turn. -/
theorem waits_of_callsOff (hb : b.Sound) {ticket : Nat} {call : Call}
    (hs : s ∈ (b.perform ticket call).1.sessions) (hr : s.AtRest) (hf : s.isFinished = false)
    (hall : ∀ t ∈ b.active, b.callsOff call t.id) (hnew : b.newcomers call = []) :
    s.hasBegun = false := by
  by_contra hbegun
  rw [Bool.not_eq_false] at hbegun
  obtain ⟨c, s₁, ht, ⟨t, htm, hn⟩ | ⟨-, hm⟩⟩ := mem_perform hb hs
  · have hf₁ : s₁.isFinished = false := by
      rw [ht.goes] at hf
      cases hf₁ : s₁.isFinished with
      | false => rfl
      | true =>
        rw [(advance_of_isFinished c hf₁).1] at hf
        exact hf₁.symm.trans hf
    have hactive : t ∈ b.active := mem_active.mpr ⟨htm, hn.alike.finished.symm.trans hf₁⟩
    obtain ⟨rfl, -⟩ := applied_of_callsOff hb htm (hall t hactive) ht.applied hn.alike.id
    have hoff : s.cancelled = true := by
      rw [ht.goes, cancelled_advance]
      exact Session.cancelled_cancelled t
    rw [hr.isFinished_of_cancelled hoff hbegun] at hf
    cases hf
  · rw [hnew] at hm
    cases hm

/-- Whoever stops runs that are in flight learns how many they were, and none is left. -/
theorem active_stop (e : Engine σ) (grants : Nat → Bool) (sink : Sink) (config : Config)
    (calls : List (Nat × Call))
    (ticket : Nat) (ha : ((create e grants sink config).after calls).active ≠ []) :
    let b := (create e grants sink config).after calls
    (b.perform ticket .stop).2.reply = some (.count b.active.length) ∧
      (b.perform ticket .stop).1.active = [] := by
  intro b
  have hsound : b.Sound :=
    ((sound_create e grants sink config).accounts (steps_history _ calls)).sound
  have hruns := (transcripts e grants sink config (calls ++ [(ticket, .stop)])).runs
  have hfinished := @all_finished _ e grants sink config (calls ++ [(ticket, .stop)])
  rw [after_append] at hruns hfinished
  refine ⟨?_, ?_⟩
  · change (b.apply ticket .stop).2 = _
    simp only [apply, stop]
    cases h : b.active with
    | nil => exact absurd h ha
    | cons s running => rfl
  · refine List.eq_nil_iff_forall_not_mem.mpr fun s hs => ?_
    obtain ⟨hm, hf⟩ := mem_active.mp hs
    have hwaits : ∀ s ∈ (b.perform ticket .stop).1.sessions, s.isFinished = false →
        s.hasBegun = false := fun s hs hf =>
      waits_of_callsOff hsound hs (hruns s hs).1 hf (fun t ht => List.mem_map_of_mem ht) rfl
    rw [hfinished hwaits s hm] at hf
    cases hf

/-! What is left alone -/

theorem advance_still (hr : s.AtRest) (hb : s.hasBegun = true) (c : Bridge) :
    c.advance (fun _ => false) s = (c, s) ∧ c.advanceDeeds s = [] := by
  cases hp : s.phase with
  | finished r | reading logged next => simp only [advance, advanceDeeds, hp, and_self]
  | ready work =>
    have hn := hr.ready
    rw [Session.isReady, hp] at hn
    cases hn
  | queued behind work => simp [Session.hasBegun, Session.behind?, hp] at hb
  | paused next =>
    have hshut := hr.shut (by rw [Session.isAtGate, hp])
    obtain ⟨hg, -⟩ | ⟨-, hg, -⟩ | ⟨-, -, hg⟩ := s.gate.wait_cases
    · simp [Gate.passes, hg] at hshut
    · simp [Gate.passes, hg] at hshut
    · simp only [advance, advanceDeeds, hp, hg, and_self]

theorem settle_still (rest : List Session) (h : ∀ t ∈ rest, t.AtRest ∧ t.hasBegun = true)
    (c : Bridge) :
    rest.foldl (advanceAndKeep fun _ => false) c = { c with sessions := c.sessions ++ rest } ∧
      c.settleActs rest = [] := by
  induction rest generalizing c with
  | nil => simp [settleActs]
  | cons t rest ih =>
    obtain ⟨hr, hb⟩ := h t List.mem_cons_self
    obtain ⟨he, hd⟩ := advance_still hr hb c
    have hkeep : c.advanceAndKeep (fun _ => false) t = { c with sessions := c.sessions ++ [t] } := by
      simp only [advanceAndKeep, he]
    obtain ⟨hfold, hacts⟩ := ih (fun t ht => h t (List.mem_cons_of_mem _ ht))
      (c.advanceAndKeep (fun _ => false) t)
    rw [List.foldl_cons, hfold, settleActs, hacts, hd, hkeep]
    simp

theorem settle_one {before after : List Session}
    (hb : ∀ t ∈ before, t.AtRest ∧ t.hasBegun = true)
    (ha : ∀ t ∈ after, t.AtRest ∧ t.hasBegun = true) (s : Session) (c : Bridge) :
    (before ++ s :: after).foldl (advanceAndKeep fun _ => false) (c.upTo []) =
      { ((c.upTo before).advance (fun _ => false) s).1 with
        sessions := before ++ ((c.upTo before).advance (fun _ => false) s).2 :: after } ∧
    (c.upTo []).settleActs (before ++ s :: after) =
      ((c.upTo before).advanceDeeds s).map (.run s.id) := by
  obtain ⟨hbefore, hquiet⟩ := settle_still before hb (c.upTo [])
  have hreached : before.foldl (advanceAndKeep fun _ => false) (c.upTo []) = c.upTo before := hbefore
  obtain ⟨hafter, hquiet'⟩ := settle_still after ha ((c.upTo before).advanceAndKeep (fun _ => false) s)
  refine ⟨?_, ?_⟩
  · rw [List.foldl_append, List.foldl_cons, hreached, hafter, sessions_advanceAndKeep]
    simp [advanceAndKeep, upTo]
  · rw [settleActs_append, hquiet, hreached, settleActs, hquiet', List.append_nil, List.nil_append]

theorem channel_run {w : Worker Audience} {id : Nat} {policy : PausePolicy} {α : Type}
    (hw : Stage.Attends w id policy) (work : Behaviour α) (st : Stage Audience)
    (hc : st.cancelled = true) : (work.run w Behaviour.never st).1.channel = st.channel := by
  refine (Behaviour.run_of_serve (f := fun _ _ _ => ([] : List Unit))
    (fun st _ st' => st.cancelled = true → st'.cancelled = true ∧ st'.channel = st.channel)
    (fun st hc => ⟨hc, rfl⟩) ?_ ?_ ?_ work st hc).2
  · intro st _ st' _ st'' h h' hc
    obtain ⟨hc', he⟩ := h hc
    obtain ⟨hc'', he'⟩ := h' hc'
    exact ⟨hc'', he'.trans he⟩
  · intro st r st' reply h hc
    refine ⟨(Stage.follows_reply hw h).cancelled.trans hc, ?_⟩
    cases r with
    | read logged =>
      obtain ⟨-, -, journal, rfl⟩ | ⟨line, channel, served, hn, -⟩ := Stage.serve_read_cases h
      · rfl
      · rw [hc] at hn
        cases hn
    | _ => exact Behaviour.channel_reply hw (by simp) h
  · intro st r st' h hc
    obtain ⟨logged, -, hn, -⟩ | ⟨-, -, -, rfl⟩ := Behaviour.serve_eq_none h
    · rw [hc] at hn
      cases hn
    · exact ⟨hc, rfl⟩

theorem channel_advance (hc : s.cancelled = true) (hb : s.hasBegun = true) (c : Bridge) :
    (c.advance (fun _ => false) s).1.channel = c.channel := by
  have hcarry : ∀ (s : Session) (work : Behaviour Ending), s.cancelled = true →
      (c.carryOn (fun _ => false) s work).1.channel = c.channel := by
    intro s work hc
    rw [carryOn_eq]
    have hrun := channel_run (attends_worker c s.id) work (c.stageOf s) hc
    cases hp : work.run (c.worker s.id) Behaviour.never (c.stageOf s) with
    | mk st progress =>
      rw [hp] at hrun
      exact (channel_phaseAfter s.id st progress).trans hrun
  cases hp : s.phase with
  | finished r | reading logged next => simp only [advance, hp]
  | ready work =>
    simp only [advance, hp]
    exact hcarry s work hc
  | queued behind work => simp [Session.hasBegun, Session.behind?, hp] at hb
  | paused next =>
    cases hg : s.gate.wait with
    | mk gate outcome =>
      cases outcome with
      | none => simp only [advance, hp, hg]
      | some outcome =>
        simp only [advance, hp, hg]
        exact hcarry _ (next outcome) hc

theorem apply_cancel (hb : b.Sound) (hs : s ∈ b.sessions) (ticket : Nat) :
    ∃ journal, (b.apply ticket (.cancel s.id)).1 =
      { b with journal, channel := b.channel.abandon s.id }.mapSession s.id cancelled := by
  have hfind : (b.note .host .info .control
      ("Cancelling session " ++ Decimal.natText s.id)).find? s.id = some s := hb.find?_eq hs
  simp only [apply, cancelSession, hfind]
  split <;> split <;> exact ⟨_, rfl⟩

/-- A change to the run of one number leaves those before and after it as they are. -/
theorem Sound.map_at (hb : b.Sound) {before after : List Session}
    (hsplit : b.sessions = before ++ s :: after) (f : Session → Session) :
    b.sessions.map (fun t => if t.id = s.id then f t else t) = before ++ f s :: after := by
  have ho := hb.ordered
  rw [hsplit, List.pairwise_append, List.pairwise_cons] at ho
  obtain ⟨-, ⟨hafter, -⟩, hbefore⟩ := ho
  rw [hsplit, List.map_append, List.map_cons, if_pos rfl]
  congr 2
  · refine (List.map_congr_left fun t ht => if_neg ?_).trans (List.map_id _)
    exact Nat.ne_of_lt (hbefore t ht s List.mem_cons_self)
  · refine (List.map_congr_left fun t ht => if_neg ?_).trans (List.map_id _)
    exact Nat.ne_of_gt (hafter t ht)

/-- Where no run waits for its turn, calling one off concerns no other and not the input. -/
theorem perform_cancel (hb : b.Sound) (hstill : ∀ t ∈ b.sessions, t.AtRest ∧ t.hasBegun = true)
    (hs : s ∈ b.sessions) (ticket : Nat) :
    let b' := (b.perform ticket (.cancel s.id)).1
    let acts := b.performActs ticket (.cancel s.id)
    acts = (Act.deedsOf s.id acts).map (.run s.id) ∧
    b'.channel = b.channel.abandon s.id ∧
    ∃ s', s'.id = s.id ∧ b'.sessions = b.sessions.map fun t => if t.id = s.id then s' else t := by
  intro b' acts
  obtain ⟨before, after, hsplit⟩ := List.append_of_mem hs
  obtain ⟨journal, happly⟩ := apply_cancel hb hs ticket
  have hsessions : (b.apply ticket (.cancel s.id)).1.sessions = before ++ cancelled s :: after := by
    rw [happly]
    exact hb.map_at hsplit cancelled
  have hbegun : (cancelled s).hasBegun = true := by
    rw [Session.hasBegun, (Session.alike_cancelled s).behind]
    exact (hstill s hs).2
  obtain ⟨hsettled, hacts⟩ := settle_one
    (fun t ht => hstill t (hsplit ▸ List.mem_append_left _ ht))
    (fun t ht => hstill t (hsplit ▸ List.mem_append_right _ (List.mem_cons_of_mem s ht)))
    (cancelled s) (b.apply ticket (.cancel s.id)).1
  rw [← hsessions] at hsettled hacts
  rw [(Session.alike_cancelled s).id] at hacts
  refine ⟨?_, ?_,
    (((b.apply ticket (.cancel s.id)).1.upTo before).advance (fun _ => false) (cancelled s)).2,
    (id_advance _ _).trans (Session.alike_cancelled s).id, ?_⟩
  · have hrun : acts = _ := hacts
    rw [hrun, Act.deedsOf_run_self]
  · refine (congrArg Bridge.channel hsettled).trans ?_
    simp only [channel_advance (Session.cancelled_cancelled s) hbegun, upTo, happly, mapSession]
  · refine (congrArg Bridge.sessions hsettled).trans ?_
    exact (hb.map_at hsplit fun _ => _).symm

theorem begun_runs (e : Engine σ) (grants : Nat → Bool) (sink : Sink) (config : Config)
    (ho : config.run.overlap ≠ .queue) (calls : List (Nat × Call)) :
    ∀ s ∈ ((create e grants sink config).after calls).sessions, s.AtRest ∧ s.hasBegun = true := by
  have hlasting : Lasting config (e.drive config.run.debug) (fun _ _ => True)
      fun _ s => s.hasBegun = true := by
    refine ⟨fun b source _ hc _ _ => ?_, fun _ hb hn => ?_,
      fun {b _ s} _ _ hb => hasBegun_advance b hb⟩
    · rw [← hc] at ho
      unfold firstPhase
      split
      · exact absurd ‹_› ho
      · rfl
    · rw [Session.hasBegun, hn.alike.behind]
      exact hb
  exact (hlasting.settled grants sink calls fun _ _ => trivial).runs

theorem lasting_idle (i : Interpreter) (config : Config) (prog : Nat → String → Prop) (n : Nat) :
    Lasting config (i.engine.drive config.run.debug) (fun m source => prog m source ∧ m ≠ n)
      fun ds s => ∃ source xs q, prog s.id source ∧
        s.Orderly config.run.pause (i.engine.drive config.run.debug source) xs q ds ∧
        (s.id = n → s.Idle config.run.pause (i.engine.drive config.run.debug source) ds) where
  fresh := by
    rintro b source hb hc hd ⟨hg, hn⟩
    obtain ⟨source', xs, q, hg', h⟩ := (lasting_orderly i config prog).fresh b source hb hc hd hg
    exact ⟨source', xs, q, hg', h, fun he => absurd he hn⟩
  nudge := by
    rintro ds es s s' hr ⟨source, xs, q, hg, h, hidle⟩ hn
    obtain ⟨ys, q', h', -⟩ := h.nudge hr hn
    exact ⟨source, xs ++ ys, q', hn.alike.id ▸ hg, h',
      fun he => (hidle (hn.alike.id.symm.trans he)).nudge hn⟩
  advance := by
    rintro b ds s rfl hp ⟨source, xs, q, hg, h, hidle⟩
    obtain ⟨ys, q', h', -⟩ := h.advance hp rfl
    exact ⟨source, xs ++ ys, q', (id_advance b s).symm ▸ hg, h',
      fun he => h.idle_advance hp (hidle ((id_advance b s).symm.trans he)) rfl⟩

/-- A run is idle from the call on in which it is called off while it waits for its turn. -/
theorem idle_perform (i : Interpreter) (config : Config) (prog : Nat → String → Prop)
    {past : List Act}
    (h : Settled config (i.engine.drive config.run.debug) (fun ds s => ∃ source xs q,
      prog s.id source ∧
        s.Orderly config.run.pause (i.engine.drive config.run.debug source) xs q ds) past b)
    (hs : s ∈ b.sessions) (hu : s.hasBegun = false) {call : Call} (hc : b.callsOff call s.id)
    (hg : ∀ source told, call = .start source told → prog b.nextId source) (ticket : Nat) :
    Settled config (i.engine.drive config.run.debug) (fun ds t => ∃ source xs q, prog t.id source ∧
      t.Orderly config.run.pause (i.engine.drive config.run.debug source) xs q ds ∧
      (t.id = s.id → t.Idle config.run.pause (i.engine.drive config.run.debug source) ds))
      (past ++ b.performActs ticket call) (b.perform ticket call).1 := by
  have h' := h.perform (lasting_orderly i config prog) ticket call hg
  refine ⟨h'.sound, h'.config, h'.drive, h'.unborn, fun t ht => ?_⟩
  by_cases hid : t.id = s.id
  · obtain ⟨c, s₁, hturn, hpoised, ⟨source, xs, q, hprog, horderly⟩, -⟩ :=
      h.turn (lasting_orderly i config prog) hg ht
    obtain ⟨rfl, -⟩ := applied_of_callsOff h.sound hs hc hturn.applied (hturn.id.trans hid)
    have hconfig : c.config.run.pause = config.run.pause := by rw [hturn.config, h.config]
    have hidle := horderly.idle (by rw [Session.hasBegun, (Session.alike_cancelled s).behind]; exact hu)
      (Session.cancelled_cancelled s)
    obtain ⟨ys, q', horderly', -⟩ := horderly.advance hpoised hconfig
    have hidle' := horderly.idle_advance hpoised hidle hconfig
    rw [Act.deedsOf_append, hturn.id, List.append_assoc, ← hturn.deeds, ← Act.deedsOf_append,
      ← hturn.goes] at horderly' hidle'
    exact ⟨(h'.runs t ht).1, source, xs ++ ys, q', hturn.id ▸ hprog, horderly', fun _ => hidle'⟩
  · obtain ⟨hrest, source, xs, q, hprog, horderly⟩ := h'.runs t ht
    exact ⟨hrest, source, xs, q, hprog, horderly, fun he => absurd he hid⟩

theorem ids_after (b : Bridge) (calls : List (Nat × Call)) :
    b.sessions.map Session.id ⊆ (b.after calls).sessions.map Session.id := by
  induction calls generalizing b with
  | nil => exact fun _ hid => hid
  | cons c calls ih =>
    intro id hid
    refine ih _ ?_
    rw [ids_perform]
    exact List.mem_append_left _ hid

/-- A run that is called off while it waits for its turn stays idle whatever is called later. -/
theorem idle_of_callsOff (i : Interpreter) (grants : Nat → Bool) (sink : Sink) (config : Config)
    (calls : List (Nat × Call)) (ticket : Nat) (call : Call) (later : List (Nat × Call))
    (hs : s ∈ ((create i.engine grants sink config).after calls).sessions) (hu : s.hasBegun = false)
    (hc : ((create i.engine grants sink config).after calls).callsOff call s.id) :
    let all := calls ++ (ticket, call) :: later
    ∃ s' ∈ ((create i.engine grants sink config).after all).sessions, s'.id = s.id ∧ ∃ source,
      (s.id, source) ∈ (create i.engine grants sink config).programs all ∧
      s'.Idle config.run.pause (i.engine.drive config.run.debug source)
        (Act.deedsOf s.id ((create i.engine grants sink config).history all)) := by
  intro all
  let b := (create i.engine grants sink config).after calls
  have hprograms : (create i.engine grants sink config).programs all =
      (create i.engine grants sink config).programs calls ++ b.programs ((ticket, call) :: later) :=
    programs_append _ _ _
  let prog : Nat → String → Prop := fun m source =>
    (m, source) ∈ (create i.engine grants sink config).programs all
  have hset := (lasting_orderly i config prog).settled grants sink calls fun p hp => by
    simp only [prog, hprograms]
    exact List.mem_append_left _ hp
  have hset' := idle_perform i config prog hset hs hu hc (fun source told hcall => by
    simp [prog, hprograms, programs, hcall, b]) ticket
  have hknown : s.id < (b.perform ticket call).1.nextId :=
    Nat.lt_of_lt_of_le (hset.sound.known s hs) (nextId_steps (steps_perform b ticket call))
  have hlast := hset'.after (lasting_idle i config prog s.id) later fun p hp => by
    refine ⟨?_, Nat.ne_of_gt (Nat.lt_of_lt_of_le hknown (programs_ge _ later p hp))⟩
    simp only [prog, hprograms]
    exact List.mem_append_right _ (List.mem_append_right _ hp)
  have hafter : (create i.engine grants sink config).after all = (b.perform ticket call).1.after later :=
    after_append _ _ _
  have hhistory : (create i.engine grants sink config).history all =
      (create i.engine grants sink config).history calls ++ b.performActs ticket call ++
        (b.perform ticket call).1.history later := by
    rw [List.append_assoc]
    exact history_append _ _ _
  rw [hafter, hhistory]
  have hid : s.id ∈ ((b.perform ticket call).1.after later).sessions.map Session.id := by
    refine ids_after _ later ?_
    rw [ids_perform]
    exact List.mem_append_left _ (List.mem_map_of_mem hs)
  obtain ⟨s', hs', he⟩ := List.mem_map.mp hid
  obtain ⟨-, source, xs, q, hprog, -, hidle⟩ := hlast.runs s' hs'
  rw [he] at hprog hidle
  exact ⟨s', hs', he, source, hprog, hidle rfl⟩

theorem isFinished_of_idle {e : Engine σ} {grants : Nat → Bool} {sink : Sink} {config : Config}
    {calls : List (Nat × Call)} {work : Behaviour Ending} {ds : List Deed}
    (hs : s ∈ ((create e grants sink config).after calls).sessions)
    (h : s.Idle config.run.pause work ds)
    (hbefore : ∀ t ∈ ((create e grants sink config).after calls).sessions, t.id < s.id →
      t.isFinished = true) : s.isFinished = true := by
  obtain ⟨-, ⟨hwaits, -⟩ | ⟨hr, -⟩⟩ := h
  · rw [Session.hasBegun, Option.isNone_eq_false_iff] at hwaits
    obtain ⟨behind, hbehind⟩ := Option.isSome_iff_exists.mp hwaits
    obtain ⟨t, htm, -, hlt, htf⟩ :=
      (queues_after e grants sink config calls s hs behind hbehind).held
    rw [hbefore t htm hlt] at htf
    cases htf
  · rw [Session.isFinished, hr]
    rfl

theorem ends_of_callsOff (i : Interpreter) (grants : Nat → Bool) (sink : Sink) (config : Config)
    (calls : List (Nat × Call)) (ticket : Nat) (call : Call)
    (hs : s ∈ ((create i.engine grants sink config).after calls).active)
    (hbegun : s.hasBegun = true)
    (hc : ((create i.engine grants sink config).after calls).callsOff call s.id) :
    let b := (create i.engine grants sink config).after calls
    let acts := b.performActs ticket call
    (∃ s' ∈ (b.perform ticket call).1.sessions, s'.id = s.id ∧
      ∃ r, s'.report? = some r ∧ r.outcome = .cancelled) ∧
    Act.eventsOf s.id acts = [.stackPopped 0, .executionStopped, .finished .cancelled] ∧
    Deed.prints (Act.deedsOf s.id acts) = [] ∧ Deed.removals (Act.deedsOf s.id acts) = [] := by
  intro b acts
  obtain ⟨hm, hf⟩ := mem_active.mp hs
  have hset := orderly_runs i grants sink config calls
  obtain ⟨hrest, source, xs, q, -, h⟩ := hset.runs s hm
  obtain ⟨c, s₁, s', hs', hid, ht, hn⟩ := exists_perform hset.sound ticket call hm
  obtain ⟨rfl, hnone⟩ := applied_of_callsOff hset.sound hm hc ht.applied hn.alike.id
  have hconfig : c.config.run.pause = config.run.pause := by rw [ht.config, hset.config]
  obtain ⟨hended, hevents, hprints, hremovals⟩ := h.called_off hrest hbegun hf hconfig
  have hdeeds : Act.deedsOf s.id acts = c.advanceDeeds (cancelled s) := by
    rw [← hid, ht.deeds, hid, hnone, List.nil_append]
  rw [← ht.goes] at hended
  refine ⟨⟨s', hs', hid, hended⟩, ?_, by rw [hdeeds, hprints], by rw [hdeeds, hremovals]⟩
  rw [eventsOf_performActs hset.sound hm, hdeeds, hevents]
  rintro rfl
  exact hc.elim

/-- Cancellation is final and local. A run that is called off amid its program ends in that call: it
tells that it leaves and nothing more is heard of it. One that is called off while it waits for its
turn is idle for good, and over once all runs before it are. Where runs do not wait for each other
nothing else is touched, and whoever stops all runs in flight leaves none. -/
theorem cancellation_is_final_and_local (i : Interpreter) (grants : Nat → Bool) (sink : Sink)
    (config : Config) (calls : List (Nat × Call)) (ticket : Nat) (call : Call) :
    let b := (create i.engine grants sink config).after calls
    let b' := (b.perform ticket call).1
    let acts := b.performActs ticket call
    (∀ s ∈ b.active, s.hasBegun = true → b.callsOff call s.id →
      (∃ s' ∈ b'.sessions, s'.id = s.id ∧ ∃ r, s'.report? = some r ∧ r.outcome = .cancelled) ∧
      Act.eventsOf s.id acts = [.stackPopped 0, .executionStopped, .finished .cancelled] ∧
      Deed.prints (Act.deedsOf s.id acts) = [] ∧ Deed.removals (Act.deedsOf s.id acts) = [] ∧
      ∀ later, Act.deedsOf s.id (b'.history later) = [] ∧
        Act.eventsOf s.id (b'.history later) = []) ∧
    (∀ s ∈ b.active, s.hasBegun = false → b.callsOff call s.id → ∀ later,
      let all := calls ++ (ticket, call) :: later
      let last := (create i.engine grants sink config).after all
      let history := (create i.engine grants sink config).history all
      ∃ s' ∈ last.sessions, s'.id = s.id ∧
        ((∀ t ∈ last.sessions, t.id < s.id → t.isFinished = true) → s'.isFinished = true) ∧
        SessionEvent.ofRun config.run.pause (Act.eventsOf s.id history) =
          .spawned :: (if s'.isFinished then [.finished .cancelled] else []) ∧
        ∃ source, (s.id, source) ∈ (create i.engine grants sink config).programs all ∧
          s'.Idle config.run.pause (i.engine.drive config.run.debug source)
            (Act.deedsOf s.id history)) ∧
    (config.run.overlap = .interleave → ∀ s ∈ b.active, call = .cancel s.id →
      acts = (Act.deedsOf s.id acts).map (.run s.id) ∧ b'.sink = b.sink ∧
      b'.channel.lines = b.channel.lines ∧ b'.channel.writers = b.channel.writers ∧
      b'.channel.readers = b.channel.readers.filter (fun r => r.ticket ≠ s.id) ∧
      ∃ s', s'.id = s.id ∧ b'.sessions = b.sessions.map fun t => if t.id = s.id then s' else t) ∧
    (call = .stop → b.active ≠ [] →
      (b.perform ticket call).2.reply = some (.count b.active.length) ∧ b'.active = []) := by
  intro b b' acts
  have hset := orderly_runs i grants sink config calls
  have haccounts := hset.sound.accounts (steps_perform b ticket call)
  refine ⟨fun s hs hbegun hc => ?_, fun s hs hu hc later => ?_, fun ho s hs hcall => ?_,
    fun hcall hactive => ?_⟩
  · obtain ⟨⟨s', hs', hid, r, hr, houtcome⟩, hevents, hprints, hremovals⟩ :=
      ends_of_callsOff i grants sink config calls ticket call hs hbegun hc
    refine ⟨⟨s', hs', hid, r, hr, houtcome⟩, hevents, hprints, hremovals, fun later => ?_⟩
    rw [← hid]
    exact (report_after haccounts.sound hs' hr later).2
  · intro all last history
    obtain ⟨s', hs', hid, source, hprog, hidle⟩ :=
      idle_of_callsOff i grants sink config calls ticket call later (mem_active.mp hs).1 hu hc
    refine ⟨s', hs', hid, fun hbefore => ?_, ?_, source, hprog, hidle⟩
    · exact isFinished_of_idle hs' hidle fun t ht hlt => hbefore t ht (hid ▸ hlt)
    · rw [← hidle.publications, ← hid]
      exact (eventsOf_run i grants sink config all).2 s' hs'
  · subst hcall
    have hm := (mem_active.mp hs).1
    have hstill := begun_runs i.engine grants sink config (by rw [ho]; simp) calls
    obtain ⟨hacts, hchannel, hsessions⟩ := perform_cancel hset.sound hstill hm ticket
    obtain ⟨-, -, hprints, -⟩ :=
      ends_of_callsOff i grants sink config calls ticket (.cancel s.id) hs (hstill s hm).2 rfl
    refine ⟨hacts, ?_, ?_, ?_, ?_, hsessions⟩
    · have hsink := haccounts.sink
      rw [hacts, Act.printed_run, hprints] at hsink
      exact hsink
    · rw [hchannel]
      rfl
    · rw [hchannel]
      exact List.filter_eq_self.mpr fun w hw => by simp [hset.sound.writers w hw]
    · rw [hchannel]
      refine List.filter_congr fun r hr => ?_
      rw [(hset.sound.readers r hr).1]
      simp
  · subst hcall
    exact active_stop i.engine grants sink config calls ticket hactive

/-- Two scripts that wait for input, of which the first is called off. -/
theorem cancellation_is_final_and_local_of_two :
    let calls : List (Nat × Call) := [(0, .start "read a" true), (1, .start "read b" true)]
    let b := (create Interpreter.lines.engine (fun _ => true) (.capture "") {}).after calls
    let b' := (b.perform 2 (.cancel 1)).1
    ∃ s ∈ b.active, s.hasBegun = true ∧ b.callsOff (.cancel 1) s.id ∧
      Act.eventsOf s.id (b.performActs 2 (.cancel 1)) =
        [.stackPopped 0, .executionStopped, .finished .cancelled] ∧
      b'.active.map Session.id = [2] ∧
      ∃ s', b'.sessions = b.sessions.map fun t => if t.id = 1 then s' else t := by
  intro calls b b'
  have hreads : b.active.any (fun s => s.id = 1 ∧ s.hasBegun = true) = true := by decide +kernel
  obtain ⟨s, hs, h⟩ := List.any_eq_true.mp hreads
  obtain ⟨hid, hbegun⟩ := of_decide_eq_true h
  obtain ⟨hends, -, hlocal, -⟩ :=
    cancellation_is_final_and_local .lines (fun _ => true) (.capture "") {} calls 2 (.cancel 1)
  obtain ⟨-, -, -, -, -, s', -, hsessions⟩ := hlocal rfl s hs (by rw [hid])
  rw [hid] at hsessions
  exact ⟨s, hs, hbegun, hid, (hends s hs hbegun hid).2.1, by decide +kernel, s', hsessions⟩

end Bridge

end Conduit

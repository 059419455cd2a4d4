import Conduit.Engine.Scripted
import Conduit.Proofs.Bridge.Account
import Conduit.Proofs.Bridge.Calls

/-!
Where runs queue they go one after the other: a run begins only when every run before it has finished,
so whatever the runs do is grouped by run, in the order of their start.
-/
namespace Conduit

namespace Act

def runPrints (acts : List Act) : List OutputEvent := Deed.prints ((deeds acts).map Prod.snd)

def runEvents (acts : List Act) : List Envelope :=
  (deeds acts).filterMap fun p => p.2.published?.map (Envelope.mk p.1)

def hostEvents (acts : List Act) : List Envelope :=
  acts.filterMap fun
    | host (.publish e) => some e
    | _ => none

end Act

namespace Bridge
variable {b b' : Bridge} {acts past : List Act}

/-- Of two runs the later one waits for the earlier, unless that has finished. -/
def Queued (s t : Session) : Prop :=
  s.isFinished = true ∨ ∃ behind, t.behind? = some behind ∧ s.id ∈ behind

theorem Queued.of_alike {s s' t t' : Session} (hs : Session.Alike s s') (ht : Session.Alike t t')
    (h : Queued s t) : Queued s' t' := by
  simpa only [Queued, hs.finished, hs.id, ht.behind] using h

structure Serial (past : List Act) (b : Bridge) : Prop where
  sound : b.Sound
  queue : b.config.run.overlap = .queue
  queued : b.sessions.Pairwise Queued
  grouped : ((Act.deeds past).map Prod.fst).Pairwise (· ≤ ·)
  begun : ∀ i ∈ (Act.deeds past).map Prod.fst, ∃ s ∈ b.sessions, s.id = i ∧ s.hasBegun = true
  ended : ∀ s ∈ b.sessions, s.isFinished = true →
    ∃ outcome, (s.id, Deed.publish (.finished outcome)) ∈ Act.deeds past

theorem pairwise_total {α : Type} {R : α → α → Prop} {l : List α} (h : l.Pairwise R) {x y : α}
    (hx : x ∈ l) (hy : y ∈ l) : x = y ∨ R x y ∨ R y x := by
  induction h with
  | nil => cases hx
  | cons hr _ ih =>
    rcases List.mem_cons.mp hx with rfl | hx' <;> rcases List.mem_cons.mp hy with rfl | hy'
    · exact .inl rfl
    · exact .inr (.inl (hr y hy'))
    · exact .inr (.inr (hr x hx'))
    · exact ih hx' hy'

theorem Serial.finished_before (h : Serial past b) {s t : Session} (hs : s ∈ b.sessions)
    (ht : t ∈ b.sessions) (hb : s.hasBegun = true) (hlt : t.id < s.id) : t.isFinished = true := by
  obtain rfl | ⟨-, hf | ⟨behind, hq, -⟩⟩ | ⟨hlt', -⟩ :=
    pairwise_total (h.sound.ordered.and h.queued) ht hs
  · omega
  · exact hf
  · simp [Session.hasBegun, hq] at hb
  · omega

theorem Serial.latest (h : Serial past b) {i : Nat} (hi : i ∈ (Act.deeds past).map Prod.fst)
    {t : Session} (ht : t ∈ b.sessions) (hf : t.isFinished = false) : i ≤ t.id := by
  obtain ⟨s, hs, rfl, hb⟩ := h.begun i hi
  by_contra hlt
  rw [h.finished_before hs ht hb (by omega)] at hf
  cases hf

/-- Runs that were neither begun nor ended, with the deeds of runs that have begun. -/
theorem Serial.of_alike {g : Session → Session} (h : Serial past b) (hs : b'.Sound)
    (hc : b'.config = b.config) (hm : b'.sessions = b.sessions.map g)
    (hg : ∀ s, Session.Alike s (g s)) (hp : ((Act.deeds acts).map Prod.fst).Pairwise (· ≤ ·))
    (hd : ∀ i ∈ (Act.deeds acts).map Prod.fst,
      ∃ s ∈ b.sessions, s.id = i ∧ s.hasBegun = true ∧ s.isFinished = false) :
    Serial (past ++ acts) b' where
  sound := hs
  queue := by rw [hc, h.queue]
  queued := by
    rw [hm]
    exact List.pairwise_map.mpr (h.queued.imp fun hq => hq.of_alike (hg _) (hg _))
  grouped := by
    rw [Act.deeds_append, List.map_append, List.pairwise_append]
    refine ⟨h.grouped, hp, fun i hi j hj => ?_⟩
    obtain ⟨t, ht, rfl, -, hf⟩ := hd j hj
    exact h.latest hi ht hf
  begun := by
    intro i hi
    rw [Act.deeds_append, List.map_append, List.mem_append] at hi
    have hold : ∃ s ∈ b.sessions, s.id = i ∧ s.hasBegun = true := by
      rcases hi with hi | hi
      · exact h.begun i hi
      · obtain ⟨s, hs, hid, hb, -⟩ := hd i hi
        exact ⟨s, hs, hid, hb⟩
    obtain ⟨s, hs, hid, hb⟩ := hold
    refine ⟨g s, hm ▸ List.mem_map_of_mem hs, (hg s).id.trans hid, ?_⟩
    rw [Session.hasBegun, (hg s).behind]
    exact hb
  ended := by
    intro s' hs' hf
    rw [hm] at hs'
    obtain ⟨s, hs, rfl⟩ := List.mem_map.mp hs'
    obtain ⟨outcome, ho⟩ := h.ended s hs ((hg s).finished ▸ hf)
    refine ⟨outcome, ?_⟩
    rw [Act.deeds_append, (hg s).id]
    exact List.mem_append_left _ ho

theorem Serial.moves {before after : List Session} {s s' : Session} {ds : List Deed}
    (h : Serial past b) (hs : b.sessions = before ++ s :: after) (hm : Moves b s ds b' s')
    (hf : s.isFinished = false) (hr : s.isReading = false)
    (hb : ∀ t ∈ before, t.isFinished = true) :
    Serial (past ++ ds.map (.run s.id)) { b' with sessions := before ++ s' :: after } := by
  have hmem : s ∈ b.sessions := by simp [hs]
  have hd : (Act.deeds (past ++ ds.map (.run s.id))).map Prod.fst =
      (Act.deeds past).map Prod.fst ++ List.replicate ds.length s.id := by
    simp [Function.comp_def, List.map_const']
  refine ⟨h.sound.moves hs hm hr, ?_, ?_, ?_, ?_, ?_⟩
  · rw [hm.frame]
    exact h.queue
  · have hq := h.queued
    rw [hs, List.pairwise_append, List.pairwise_cons] at hq
    obtain ⟨hq, ⟨hsa, hqa⟩, hba⟩ := hq
    refine List.pairwise_append.mpr ⟨hq, List.pairwise_cons.mpr ⟨fun t ht => ?_, hqa⟩, ?_⟩
    · obtain he | ⟨behind, hbe, hin⟩ := hsa t ht
      · rw [hf] at he
        cases he
      · exact .inr ⟨behind, hbe, hm.id ▸ hin⟩
    · exact fun t ht u _ => .inl (hb t ht)
  · rw [hd, List.pairwise_append]
    refine ⟨h.grouped, List.pairwise_replicate.mpr (.inr (Nat.le_refl _)), fun i hi j hj => ?_⟩
    rw [List.eq_of_mem_replicate hj]
    exact h.latest hi hmem hf
  · intro i hi
    rw [hd, List.mem_append] at hi
    have hold : i = s.id ∨ ∃ t ∈ b.sessions, t.id = i ∧ t.hasBegun = true := by
      rcases hi with hi | hi
      · exact .inr (h.begun i hi)
      · exact .inl (List.eq_of_mem_replicate hi)
    rcases hold with rfl | ⟨t, ht, rfl, htb⟩
    · exact ⟨s', by simp, hm.id, hm.begun⟩
    · rw [hs, List.mem_append, List.mem_cons] at ht
      rcases ht with ht | rfl | ht
      · exact ⟨t, by simp [ht], rfl, htb⟩
      · exact ⟨s', by simp, hm.id, hm.begun⟩
      · exact ⟨t, by simp [ht], rfl, htb⟩
  · intro t ht htf
    rw [Act.deeds_append, Act.deeds_run]
    have hold : ∀ u ∈ b.sessions, u.isFinished = true → ∃ outcome,
        (u.id, Deed.publish (.finished outcome)) ∈ Act.deeds past ++ ds.map fun d => (s.id, d) := by
      intro u hu huf
      obtain ⟨outcome, ho⟩ := h.ended u hu huf
      exact ⟨outcome, List.mem_append_left _ ho⟩
    rcases List.mem_append.mp ht with ht | ht
    · exact hold t (by simp [hs, ht]) htf
    · rcases List.mem_cons.mp ht with rfl | ht
      · obtain ⟨outcome, ho⟩ := hm.ended htf
        exact ⟨outcome, List.mem_append_right _ (hm.id ▸ List.mem_map_of_mem ho)⟩
      · exact hold t (by simp [hs, ht]) htf

theorem Serial.all_before {before after : List Session} {s : Session} (h : Serial past b)
    (hs : b.sessions = before ++ s :: after)
    (hq : ∀ behind, s.behind? = some behind → behind.all (b.upTo before).hasFinished = true) :
    ∀ t ∈ before, t.isFinished = true := by
  intro t ht
  have hqs := h.queued
  rw [hs, List.pairwise_append] at hqs
  obtain hf | ⟨behind, hbe, hin⟩ := hqs.2.2 t ht s List.mem_cons_self
  · exact hf
  · have hall := List.all_eq_true.mp (hq behind hbe) t.id hin
    simp only [hasFinished, find?, upTo, Option.any_eq_true] at hall
    obtain ⟨u, hu, huf⟩ := hall
    have hum := List.mem_of_find?_eq_some hu
    have hid : u.id = t.id := by simpa using List.find?_some hu
    rw [← h.sound.eq_of_id (by simp [hs, hum]) (by simp [hs, ht]) hid]
    exact huf

theorem Serial.spawn (h : Serial past b) (source : String) :
    Serial past { b with
      nextId := b.nextId + 1
      sessions := b.sessions ++ [{ id := b.nextId, phase := b.firstPhase source }] } := by
  refine ⟨h.sound.step (.spawn source), h.queue, ?_, h.grouped, ?_, ?_⟩
  · refine List.pairwise_append.mpr ⟨h.queued, List.pairwise_singleton _ _, fun s hs t ht => ?_⟩
    rw [List.mem_singleton.mp ht]
    cases hf : s.isFinished with
    | true => exact .inl hf
    | false =>
      have ha : s.id ∈ b.active.map Session.id :=
        List.mem_map_of_mem (List.mem_filter.mpr ⟨hs, by simp [hf]⟩)
      have hn : b.active ≠ [] := fun hn => by simp [hn] at ha
      refine .inr ⟨b.active.map Session.id, ?_, ha⟩
      simp only [Session.behind?, firstPhase_of_queue h.queue, hn, if_false]
  · intro i hi
    obtain ⟨s, hs, hid⟩ := h.begun i hi
    exact ⟨s, List.mem_append_left _ hs, hid⟩
  · intro s hs hf
    rcases List.mem_append.mp hs with hs | hs
    · exact h.ended s hs hf
    · rw [List.mem_singleton.mp hs] at hf
      unfold firstPhase at hf
      split at hf <;> cases hf

theorem Serial.step (h : Serial past b) (hs : Step b acts b') : Serial (past ++ acts) b' := by
  have hsound := h.sound.step hs
  have quiet : b'.config = b.config → b'.sessions = b.sessions → Act.deeds acts = [] →
      Serial (past ++ acts) b' := by
    intro hc hm hd
    refine h.of_alike hsound hc (hm.trans (List.map_id _).symm) Session.Alike.refl ?_ ?_
    · simp [hd]
    · simp [hd]
  cases hs with
  | advance before s after hs =>
    obtain ⟨he, hd⟩ | ⟨b₁, s', he, hm, hf, hr, hq⟩ := advanceAmong_cases hs
    · exact quiet (by rw [he]) (by rw [he]) (by simp [hd, Act.deeds])
    · rw [he]
      exact h.moves hs hm hf hr (h.all_before hs hq)
  | handOver line r rs hf hr =>
    refine h.of_alike hsound rfl rfl (Session.alike_ite (Session.alike_receive line) r.ticket) ?_ ?_
    · exact List.pairwise_singleton _ _
    · intro i hi
      obtain ⟨-, s, hs, hid, hread⟩ := h.sound.readers r (by simp [hr])
      exact ⟨s, hs, hid.trans (List.mem_singleton.mp hi).symm, Session.of_isReading hread⟩
  | cancel id =>
    exact h.of_alike hsound rfl rfl (Session.alike_ite Session.alike_cancelled id) .nil (by simp [Act.deeds])
  | resume id =>
    exact h.of_alike hsound rfl rfl (Session.alike_ite Session.alike_resume id) .nil (by simp [Act.deeds])
  | spawn source =>
    rw [List.append_nil]
    exact h.spawn source
  | clear => exact quiet rfl rfl (Act.deeds_discards _)
  | _ => exact quiet rfl rfl rfl

theorem serial_create (e : Engine σ) (grants : Nat → Bool) (sink : Sink) (config : Config)
    (hq : config.run.overlap = .queue) : Serial [] (create e grants sink config) where
  sound := sound_create e grants sink config
  queue := hq
  queued := .nil
  grouped := .nil
  begun := by simp [Act.deeds]
  ended := by simp [create, note]

theorem eq_filter_append_of_sorted {α : Type} {i : Nat} {l : List (Nat × α)}
    (hl : (l.map Prod.fst).Pairwise (· ≤ ·)) (hm : ∀ p ∈ l, i ≤ p.1) :
    l = (l.filter fun p => p.1 = i) ++ l.filter fun p => p.1 ≠ i := by
  induction l with
  | nil => rfl
  | cons p l ih =>
    obtain ⟨hle, hl⟩ := List.pairwise_cons.mp hl
    by_cases hp : p.1 = i
    · have h := ih hl fun q hq => hm q (List.mem_cons_of_mem p hq)
      rw [List.filter_cons_of_pos (by simpa using hp), List.filter_cons_of_neg (by simpa using hp),
        List.cons_append, ← h]
    · have hne : ∀ q ∈ p :: l, q.1 ≠ i := by
        have hmp := hm p List.mem_cons_self
        rintro q hq rfl
        rcases List.mem_cons.mp hq with rfl | hq
        · exact hp rfl
        · have := hle q.1 (List.mem_map_of_mem hq)
          omega
      rw [List.filter_eq_nil_iff.mpr fun q hq => by simpa using hne q hq,
        List.filter_eq_self.mpr fun q hq => by simpa using hne q hq, List.nil_append]

theorem eq_flatMap_of_sorted {α : Type} {ids : List Nat} {l : List (Nat × α)}
    (hi : ids.Pairwise (· < ·)) (hl : (l.map Prod.fst).Pairwise (· ≤ ·))
    (hm : ∀ p ∈ l, p.1 ∈ ids) : l = ids.flatMap fun i => l.filter fun p => p.1 = i := by
  induction ids generalizing l with
  | nil => exact List.eq_nil_iff_forall_not_mem.mpr fun p hp => by simpa using hm p hp
  | cons i ids ih =>
    obtain ⟨hlt, hi⟩ := List.pairwise_cons.mp hi
    have hsplit := eq_filter_append_of_sorted (i := i) hl fun p hp => by
      rcases List.mem_cons.mp (hm p hp) with he | he
      · exact Nat.le_of_eq he.symm
      · exact Nat.le_of_lt (hlt _ he)
    have hrest := ih (l := l.filter fun p => p.1 ≠ i) hi
      (hl.sublist (List.filter_sublist.map _)) fun p hp => by
        obtain ⟨hp, hne⟩ := List.mem_filter.mp hp
        exact (List.mem_cons.mp (hm p hp)).resolve_left (by simpa using hne)
    rw [List.flatMap_cons]
    refine hsplit.trans (congrArg _ (hrest.trans ?_))
    refine List.flatMap_congr fun j hj => ?_
    rw [List.filter_filter]
    refine List.filter_congr fun p _ => ?_
    have hij := hlt j hj
    by_cases hp : p.1 = j
    · simp only [hp, decide_true, Bool.true_and, decide_eq_true_eq]
      omega
    · simp [hp]

/-- Deeds that are grouped by run are those of the first run, then those of the second, and so on. -/
theorem Sound.deeds_of_grouped (hb : b.Sound)
    (hg : ((Act.deeds past).map Prod.fst).Pairwise (· ≤ ·))
    (hd : ∀ i ∈ (Act.deeds past).map Prod.fst, ∃ s ∈ b.sessions, s.id = i) :
    Act.deeds past = b.sessions.flatMap fun s => (Act.deeds past).filter fun p => p.1 = s.id := by
  have hs := eq_flatMap_of_sorted (List.pairwise_map.mpr hb.ordered) hg fun p hp => by
    obtain ⟨s, hs, hid⟩ := hd p.1 (List.mem_map_of_mem hp)
    exact hid ▸ List.mem_map_of_mem hs
  rwa [List.flatMap_map] at hs

/-- The output of runs whose deeds are grouped is that of the first one, then that of the second, and so
on. -/
theorem runPrints_of_deeds
    (h : Act.deeds past = b.sessions.flatMap fun s => (Act.deeds past).filter fun p => p.1 = s.id) :
    Act.runPrints past = b.sessions.flatMap fun s => Deed.prints (Act.deedsOf s.id past) := by
  rw [Act.runPrints, h, List.map_flatMap, Deed.prints, List.filterMap_flatMap]
  rfl

theorem Serial.deeds_eq (h : Serial past b) :
    Act.deeds past = b.sessions.flatMap fun s => (Act.deeds past).filter fun p => p.1 = s.id := by
  refine h.sound.deeds_of_grouped h.grouped fun i hi => ?_
  obtain ⟨s, hs, hid, -⟩ := h.begun i hi
  exact ⟨s, hs, hid⟩

theorem Serial.runPrints_eq (h : Serial past b) :
    Act.runPrints past = b.sessions.flatMap fun s => Deed.prints (Act.deedsOf s.id past) :=
  runPrints_of_deeds h.deeds_eq

theorem Serial.runEvents_eq (h : Serial past b) :
    Act.runEvents past = b.sessions.flatMap fun s =>
      (Deed.publications (Act.deedsOf s.id past)).map (Envelope.mk s.id) := by
  rw [Act.runEvents, h.deeds_eq, List.filterMap_flatMap]
  refine List.flatMap_congr fun s _ => ?_
  rw [Deed.publications, Act.deedsOf, List.filterMap_map, List.map_filterMap]
  refine List.filterMap_congr fun p hp => ?_
  have hid : p.1 = s.id := by simpa using (List.mem_filter.mp hp).2
  rw [hid, Function.comp_apply]

theorem Serial.finished_first (h : Serial past b) {before after : List Act} {id : Nat} {d : Deed}
    (hp : past = before ++ .run id d :: after) {t : Session} (ht : t ∈ b.sessions)
    (hlt : t.id < id) : ∃ outcome, .run t.id (.publish (.finished outcome)) ∈ before := by
  have hd : Act.deeds past = Act.deeds before ++ (id, d) :: Act.deeds after := by
    rw [hp, Act.deeds_append]
    rfl
  obtain ⟨s, hs, rfl, hb⟩ := h.begun id (by simp [hd])
  obtain ⟨outcome, ho⟩ := h.ended t ht (h.finished_before hs ht hb hlt)
  refine ⟨outcome, ?_⟩
  have hg := h.grouped
  rw [hd, List.map_append, List.pairwise_append, List.map_cons, List.pairwise_cons] at hg
  rw [hd] at ho
  rcases List.mem_append.mp ho with ho | ho
  · obtain ⟨a, ha, hda⟩ := List.mem_filterMap.mp ho
    cases a with
    | run i e =>
      simp only [Act.deed?, Option.some.injEq, Prod.mk.injEq] at hda
      rw [← hda.1, ← hda.2]
      exact ha
    | host e => cases hda
  · rcases List.mem_cons.mp ho with he | ho
    · have := congrArg Prod.fst he
      simp only at this
      omega
    · have := hg.2.1.1 t.id (List.mem_map_of_mem ho)
      omega

theorem hostEvents_step (hs : Step b acts b') :
    ∀ e ∈ Act.hostEvents acts, e.event = .spawned ∨ e.event = .resumed := by
  cases hs with
  | advance before s after hs => simp [Act.hostEvents]
  | publish id e he => simpa [Act.hostEvents] using he
  | clear => simp [Act.hostEvents, Act.discards]
  | _ => simp [Act.hostEvents]

theorem hostEvents_steps (hs : Steps b acts b') :
    ∀ e ∈ Act.hostEvents acts, e.event = .spawned ∨ e.event = .resumed := by
  induction hs with
  | refl b => simp [Act.hostEvents]
  | more h t ih =>
    intro e he
    rw [Act.hostEvents, List.filterMap_append, List.mem_append] at he
    rcases he with he | he
    · exact hostEvents_step h e he
    · exact ih e he

/-- Where runs queue they are serial. Of the runs in flight at most one has begun, the earliest; what
the runs print and publish is grouped by run, in the order of their start, and so is the output but
for what the host prints itself. -/
theorem queued_runs_are_serial (e : Engine σ) (grants : Nat → Bool) (sink : Sink) (config : Config)
    (hq : config.run.overlap = .queue) (calls : List (Nat × Call)) :
    let b := (create e grants sink config).after calls
    let acts := (create e grants sink config).history calls
    (∀ s ∈ b.active, s.hasBegun = true →
      ∀ t ∈ b.active, s.id ≤ t.id ∧ (t.hasBegun = true → t = s)) ∧
    (∀ s ∈ b.sessions, s.hasBegun = true → ∀ t ∈ b.sessions, t.id < s.id → t.isFinished = true) ∧
    (∀ before id d after, acts = before ++ .run id d :: after →
      ∀ t ∈ b.sessions, t.id < id → ∃ outcome, .run t.id (.publish (.finished outcome)) ∈ before) ∧
    b.sessions.Pairwise (fun s t => s.id < t.id) ∧
    Act.runPrints acts = b.sessions.flatMap (fun s => Deed.prints (Act.deedsOf s.id acts)) ∧
    Act.runEvents acts = b.sessions.flatMap (fun s =>
      (Deed.publications (Act.deedsOf s.id acts)).map (Envelope.mk s.id)) ∧
    b.sink = sink.feed (Act.printed acts) ∧
    (∀ u ∈ b.hub.subscribers, u.inbox <:+ Act.published acts) ∧
    (∀ e ∈ Act.hostEvents acts, e.event = .spawned ∨ e.event = .resumed) := by
  intro b acts
  have hs := steps_history (create e grants sink config) calls
  have h : Serial acts b :=
    hs.keep (P := Serial) (fun h hs => h.step hs) [] (serial_create e grants sink config hq)
  have ha := (sound_create e grants sink config).accounts hs
  refine ⟨fun s hs hb t ht => ?_, fun s hs hb t ht hlt => h.finished_before hs ht hb hlt,
    fun before id d after hp t ht hlt => h.finished_first hp ht hlt, h.sound.ordered,
    h.runPrints_eq, h.runEvents_eq, ha.sink, ha.inboxes (by simp [create, note]),
    hostEvents_steps hs⟩
  obtain ⟨hsm, hsf⟩ := mem_active.mp hs
  obtain ⟨htm, htf⟩ := mem_active.mp ht
  have hle : s.id ≤ t.id := by
    by_contra hlt
    rw [h.finished_before hsm htm hb (by omega)] at htf
    cases htf
  refine ⟨hle, fun htb => h.sound.eq_of_id htm hsm (Nat.le_antisymm ?_ hle)⟩
  by_contra hlt
  rw [h.finished_before htm hsm htb (by omega)] at hsf
  cases hsf

/-- A queue of two scripts, of which the first reads a line that comes after the second was started. -/
theorem queued_runs_are_serial_two :
    let config : Config := { run := { overlap := .queue } }
    let calls : List (Nat × Call) :=
      [(0, .start "read a" true), (1, .start "print b" true), (2, .submit "x")]
    let b := create Scripted.engine (fun _ => true) (.capture "") config
    config.run.overlap = .queue ∧
    Act.runPrints (b.history calls) = [.line "ax", .text "b"] ∧
    Act.runPrints (b.history calls) = (b.after calls).sessions.flatMap fun s =>
      Deed.prints (Act.deedsOf s.id (b.history calls)) := by
  intro config calls b
  have h := queued_runs_are_serial Scripted.engine (fun _ => true) (.capture "") config rfl calls
  refine ⟨rfl, ?_, h.2.2.2.2.1⟩
  decide +kernel

end Bridge

end Conduit

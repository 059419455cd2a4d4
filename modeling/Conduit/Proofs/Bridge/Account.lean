import Conduit.Proofs.Bridge.Step
import Mathlib.Data.List.Nodup

/-!
What every bridge keeps, step by step: its channel is sound, its runs are numbered in the order of
their start, and whoever waits for input is a run that stands at a read. Its history accounts for the
output, for every line that was handed in and for what waits to be received by the subscribers.
-/
namespace Conduit

namespace Session

/-- The same run, neither closer to its beginning nor to its end. -/
structure Alike (s s' : Session) : Prop where
  id : s'.id = s.id
  finished : s'.isFinished = s.isFinished
  behind : s'.behind? = s.behind?

theorem Alike.refl (s : Session) : Alike s s := ⟨rfl, rfl, rfl⟩

theorem alike_receive (line : String) (s : Session) : Alike s (s.receive line) := by
  unfold receive
  cases hp : s.phase <;> constructor <;> simp [isFinished, report?, behind?, hp]

theorem alike_cancelled (s : Session) : Alike s (Bridge.cancelled s) := by
  unfold Bridge.cancelled
  cases hp : s.phase <;> constructor <;> simp [isFinished, report?, behind?, hp]

theorem alike_resume (s : Session) : Alike s { s with gate := s.gate.resume } := ⟨rfl, rfl, rfl⟩

theorem alike_ite {f : Session → Session} (hf : ∀ s, Alike s (f s)) (id : Nat) (s : Session) :
    Alike s (if s.id = id then f s else s) := by
  split
  · exact hf s
  · exact .refl s

end Session

namespace Bridge

structure Sound (b : Bridge) : Prop where
  channel : b.channel.Sound
  /-- Hosts do not call off their own submissions. -/
  writers : ∀ w ∈ b.channel.writers, w.token = none
  ordered : b.sessions.Pairwise fun s t => s.id < t.id
  known : ∀ s ∈ b.sessions, s.id < b.nextId
  readers : ∀ r ∈ b.channel.readers,
    r.token = some r.ticket ∧ ∃ s ∈ b.sessions, s.id = r.ticket ∧ s.isReading = true
  distinct : (b.channel.readers.map (·.ticket)).Nodup

variable {b b' : Bridge} {acts : List Act}

theorem sound_create (e : Engine σ) (grants : Nat → Bool) (sink : Sink) (config : Config) :
    (create e grants sink config).Sound where
  channel := Channel.sound_ofCapacity _ _
  writers := by simp [create, note, Channel.ofCapacity]
  ordered := .nil
  known := by simp [create, note]
  readers := by simp [create, note, Channel.ofCapacity]
  distinct := .nil

theorem mem_active {s : Session} : s ∈ b.active ↔ s ∈ b.sessions ∧ s.isFinished = false := by
  simp [active]

theorem Sound.eq_of_id (h : b.Sound) {s t : Session} (hs : s ∈ b.sessions) (ht : t ∈ b.sessions)
    (hid : s.id = t.id) : s = t := by
  have hn : (b.sessions.map Session.id).Nodup :=
    List.pairwise_map.mpr (h.ordered.imp Nat.ne_of_lt)
  exact List.inj_on_of_nodup_map hn hs ht hid

theorem Sound.ordered_set {before after : List Session} {s s' : Session}
    (h : (before ++ s :: after).Pairwise fun s t : Session => s.id < t.id) (hid : s'.id = s.id) :
    (before ++ s' :: after).Pairwise fun s t => s.id < t.id := by
  rw [List.pairwise_append, List.pairwise_cons] at h ⊢
  obtain ⟨hb, ⟨hs, ha⟩, hc⟩ := h
  refine ⟨hb, ⟨fun t ht => hid ▸ hs t ht, ha⟩, fun t ht u hu => ?_⟩
  rcases List.mem_cons.mp hu with rfl | hu
  · exact hid ▸ hc t ht s List.mem_cons_self
  · exact hc t ht u (List.mem_cons_of_mem s hu)

/-- A change to one run: unless it stays at its read, it is none of the readers any more. -/
theorem Sound.mapSession {f : Session → Session} {channel : Channel} (h : b.Sound) (id : Nat)
    (hf : ∀ s, Session.Alike s (f s)) (hc : channel.Sound)
    (hw : ∀ w ∈ channel.writers, w.token = none)
    (hr : channel.readers.Sublist b.channel.readers)
    (hn : ∀ r ∈ channel.readers, r.ticket = id →
      ∀ s, s.isReading = true → (f s).isReading = true) :
    ({ b with channel }.mapSession id f).Sound where
  channel := hc
  writers := hw
  ordered := by
    refine List.pairwise_map.mpr (h.ordered.imp ?_)
    intro s t hlt
    rw [(Session.alike_ite hf id s).id, (Session.alike_ite hf id t).id]
    exact hlt
  known := by
    intro s' hs'
    obtain ⟨s, hs, rfl⟩ := List.mem_map.mp hs'
    rw [(Session.alike_ite hf id s).id]
    exact h.known s hs
  readers := by
    intro r hr'
    obtain ⟨ht, s, hs, hid, hread⟩ := h.readers r (hr.subset hr')
    refine ⟨ht, _, List.mem_map_of_mem hs, (Session.alike_ite hf id s).id.trans hid, ?_⟩
    split
    · exact hn r hr' (hid.symm.trans ‹_›) s hread
    · exact hread
  distinct := (hr.map _).nodup h.distinct

theorem Sound.moves {before after : List Session} {s s' : Session} {ds : List Deed} (h : b.Sound)
    (hs : b.sessions = before ++ s :: after) (hm : Moves b s ds b' s') (hr : s.isReading = false) :
    { b' with sessions := before ++ s' :: after }.Sound := by
  have hmem : s ∈ b.sessions := by simp [hs]
  have hold : ∀ r ∈ b.channel.readers, r.ticket ≠ s.id := by
    intro r hr' hid
    obtain ⟨-, t, ht, hti, hread⟩ := h.readers r hr'
    rw [h.eq_of_id ht hmem (hti.trans hid), hr] at hread
    cases hread
  refine ⟨hm.sound h.channel, fun w hw => h.writers w (hm.writers hw), ?_, ?_, ?_, ?_⟩
  · exact Sound.ordered_set (hs ▸ h.ordered) hm.id
  · intro t ht
    rw [hm.frame]
    rcases List.mem_append.mp ht with ht | ht
    · exact h.known t (by simp [hs, ht])
    · rcases List.mem_cons.mp ht with rfl | ht
      · exact hm.id ▸ h.known s hmem
      · exact h.known t (by simp [hs, ht])
  · intro r hr'
    simp only [hm.readers] at hr'
    rcases List.mem_append.mp hr' with hin | hr'
    · obtain ⟨ht, t, htm, hid, hread⟩ := h.readers r hin
      refine ⟨ht, t, ?_, hid, hread⟩
      rw [hs] at htm
      rcases List.mem_append.mp htm with htm | htm
      · simp [htm]
      · rcases List.mem_cons.mp htm with rfl | htm
        · exact absurd hid.symm (hold r hin)
        · simp [htm]
    · split at hr'
      · rename_i hread
        rw [List.mem_singleton] at hr'
        subst hr'
        exact ⟨rfl, s', by simp, hm.id, hread⟩
      · cases hr'
  · simp only [hm.readers, List.map_append]
    rw [List.nodup_append]
    refine ⟨h.distinct, ?_, ?_⟩
    · split <;> simp
    · intro t ht u hu
      obtain ⟨r, hr', rfl⟩ := List.mem_map.mp ht
      split at hu
      · simp only [List.map_cons, List.map_nil, List.mem_singleton] at hu
        exact hu ▸ hold r hr'
      · cases hu

theorem Sound.step (h : b.Sound) (hs : Step b acts b') : b'.Sound := by
  cases hs with
  | advance before s after hs =>
    obtain ⟨he, -⟩ | ⟨b₁, s', he, hm, -, hr, -⟩ := advanceAmong_cases hs <;> rw [he]
    · exact h
    · exact h.moves hs hm hr
  | handOver line r rs hf hr =>
    have hc := h.channel.accept hf line
    rw [Channel.accept_of_readers hr] at hc
    have hd := h.distinct
    rw [hr, List.map_cons, List.nodup_cons] at hd
    refine h.mapSession r.ticket (Session.alike_receive line) hc h.writers ?_ ?_
    · rw [hr]
      exact List.sublist_cons_self r rs
    · exact fun q hq he => absurd (he ▸ List.mem_map_of_mem hq) hd.1
  | buffer line hf hr =>
    have hc := h.channel.accept hf line
    rw [Channel.accept_of_no_readers hr] at hc
    exact ⟨hc, h.writers, h.ordered, h.known, h.readers, h.distinct⟩
  | block ticket line hf =>
    refine ⟨h.channel.enqueueWriter hf _, ?_, h.ordered, h.known, h.readers, h.distinct⟩
    intro w hw
    rcases List.mem_append.mp hw with hw | hw
    · exact h.writers w hw
    · rw [List.mem_singleton.mp hw]
  | take line channel served ht =>
    refine ⟨h.channel.take? ht, fun w hw => h.writers w (Channel.writers_take? ht hw), h.ordered,
      h.known, ?_, ?_⟩
    · simpa only [Channel.readers_take? ht] using h.readers
    · simpa only [Channel.readers_take? ht] using h.distinct
  | clear =>
    exact ⟨h.channel.clear, fun w hw => h.writers w (List.mem_of_mem_drop hw), h.ordered, h.known,
      h.readers, h.distinct⟩
  | cancel id =>
    refine h.mapSession id Session.alike_cancelled (h.channel.abandon id) ?_
      List.filter_sublist ?_
    · exact fun w hw => h.writers w (List.mem_filter.mp hw).1
    · intro r hr he
      obtain ⟨hin, ht⟩ := List.mem_filter.mp hr
      rw [(h.readers r hin).1, he] at ht
      simp at ht
  | resume id =>
    exact h.mapSession id Session.alike_resume h.channel h.writers (List.Sublist.refl _)
      fun r hr he s hs => hs
  | useId =>
    exact ⟨h.channel, h.writers, h.ordered, fun s hs => Nat.lt_succ_of_lt (h.known s hs), h.readers,
      h.distinct⟩
  | spawn source =>
    refine ⟨h.channel, h.writers, ?_, ?_, ?_, h.distinct⟩
    · refine List.pairwise_append.mpr ⟨h.ordered, List.pairwise_singleton _ _, ?_⟩
      intro s hs t ht
      rw [List.mem_singleton.mp ht]
      exact h.known s hs
    · intro s hs
      rcases List.mem_append.mp hs with hs | hs
      · exact Nat.lt_succ_of_lt (h.known s hs)
      · rw [List.mem_singleton.mp hs]
        exact Nat.lt_succ_self _
    · intro r hr
      obtain ⟨ht, s, hs, hid⟩ := h.readers r hr
      exact ⟨ht, s, List.mem_append_left _ hs, hid⟩
  | _ => exact ⟨h.channel, h.writers, h.ordered, h.known, h.readers, h.distinct⟩

theorem sink_step (hs : Step b acts b') : b'.sink = b.sink.feed (Act.printed acts) := by
  cases hs with
  | advance before s after hs =>
    obtain ⟨he, hd⟩ | ⟨b₁, s', he, hm, -⟩ := advanceAmong_cases hs <;> rw [he]
    · rw [hd]
      rfl
    · rw [Act.printed_run]
      exact hm.sink
  | clear =>
    rw [Act.printed_discards]
    rfl
  | _ => rfl

theorem Sound.pending_step (h : b.Sound) (hs : Step b acts b') :
    b.channel.pending ++ Act.submitted acts =
      (Act.removed acts).map Prod.snd ++ b'.channel.pending := by
  cases hs with
  | advance before s after hs =>
    obtain ⟨he, hd⟩ | ⟨b₁, s', he, hm, -⟩ := advanceAmong_cases hs <;> rw [he]
    · rw [hd]
      exact List.append_nil _
    · rw [Act.removed_run, Act.submitted_run, List.append_nil]
      exact hm.pending
  | handOver line r rs hf hr =>
    have hn : b.channel.readers ≠ [] := by simp [hr]
    have hp : b.channel.pending = [] := by
      simp [Channel.pending, h.channel.empty hn, h.channel.no_writers hn]
    rw [hp]
    exact congrArg (line :: ·) hp.symm
  | buffer line hf hr =>
    have hw := h.channel.no_writers_of_room hf
    simp [Channel.pending, hw, Act.submitted, Act.submitted?, Act.removed, Act.removed?]
  | block ticket line hf => exact (b.channel.pending_enqueueWriter ⟨ticket, none, line⟩).symm
  | take line channel served ht =>
    rw [Channel.pending_take? ht]
    exact List.append_nil _
  | clear =>
    have hrem : (Act.removed (Act.discards b.channel.lines)).map Prod.snd = b.channel.lines := by
      simp [Function.comp_def]
    rw [Act.submitted_discards, hrem, List.append_nil]
    exact b.channel.pending_clear
  | cancel id =>
    have hw : (b.channel.abandon id).writers = b.channel.writers :=
      List.filter_eq_self.mpr fun w hw => by simp [h.writers w hw]
    rw [show (Bridge.mapSession _ id cancelled).channel.pending = b.channel.pending by
      simp only [Channel.pending, Bridge.mapSession, hw]; rfl]
    exact List.append_nil _
  | _ => exact List.append_nil _

theorem inbox_publishAll {h : Hub} {past : List Envelope}
    (hp : ∀ u ∈ h.subscribers, u.inbox <:+ past) (es : List Envelope) :
    ∀ u ∈ (h.publishAll es).subscribers, u.inbox <:+ past ++ es := by
  induction es generalizing h past with
  | nil => simpa using hp
  | cons e es ih =>
    rw [List.append_cons]
    refine ih (h := h.publish e) ?_
    intro u hu
    obtain ⟨v, hv, rfl⟩ := List.mem_map.mp hu
    obtain ⟨earlier, he⟩ := hp v (List.mem_of_mem_filter hv)
    exact ⟨earlier, by rw [← he, List.append_assoc]⟩

theorem inbox_step {past : List Envelope} (hp : ∀ u ∈ b.hub.subscribers, u.inbox <:+ past)
    (hs : Step b acts b') :
    ∀ u ∈ b'.hub.subscribers, u.inbox <:+ past ++ Act.published acts := by
  have still : ∀ u ∈ b.hub.subscribers, u.inbox <:+ past ++ [] := by simpa using hp
  cases hs with
  | advance before s after hs =>
    obtain ⟨he, hd⟩ | ⟨b₁, s', he, hm, -⟩ := advanceAmong_cases hs <;> rw [he]
    · rw [hd]
      exact still
    · rw [Act.published_run]
      simp only [hm.hub]
      exact inbox_publishAll hp _
  | publish id e he => exact inbox_publishAll hp [⟨id, e⟩]
  | clear =>
    rw [Act.published_discards]
    exact still
  | subscribe =>
    intro u hu
    rcases List.mem_append.mp hu with hu | hu
    · exact still u hu
    · rw [List.mem_singleton.mp hu]
      exact List.nil_suffix
  | leave id | receive id =>
    intro u hu
    obtain ⟨v, hv, rfl⟩ := List.mem_map.mp hu
    split
    · exact List.nil_suffix
    · exact still v hv
  | _ => exact still

structure Fixed (b b' : Bridge) : Prop where
  config : b'.config = b.config
  grants : b'.grants = b.grants
  drive : b'.drive = b.drive
  limit : b'.channel.limit = b.channel.limit
  whenFull : b'.channel.whenFull = b.channel.whenFull

theorem fixed_step (hs : Step b acts b') : Fixed b b' := by
  cases hs with
  | advance before s after hs =>
    obtain ⟨he, -⟩ | ⟨b₁, s', he, hm, -⟩ := advanceAmong_cases hs <;> rw [he]
    · exact ⟨rfl, rfl, rfl, rfl, rfl⟩
    · have hc : b₁.config = b.config := by rw [hm.frame]
      have hg : b₁.grants = b.grants := by rw [hm.frame]
      have hd : b₁.drive = b.drive := by rw [hm.frame]
      exact ⟨hc, hg, hd, hm.limit, hm.whenFull⟩
  | take line channel served ht =>
    exact ⟨rfl, rfl, rfl, Channel.limit_take? ht, Channel.whenFull_take? ht⟩
  | _ => exact ⟨rfl, rfl, rfl, rfl, rfl⟩

/-- What can be told from the history since the bridge was as `b₀`. -/
structure Accounts (b₀ : Bridge) (acts : List Act) (b : Bridge) : Prop where
  sound : b.Sound
  sink : b.sink = b₀.sink.feed (Act.printed acts)
  lines : b₀.channel.pending ++ Act.submitted acts =
    (Act.removed acts).map Prod.snd ++ b.channel.pending
  inboxes : (∀ u ∈ b₀.hub.subscribers, u.inbox = []) →
    ∀ u ∈ b.hub.subscribers, u.inbox <:+ Act.published acts
  config : b.config = b₀.config
  grants : b.grants = b₀.grants
  drive : b.drive = b₀.drive
  limit : b.channel.limit = b₀.channel.limit
  whenFull : b.channel.whenFull = b₀.channel.whenFull

theorem Accounts.refl (h : b.Sound) : Accounts b [] b where
  sound := h
  sink := rfl
  lines := List.append_nil _
  inboxes := fun hn u hu => hn u hu ▸ List.nil_suffix
  config := rfl
  grants := rfl
  drive := rfl
  limit := rfl
  whenFull := rfl

theorem Accounts.step {b₀ : Bridge} {past : List Act} (h : Accounts b₀ past b) (hs : Step b acts b') :
    Accounts b₀ (past ++ acts) b' where
  sound := h.sound.step hs
  sink := by rw [sink_step hs, h.sink, Act.printed_append, Sink.feed_append]
  lines := by
    rw [Act.submitted_append, ← List.append_assoc, h.lines, List.append_assoc,
      h.sound.pending_step hs, Act.removed_append, List.map_append, List.append_assoc]
  inboxes := fun hn => by
    rw [Act.published_append]
    exact inbox_step (h.inboxes hn) hs
  config := (fixed_step hs).config.trans h.config
  grants := (fixed_step hs).grants.trans h.grants
  drive := (fixed_step hs).drive.trans h.drive
  limit := (fixed_step hs).limit.trans h.limit
  whenFull := (fixed_step hs).whenFull.trans h.whenFull

theorem Sound.accounts (h : b.Sound) (hs : Steps b acts b') : Accounts b acts b' :=
  hs.keep (P := Accounts b) (fun h hs => h.step hs) [] (.refl h)

end Bridge

end Conduit

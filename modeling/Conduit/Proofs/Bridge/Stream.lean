import Conduit.Proofs.Bridge.Orderly
import Conduit.Proofs.Bridge.Serial
import Conduit.Proofs.Session.Hub
import Mathlib.Data.List.Induction

/-!
The stream of events. A subscriber who does not leave sees everything that is published from then on, in
that order; of one run these are the events of its own deeds and, among them, those few that the host
publishes about it.
-/
namespace Conduit

def Envelope.eventsOf (id : Nat) (es : List Envelope) : List SessionEvent :=
  es.filterMap fun e => if e.session = id then some e.event else none

@[simp] theorem Envelope.eventsOf_append (id : Nat) (es fs : List Envelope) :
    eventsOf id (es ++ fs) = eventsOf id es ++ eventsOf id fs :=
  List.filterMap_append

theorem Envelope.eventsOf_of_ne {id : Nat} {es : List Envelope} (h : ∀ e ∈ es, e.session ≠ id) :
    eventsOf id es = [] :=
  List.filterMap_eq_nil_iff.mpr fun e he => if_neg (h e he)

/-- What remains of a run's events without those by which a host tells that it lets the run go on. -/
def SessionEvent.ofRun (policy : PausePolicy) (es : List SessionEvent) : List SessionEvent :=
  match policy with
  | .autoResume => es
  | .host => es.filter (· ≠ .resumed)

@[simp] theorem SessionEvent.ofRun_append (policy : PausePolicy) (es fs : List SessionEvent) :
    ofRun policy (es ++ fs) = ofRun policy es ++ ofRun policy fs := by
  cases policy with
  | autoResume => rfl
  | host => exact List.filter_append es fs

theorem SessionEvent.ofRun_eq_self {policy : PausePolicy} {es : List SessionEvent}
    (h : policy = .host → .resumed ∉ es) : ofRun policy es = es := by
  cases policy with
  | autoResume => rfl
  | host =>
    refine List.filter_eq_self.mpr fun e he => ?_
    simpa using fun hr : e = .resumed => h rfl (hr ▸ he)

namespace Act

def eventsOf (id : Nat) (acts : List Act) : List SessionEvent := Envelope.eventsOf id (published acts)

variable {id : Nat} {acts : List Act}

@[simp] theorem eventsOf_append (id : Nat) (acts more : List Act) :
    eventsOf id (acts ++ more) = eventsOf id acts ++ eventsOf id more := by
  simp [eventsOf]

theorem eventsOf_run_self (id : Nat) (ds : List Deed) :
    eventsOf id (ds.map (run id)) = Deed.publications ds := by
  rw [eventsOf, published_run, Envelope.eventsOf, List.filterMap_map]
  simp

theorem eventsOf_run_ne {id' : Nat} (h : id' ≠ id) (ds : List Deed) :
    eventsOf id (ds.map (run id')) = [] := by
  rw [eventsOf, published_run]
  refine Envelope.eventsOf_of_ne fun e he => ?_
  obtain ⟨event, -, rfl⟩ := List.mem_map.mp he
  exact h

/-- Of the events of a run those are published by the run itself that a host does not publish. -/
theorem filter_eventsOf {p : SessionEvent → Bool}
    (h : ∀ e ∈ hostEvents acts, e.session = id → p e.event = false) :
    (eventsOf id acts).filter p = (Deed.publications (deedsOf id acts)).filter p := by
  induction acts with
  | nil => rfl
  | cons a acts ih =>
    have hsplit : a :: acts = [a] ++ acts := rfl
    rw [hsplit, hostEvents, List.filterMap_append] at h
    have hacts := ih fun e he => h e (List.mem_append_right _ he)
    have hone : (eventsOf id [a]).filter p = (Deed.publications (deedsOf id [a])).filter p := by
      cases a with
      | run i d =>
        change (eventsOf id ([d].map (run i))).filter p =
          (Deed.publications (deedsOf id ([d].map (run i)))).filter p
        by_cases hi : i = id
        · rw [hi, eventsOf_run_self, deedsOf_run_self]
        · rw [eventsOf_run_ne hi, deedsOf_run_ne hi]
          rfl
      | host d =>
        cases d with
        | publish e =>
          by_cases he : e.session = id
          · have hp := h e (by simp) he
            change (Envelope.eventsOf id [e]).filter p = []
            simp [Envelope.eventsOf, he, hp]
          · rw [eventsOf, Envelope.eventsOf_of_ne (by simpa [published, published?] using he)]
            rfl
        | _ => rfl
    rw [hsplit, eventsOf_append, deedsOf_append, Deed.publications_append, List.filter_append,
      List.filter_append, hone, hacts]

theorem eventsOf_eq (h : hostEvents acts = []) :
    eventsOf id acts = Deed.publications (deedsOf id acts) := by
  have hf := @filter_eventsOf id acts (fun _ => true) (by simp [h])
  simpa using hf

end Act

/-! Subscribers -/

namespace Hub

variable {h : Hub} {u : Nat} {es : List Envelope}

theorem Hears.publishAll (hh : h.Hears u es) (fs : List Envelope) :
    (h.publishAll fs).Hears u (es ++ fs) := by
  induction fs generalizing h es with
  | nil => simpa using hh
  | cons e fs ih =>
    rw [List.append_cons]
    exact ih (hh.publish e)

end Hub

namespace Bridge
variable {b : Bridge} {u : Nat} {es : List Envelope}

theorem published_startActs (b : Bridge) :
    Act.published b.startActs = if b.canSpawn then [⟨b.nextId, .spawned⟩] else [] := by
  have hw : Act.published b.makeWayActs = [] := by
    unfold makeWayActs
    split
    · rfl
    · exact Act.published_discards _
    · exact Act.published_discards _
  rw [startActs, Act.published_append, hw]
  split <;> rfl

theorem published_acceptActs (b : Bridge) (line : String) : Act.published (b.acceptActs line) = [] := by
  unfold acceptActs
  split <;> rfl

def announcements (b : Bridge) : Call → List Envelope
  | .start _ _ => if b.canSpawn then [⟨b.nextId, .spawned⟩] else []
  | .resume => (b.active.filter Session.isPaused).map fun s => ⟨s.id, .resumed⟩
  | _ => []

theorem published_applyActs (b : Bridge) (call : Call) :
    Act.published (b.applyActs call) = b.announcements call := by
  cases call with
  | start source told => exact published_startActs b
  | submit line =>
    simp only [applyActs, submitActs]
    split
    · cases b.channel.whenFull <;> rfl
    · exact published_acceptActs b line
  | trySubmit line =>
    simp only [applyActs]
    split
    · rfl
    · exact published_acceptActs b line
  | resume =>
    simp [applyActs, resumeActs, announcements, Act.published, Function.comp_def, Act.published?]
  | clear => exact Act.published_discards _
  | tryRead =>
    simp only [applyActs, tryReadActs]
    cases b.channel.lines <;> rfl
  | _ => rfl

theorem hub_resumeAll (paused : List Session) (b : Bridge) :
    (paused.foldl (fun b s => (b.resumeSession s.id).publish s.id .resumed) b).hub =
      b.hub.publishAll (paused.map fun s => ⟨s.id, .resumed⟩) := by
  induction paused generalizing b with
  | nil => rfl
  | cons s paused ih => exact ih _

theorem hub_apply (b : Bridge) (ticket : Nat) {call : Call} (hs : call ≠ .subscribe)
    (hl : ∀ v, call ≠ .leave v) (hr : ∀ v, call ≠ .receive v) :
    (b.apply ticket call).1.hub = b.hub.publishAll (b.announcements call) := by
  have wait : ∀ w, (b.await ticket w).1.hub = b.hub := by
    intro w
    unfold await
    split <;> rfl
  have accepted : ∀ {line b'}, b.trySubmit line = some b' → b'.hub = b.hub := by
    intro line b' h
    obtain ⟨-, ⟨hr, rfl⟩ | ⟨r, rs, hr, rfl⟩⟩ := trySubmit_eq_some h <;> rfl
  cases call with
  | start source told =>
    obtain ⟨journal, h⟩ := apply_start_eq b ticket source told
    rw [h, announcements]
    cases b.canSpawn <;> rfl
  | submit line =>
    simp only [apply, submit]
    cases h : b.trySubmit line with
    | none => cases b.channel.whenFull <;> rfl
    | some b' => exact accepted h
  | trySubmit line =>
    simp only [apply]
    cases h : b.trySubmit line with
    | none => rfl
    | some b' => exact accepted h
  | resume =>
    simp only [apply, resume, announcements]
    cases b.active.filter Session.isPaused with
    | nil => rfl
    | cons s paused => exact hub_resumeAll (s :: paused) b
  | stop =>
    simp only [apply, stop]
    cases b.active with
    | nil => rfl
    | cons s running =>
      obtain ⟨channel, sessions, journal, h, -⟩ := cancelAll_eq (s :: running)
        (fun s => "Stopping session " ++ Decimal.natText s.id) b
      simp only [h]
      rfl
  | cancel id =>
    simp only [apply]
    obtain h | ⟨journal, h⟩ := cancelSession_cases (b.note .host .info .control
      ("Cancelling session " ++ Decimal.natText id)) id <;> rw [h] <;> rfl
  | waitIdle => exact wait _
  | join id => exact wait _
  | clear =>
    obtain ⟨journal, admitted, h⟩ := clearInput_eq b .host
    simp only [apply, h]
    rfl
  | tryRead =>
    simp only [apply, tryRead]
    cases b.channel.take? <;> rfl
  | subscribe => exact absurd rfl hs
  | leave v => exact absurd rfl (hl v)
  | receive v => exact absurd rfl (hr v)
  | resumeSession _ | print _ => rfl

theorem hub_settle (rest : List Session) (b : Bridge) :
    (rest.foldl (advanceAndKeep fun _ => false) b).hub =
      b.hub.publishAll (Act.published (b.settleActs rest)) := by
  induction rest generalizing b with
  | nil => rfl
  | cons s rest ih =>
    rw [List.foldl_cons, ih, settleActs, Act.published_append, Hub.publishAll_append,
      Act.published_run]
    congr 1
    change (b.advance (fun _ => false) s).1.hub = _
    obtain ⟨he, hd⟩ | ⟨hm, -⟩ := advance_cases b s
    · rw [he, hd]
      rfl
    · exact hm.hub

def receipt (u : Nat) (call : Call) (reply : Option Reply) : List Envelope :=
  match call, reply with
  | .receive v, some (.events es) => if v = u then es else []
  | _, _ => []

def received (b : Bridge) (u : Nat) : List (Nat × Call) → List Envelope
  | [] => []
  | (ticket, call) :: calls =>
    let (b', answer) := b.perform ticket call
    receipt u call answer.reply ++ b'.received u calls

/-- What the subscriber `u` gets to see until all the calls have been made, with what waits to be
received then. -/
def seen (b : Bridge) (u : Nat) (calls : List (Nat × Call)) : List Envelope :=
  b.received u calls ++ (b.after calls).hub.waiting u

theorem hears_apply (h : b.hub.Hears u es) (ticket : Nat) {call : Call} (hl : call ≠ .leave u) :
    ∃ fs, (b.apply ticket call).1.hub.Hears u fs ∧
      receipt u call (b.apply ticket call).2 ++ fs = es ++ b.announcements call := by
  have other : ∀ {call : Call}, (∀ v, call ≠ .receive v) →
      receipt u call (b.apply ticket call).2 = [] := by
    intro call hr
    unfold receipt
    split
    · exact absurd rfl (hr _)
    · rfl
  cases call with
  | subscribe => exact ⟨es, h.subscribe, by rw [other (by simp)]; exact (List.append_nil es).symm⟩
  | leave v =>
    refine ⟨es, h.map (fun he => hl (he ▸ rfl)) (fun _ => rfl), ?_⟩
    rw [other (by simp)]
    exact (List.append_nil es).symm
  | receive v =>
    by_cases hv : v = u
    · subst hv
      obtain ⟨hn, he⟩ := h.receive
      exact ⟨[], hn, by simp [receipt, apply, he, announcements]⟩
    · refine ⟨es, h.map hv (fun _ => rfl), ?_⟩
      simp [receipt, apply, hv, announcements]
  | _ =>
    refine ⟨_, ?_, by rw [other (by simp)]; rfl⟩
    rw [hub_apply b ticket (by simp) (by simp) (by simp)]
    exact h.publishAll _

theorem hub_perform (b : Bridge) (ticket : Nat) (call : Call) :
    (b.perform ticket call).1.hub =
      (b.apply ticket call).1.hub.publishAll (Act.published (b.settledActs ticket call)) :=
  hub_settle _ _

theorem hears_perform (h : b.hub.Hears u es) (ticket : Nat) {call : Call} (hl : call ≠ .leave u) :
    ∃ fs, (b.perform ticket call).1.hub.Hears u fs ∧
      receipt u call (b.perform ticket call).2.reply ++ fs =
        es ++ Act.published (b.performActs ticket call) := by
  obtain ⟨fs, hf, he⟩ := hears_apply h ticket hl
  refine ⟨fs ++ Act.published (b.settledActs ticket call), ?_, ?_⟩
  · rw [hub_perform]
    exact hf.publishAll _
  · rw [performActs, Act.published_append, published_applyActs, ← List.append_assoc,
      ← List.append_assoc, ← he]
    rfl

/-- A subscriber who does not leave sees what is published, in the order of publication. -/
theorem seen_eq {calls : List (Nat × Call)} (h : b.hub.Hears u es)
    (hl : ∀ c ∈ calls, c.2 ≠ .leave u) : b.seen u calls = es ++ Act.published (b.history calls) := by
  induction calls generalizing b es with
  | nil => exact h.waiting.trans (List.append_nil es).symm
  | cons c calls ih =>
    obtain ⟨fs, hf, he⟩ := hears_perform h c.1 (hl c List.mem_cons_self)
    have hrest := ih hf fun c hc => hl c (List.mem_cons_of_mem _ hc)
    calc b.seen u (c :: calls)
        = receipt u c.2 (b.perform c.1 c.2).2.reply ++ (b.perform c.1 c.2).1.seen u calls :=
          List.append_assoc _ _ _
      _ = es ++ Act.published (b.performActs c.1 c.2) ++
            Act.published ((b.perform c.1 c.2).1.history calls) := by
          rw [hrest, ← List.append_assoc, he]
      _ = es ++ Act.published (b.history (c :: calls)) := by
          rw [history, Act.published_append, List.append_assoc]

theorem subscribers_step {b' : Bridge} {acts : List Act} (hs : Step b acts b')
    (h : ∀ x ∈ b.hub.subscribers, x.id < b.hub.nextId) :
    ∀ x ∈ b'.hub.subscribers, x.id < b'.hub.nextId := by
  have published : ∀ {h : Hub} (es : List Envelope), (∀ x ∈ h.subscribers, x.id < h.nextId) →
      ∀ x ∈ (h.publishAll es).subscribers, x.id < (h.publishAll es).nextId := by
    intro h es
    induction es generalizing h with
    | nil => exact id
    | cons e es ih =>
      refine fun hx => ih (h := h.publish e) fun x hm => ?_
      obtain ⟨y, hy, rfl⟩ := List.mem_map.mp hm
      exact hx y (List.mem_of_mem_filter hy)
  cases hs with
  | advance before s after hs =>
    obtain ⟨he, -⟩ | ⟨b₁, s', he, hm, -⟩ := advanceAmong_cases hs <;> rw [he]
    · exact h
    · simp only [hm.hub]
      exact published _ h
  | publish id e he => exact published [⟨id, e⟩] h
  | subscribe =>
    intro x hx
    rcases List.mem_append.mp hx with hx | hx
    · exact Nat.lt_succ_of_lt (h x hx)
    · rw [List.mem_singleton.mp hx]
      exact Nat.lt_succ_self _
  | leave id | receive id =>
    intro x hx
    obtain ⟨y, hy, rfl⟩ := List.mem_map.mp hx
    split <;> exact h y hy
  | _ => exact h

theorem hears_subscribed (e : Engine σ) (grants : Nat → Bool) (sink : Sink) (config : Config)
    (calls : List (Nat × Call)) (ticket : Nat) :
    let b := (create e grants sink config).after calls
    (b.perform ticket .subscribe).2.reply = some (.subscription b.hub.nextId) ∧
    (b.perform ticket .subscribe).1.hub.Hears b.hub.nextId
      (Act.published (b.performActs ticket .subscribe)) := by
  intro b
  have hn : ∀ x ∈ b.hub.subscribers, x.id < b.hub.nextId :=
    (steps_history (create e grants sink config) calls).keep
      (P := fun _ c => ∀ x ∈ c.hub.subscribers, x.id < c.hub.nextId)
      (fun h hs => subscribers_step hs h) [] (by simp [create, note])
  have hnone : b.hub.subscribers.find? (fun s => s.id = b.hub.nextId) = none := by
    rw [List.find?_eq_none]
    intro x hx
    have := hn x hx
    simp only [decide_eq_true_eq]
    omega
  have hh : (b.apply ticket .subscribe).1.hub.Hears b.hub.nextId [] := by
    refine ⟨{ id := b.hub.nextId }, ?_, rfl, rfl⟩
    simp [apply, Hub.subscribe, List.find?_append, hnone]
  refine ⟨rfl, ?_⟩
  rw [hub_perform]
  exact hh.publishAll _

/-! What hosts say about runs -/

theorem history_append (b : Bridge) (calls more : List (Nat × Call)) :
    b.history (calls ++ more) = b.history calls ++ (b.after calls).history more := by
  induction calls generalizing b with
  | nil => rfl
  | cons c calls ih =>
    rw [List.cons_append, history, history, ih, List.append_assoc]
    rfl

theorem hostEvents_settleActs (rest : List Session) (b : Bridge) :
    Act.hostEvents (b.settleActs rest) = [] := by
  induction rest generalizing b with
  | nil => rfl
  | cons s rest ih =>
    rw [settleActs, Act.hostEvents, List.filterMap_append, ← Act.hostEvents, ← Act.hostEvents, ih]
    simp [Act.hostEvents]

theorem eventsOf_settledActs (b : Bridge) (ticket : Nat) (call : Call) (id : Nat) :
    Act.eventsOf id (b.settledActs ticket call) =
      Deed.publications (Act.deedsOf id (b.settledActs ticket call)) :=
  Act.eventsOf_eq (hostEvents_settleActs _ _)

theorem resumed_not_mem {s : Session} {policy : PausePolicy} {work : Behaviour Ending}
    {xs : List Exchange} {ds : List Deed} (h : s.Transcript policy work xs ds)
    (hp : policy = .host) : .resumed ∉ Deed.publications ds := by
  subst hp
  obtain ⟨lines, rfl⟩ := h.deeds
  have hclosing : .resumed ∉ Deed.publications s.closing := by
    unfold Session.closing
    split <;> simp [Deed.publications, Deed.published?]
  simpa [Dialogue.resumed_not_mem] using hclosing

theorem publications_applyActs (b : Bridge) (call : Call) (id : Nat) :
    Deed.publications (Act.deedsOf id (b.applyActs call)) = [] := by
  obtain ⟨-, hd⟩ | ⟨line, r, rs, -, -, -, hd⟩ := apply_cases b 0 call
  · rw [Act.deedsOf_of_deeds id hd]
    rfl
  · by_cases hid : r.ticket = id <;> simp [Act.deedsOf, hd, hid, Deed.publications, Deed.published?]

/-- The host says that a run was spawned when it is new; of others it says no more than that it lets
those go on that are paused. -/
theorem eventsOf_applyActs (b : Bridge) (call : Call) {id : Nat} :
    (∀ s ∈ b.newcomers call, s.id = id → Act.eventsOf id (b.applyActs call) = [.spawned]) ∧
    (id ≠ b.nextId → ∀ e ∈ Act.eventsOf id (b.applyActs call),
      e = .resumed ∧ call = .resume ∧ ∃ s ∈ b.active, s.isPaused = true ∧ s.id = id) := by
  rw [Act.eventsOf, published_applyActs]
  cases call with
  | start source told =>
    simp only [newcomers, newRuns, announcements]
    cases b.canSpawn with
    | true =>
      refine ⟨fun s hs hid => ?_, fun hn => ?_⟩
      · rw [← hid, List.mem_singleton.mp hs]
        simp [Envelope.eventsOf]
      · rw [Envelope.eventsOf_of_ne (by simpa using Ne.symm hn)]
        simp
    | false => simp [Envelope.eventsOf]
  | resume =>
    refine ⟨fun s hs => (by cases hs), fun _ e he => ?_⟩
    obtain ⟨x, hx, hxe⟩ := List.mem_filterMap.mp he
    obtain ⟨s, hs, rfl⟩ := List.mem_map.mp hx
    obtain ⟨hs, hp⟩ := List.mem_filter.mp hs
    simp only at hxe
    split at hxe
    · exact ⟨(Option.some.inj hxe).symm, rfl, s, hs, hp, ‹_›⟩
    · cases hxe
  | _ => exact ⟨fun s hs => (by cases hs), fun _ e he => (by cases he)⟩

/-- Unless the host lets it go on, all that is said about a run in a call is what it says itself. -/
theorem eventsOf_performActs (hb : b.Sound) {s : Session} (hs : s ∈ b.sessions) {ticket : Nat}
    {call : Call} (h : call = .resume → s ∈ b.active → s.isPaused = false) :
    Act.eventsOf s.id (b.performActs ticket call) =
      Deed.publications (Act.deedsOf s.id (b.performActs ticket call)) := by
  have hnone : Act.eventsOf s.id (b.applyActs call) = [] := by
    refine List.eq_nil_iff_forall_not_mem.mpr fun e he => ?_
    obtain ⟨-, hcall, t, ht, hp, hid⟩ :=
      (eventsOf_applyActs b call).2 (Nat.ne_of_lt (hb.known s hs)) e he
    obtain rfl := hb.eq_of_id (mem_active.mp ht).1 hs hid
    rw [h hcall ht] at hp
    cases hp
  rw [performActs, Act.eventsOf_append, Act.deedsOf_append, Deed.publications_append, hnone,
    publications_applyActs, eventsOf_settledActs]

theorem announced_lt (hb : b.Sound) (ticket : Nat) (call : Call) :
    ∀ e ∈ b.announcements call, e.session < (b.apply ticket call).1.nextId := by
  have hn := nextId_steps (steps_apply b ticket call)
  cases call with
  | start source told =>
    intro e he
    obtain ⟨journal, h⟩ := apply_start_eq b ticket source told
    simp only [announcements] at he
    split at he
    · rw [List.mem_singleton.mp he, h]
      exact Nat.lt_succ_self _
    · cases he
  | resume =>
    intro e he
    obtain ⟨s, hs, rfl⟩ := List.mem_map.mp he
    exact Nat.lt_of_lt_of_le (hb.known s (mem_active.mp (List.mem_of_mem_filter hs)).1) hn
  | _ => exact fun e he => (by cases he)

theorem eventsOf_performActs_of_le (hb : b.Sound) (ticket : Nat) (call : Call) {id : Nat}
    (hid : (b.perform ticket call).1.nextId ≤ id) :
    Act.eventsOf id (b.performActs ticket call) = [] := by
  have hn := nextId_steps (steps_settled b ticket call)
  have hd := deedsOf_performActs hb ticket call hid
  rw [performActs, Act.deedsOf_append] at hd
  rw [performActs, Act.eventsOf_append, eventsOf_settledActs, (List.append_eq_nil_iff.mp hd).2,
    Act.eventsOf, published_applyActs, Envelope.eventsOf_of_ne]
  · rfl
  · intro e he
    have := announced_lt hb ticket call e he
    omega

/-- Without the host's own news nothing is said about runs that are not new. -/
theorem ofRun_eventsOf_applyActs {policy : PausePolicy}
    (hp : policy = .autoResume → ∀ s ∈ b.sessions, s.isPaused = false) (call : Call) {id : Nat}
    (hid : id ≠ b.nextId) : SessionEvent.ofRun policy (Act.eventsOf id (b.applyActs call)) = [] := by
  have hall := (eventsOf_applyActs b call).2 hid
  cases policy with
  | host => exact List.filter_eq_nil_iff.mpr fun e he => by simpa using (hall e he).1
  | autoResume =>
    refine List.eq_nil_iff_forall_not_mem.mpr fun e he => ?_
    obtain ⟨-, -, s, hs, hpaused, -⟩ := hall e he
    rw [hp rfl s (mem_active.mp hs).1] at hpaused
    cases hpaused

theorem isPaused_eq_false (i : Interpreter) (grants : Nat → Bool) (sink : Sink) {config : Config}
    (hp : config.run.pause = .autoResume) (calls : List (Nat × Call)) :
    ∀ s ∈ ((create i.engine grants sink config).after calls).sessions, s.isPaused = false := by
  intro s hs
  obtain ⟨hr, source, xs, q, -, h⟩ := (orderly_runs i grants sink config calls).runs s hs
  rw [hp] at h
  exact hr.waiting.trans (h.isAtGate_eq_false hr)

/-- The events of a run tell that it was spawned and then what it did, but for what the host tells in
between. -/
theorem eventsOf_run (i : Interpreter) (grants : Nat → Bool) (sink : Sink) (config : Config)
    (calls : List (Nat × Call)) :
    let b := (create i.engine grants sink config).after calls
    let acts := (create i.engine grants sink config).history calls
    (∀ id, b.nextId ≤ id → Act.eventsOf id acts = []) ∧
    ∀ s ∈ b.sessions, SessionEvent.ofRun config.run.pause (Act.eventsOf s.id acts) =
      .spawned :: Deed.publications (Act.deedsOf s.id acts) := by
  induction calls using List.reverseRecOn with
  | nil => exact ⟨fun _ _ => rfl, fun s hs => by cases hs⟩
  | append_singleton calls c ih =>
    obtain ⟨ticket, call⟩ := c
    obtain ⟨hnone, hall⟩ := ih
    have hset := orderly_runs i grants sink config calls
    have hpaused := fun hp => @isPaused_eq_false i grants sink config hp calls
    have hruns' := (orderly_runs i grants sink config (calls ++ [(ticket, call)])).runs
    rw [after_append, history_append] at hruns' ⊢
    generalize (create i.engine grants sink config).after calls = b at hnone hall hset hpaused hruns' ⊢
    generalize (create i.engine grants sink config).history calls = acts at hnone hall hset hruns' ⊢
    simp only [after, history, List.append_nil] at hruns' ⊢
    have hsound := hset.sound
    refine ⟨fun id hid => ?_, fun s' hs' => ?_⟩
    · have hnext := nextId_steps (steps_perform b ticket call)
      rw [Act.eventsOf_append, hnone id (Nat.le_trans hnext hid),
        eventsOf_performActs_of_le hsound ticket call hid]
      rfl
    · obtain ⟨-, source', xs', q', -, horderly⟩ := hruns' s' hs'
      have hself : SessionEvent.ofRun config.run.pause
          (Deed.publications (Act.deedsOf s'.id (b.settledActs ticket call))) =
          Deed.publications (Act.deedsOf s'.id (b.settledActs ticket call)) := by
        refine SessionEvent.ofRun_eq_self fun hp hm => ?_
        refine resumed_not_mem horderly.toTranscript hp ?_
        simp [performActs, hm]
      rw [performActs, Act.eventsOf_append, Act.eventsOf_append, Act.deedsOf_append,
        Act.deedsOf_append, Deed.publications_append, Deed.publications_append,
        publications_applyActs, List.nil_append, SessionEvent.ofRun_append,
        SessionEvent.ofRun_append, eventsOf_settledActs, hself, ← List.append_assoc,
        ← List.cons_append]
      congr 1
      -- What is left are the host's own announcements in this call: none that count for a run that was
      -- there before, and the first event of a new one.
      obtain ⟨c, s₁, ht, ⟨s, hs, hn⟩ | ⟨-, hnew⟩⟩ := mem_perform hsound hs'
      · rw [← ht.id, hn.alike.id, hall s hs,
          ofRun_eventsOf_applyActs hpaused call (Nat.ne_of_lt (hsound.known s hs)), List.append_nil]
      · have hspawned := (eventsOf_applyActs b call).1 s₁ hnew rfl
        obtain ⟨source, told, -, rfl⟩ := mem_newcomers hnew
        rw [← ht.id, hnone b.nextId (Nat.le_refl _), hset.unborn b.nextId (Nat.le_refl _), hspawned]
        cases config.run.pause <;> rfl

end Bridge

end Conduit

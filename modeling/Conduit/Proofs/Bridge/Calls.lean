import Conduit.Proofs.Bridge.Step

/-!
Every call of a host is made of steps, and so is every history of calls: what the host does by itself
and then what the runs do that go on.
-/
namespace Conduit.Bridge
variable {b b' : Bridge}

/-! Input -/

def acceptActs (b : Bridge) (line : String) : List Act :=
  match b.channel.readers with
  | r :: _ => [.host (.submit line), .run r.ticket (.receive line)]
  | [] => [.host (.submit line)]

/-- A line that finds room goes to the oldest reader, or else to the end of the buffer. -/
theorem trySubmit_eq_some {line : String} (h : b.trySubmit line = some b') :
    b.channel.isFull = false ∧
    (b.channel.readers = [] ∧
        b' = { b with channel := { b.channel with lines := b.channel.lines ++ [line] } } ∨
      ∃ r rs, b.channel.readers = r :: rs ∧
        b' = { b with channel := { b.channel with readers := rs } }.mapSession r.ticket
          (Session.receive line)) := by
  unfold trySubmit at h
  split at h
  · cases h
  · rename_i channel served ht
    obtain ⟨hf, ha⟩ := Channel.tryWrite_eq_some ht
    refine ⟨hf, ?_⟩
    cases h
    cases hr : b.channel.readers with
    | nil =>
      rw [Channel.accept_of_no_readers hr] at ha
      obtain ⟨rfl, rfl⟩ := Prod.mk.inj ha
      exact .inl ⟨rfl, rfl⟩
    | cons r rs =>
      rw [Channel.accept_of_readers hr] at ha
      obtain ⟨rfl, rfl⟩ := Prod.mk.inj ha
      exact .inr ⟨r, rs, rfl, rfl⟩

theorem steps_trySubmit {line : String} (h : b.trySubmit line = some b') :
    b.channel.isFull = false ∧ Steps b (b.acceptActs line) b' := by
  obtain ⟨hf, ⟨hr, rfl⟩ | ⟨r, rs, hr, rfl⟩⟩ := trySubmit_eq_some h
  · refine ⟨hf, ?_⟩
    rw [acceptActs, hr]
    exact (Step.buffer line hf hr).one
  · refine ⟨hf, ?_⟩
    rw [acceptActs, hr]
    exact (Step.handOver line r rs hf hr).one

theorem trySubmit_eq_none {line : String} (h : b.trySubmit line = none) :
    b.channel.isFull = true := by
  unfold trySubmit at h
  split at h
  · exact Channel.tryWrite_eq_none.mp ‹_›
  · cases h

def submitActs (b : Bridge) (line : String) : List Act :=
  if b.channel.isFull then
    match b.channel.whenFull with
    | .block => [.host (.submit line)]
    | .drop => []
  else b.acceptActs line

theorem steps_submit (b : Bridge) (ticket : Nat) (line : String) :
    Steps b (b.submitActs line) (b.submit ticket line).1 := by
  unfold submit submitActs
  cases h : b.trySubmit line with
  | some b' =>
    obtain ⟨hf, hs⟩ := steps_trySubmit h
    simpa only [hf, Bool.false_eq_true, if_false] using hs
  | none =>
    have hf := trySubmit_eq_none h
    simp only [hf, if_true]
    cases b.channel.whenFull with
    | block => exact (Step.block ticket line hf).one
    | drop => exact Steps.note b _ _ _

theorem steps_clearInput (b : Bridge) (thread : Log.Thread) :
    Steps b (Act.discards b.channel.lines) (b.clearInput thread) := by
  obtain ⟨journal, admitted, h⟩ := clearInput_eq b thread
  rw [h]
  exact Step.clear.one.before (Steps.note _ journal admitted b.waits)

def tryReadActs (b : Bridge) : List Act := (b.channel.lines.take 1).map fun line => .host (.take line)

theorem steps_tryRead (b : Bridge) : Steps b b.tryReadActs b.tryRead.1 := by
  unfold tryRead tryReadActs
  split
  · rename_i h
    rw [Channel.take?_eq_none.mp h]
    exact .refl b
  · rename_i line channel served h
    obtain ⟨rest, hl, -⟩ := Channel.take?_cases h
    rw [hl]
    exact (Step.take line channel served h).one.before (Steps.note _ _ _ _)

/-! Cancelling and resuming -/

theorem cancelSession_cases (b : Bridge) (id : Nat) :
    b.cancelSession id = b ∨
    ∃ journal, b.cancelSession id =
      { b with journal, channel := b.channel.abandon id }.mapSession id cancelled := by
  unfold cancelSession
  cases b.find? id with
  | none => exact .inl rfl
  | some s =>
    refine .inr ?_
    simp only
    split <;> split <;> exact ⟨_, rfl⟩

theorem steps_cancelSession (b : Bridge) (id : Nat) : Steps b [] (b.cancelSession id) := by
  obtain h | ⟨journal, h⟩ := cancelSession_cases b id <;> rw [h]
  · exact .refl b
  · exact (Steps.note b journal b.admitted b.waits).after (Step.cancel id).one

/-- Sessions that are called off one after the other, with a word about each. -/
theorem steps_cancelAll (running : List Session) (word : Session → String) (b : Bridge) :
    Steps b [] (running.foldl
      (fun b s => (b.note .host .info .control (word s)).cancelSession s.id) b) := by
  induction running generalizing b with
  | nil => exact .refl b
  | cons s running ih =>
    have hn := Steps.note b (b.note .host .info .control (word s)).journal b.admitted b.waits
    exact (hn.after (steps_cancelSession _ s.id)).after (ih _)

def resumeActs (b : Bridge) : List Act :=
  (b.active.filter Session.isPaused).map fun s => .host (.publish ⟨s.id, .resumed⟩)

theorem steps_resumeAll (paused : List Session) (b : Bridge) :
    Steps b (paused.map fun s => .host (.publish ⟨s.id, .resumed⟩))
      (paused.foldl (fun b s => (b.resumeSession s.id).publish s.id .resumed) b) := by
  induction paused generalizing b with
  | nil => exact .refl b
  | cons s paused ih =>
    exact (Step.resume s.id).one.after (.more (.publish s.id .resumed (.inr rfl)) (ih _))

/-! Starting -/

def makeWayActs (b : Bridge) : List Act :=
  match b.config.run.overlap with
  | .queue => []
  | .interleave | .supersede => Act.discards b.channel.lines

/-- Whether a worker can be had for the next run. -/
def canSpawn (b : Bridge) : Bool :=
  !b.config.run.threadName.toList.contains (Char.ofNat 0) && b.grants b.nextId

def startActs (b : Bridge) : List Act :=
  b.makeWayActs ++ if b.canSpawn then [.host (.publish ⟨b.nextId, .spawned⟩)] else []

/-- Calling runs off touches neither the buffered lines nor anything but them and the channel. -/
theorem cancelAll_eq (running : List Session) (word : Session → String) (b : Bridge) :
    ∃ channel sessions journal, running.foldl
        (fun b s => (b.note .host .info .control (word s)).cancelSession s.id) b =
        { b with channel, sessions, journal } ∧
      channel.lines = b.channel.lines := by
  induction running generalizing b with
  | nil => exact ⟨b.channel, b.sessions, b.journal, rfl, rfl⟩
  | cons s running ih =>
    rw [List.foldl_cons]
    obtain ⟨channel, sessions, journal, hr, hl⟩ :=
      ih ((b.note .host .info .control (word s)).cancelSession s.id)
    rw [hr]
    obtain h | ⟨journal', h⟩ :=
      cancelSession_cases (b.note .host .info .control (word s)) s.id <;> rw [h] at hl ⊢
    · exact ⟨channel, sessions, journal, rfl, hl⟩
    · exact ⟨channel, sessions, journal, rfl, hl⟩

theorem steps_makeWay (b : Bridge) (id : Nat) : Steps b b.makeWayActs (b.makeWay id) := by
  unfold makeWay makeWayActs
  cases b.config.run.overlap with
  | queue => exact .refl b
  | interleave =>
    simp only
    split
    · exact steps_clearInput b .host
    · exact (Steps.note b _ b.admitted b.waits).after (steps_clearInput (b.note _ _ _ _) .host)
  | supersede =>
    obtain ⟨channel, sessions, journal, h, hl⟩ := cancelAll_eq b.active
      (fun s => "session " ++ Decimal.natText id ++ " supersedes session " ++ Decimal.natText s.id) b
    have hs := (steps_cancelAll b.active (fun s =>
      "session " ++ Decimal.natText id ++ " supersedes session " ++ Decimal.natText s.id) b).after
      (steps_clearInput _ .host)
    rw [h] at hs
    simpa only [hl, h] using hs

theorem find?_nextId (b : Bridge) (n id : Nat) : { b with nextId := n }.find? id = b.find? id := rfl

theorem cancelSession_nextId (b : Bridge) (n id : Nat) :
    { b with nextId := n }.cancelSession id = { b.cancelSession id with nextId := n } := by
  unfold cancelSession
  rw [find?_nextId]
  cases b.find? id with
  | none => rfl
  | some s =>
    simp only
    split <;> split <;> rfl

theorem cancelAll_nextId (running : List Session) (word : Session → String) (b : Bridge) (n : Nat) :
    running.foldl (fun b s => (b.note .host .info .control (word s)).cancelSession s.id)
      { b with nextId := n } =
    { running.foldl (fun b s => (b.note .host .info .control (word s)).cancelSession s.id) b with
      nextId := n } := by
  induction running generalizing b with
  | nil => rfl
  | cons s running ih =>
    rw [List.foldl_cons, List.foldl_cons, ← ih]
    congr 1
    exact cancelSession_nextId (b.note .host .info .control (word s)) n s.id

theorem clearInput_nextId (b : Bridge) (n : Nat) (thread : Log.Thread) :
    { b with nextId := n }.clearInput thread = { b.clearInput thread with nextId := n } := by
  unfold clearInput
  simp only
  split <;> rfl

theorem makeWay_nextId (b : Bridge) (n id : Nat) :
    { b with nextId := n }.makeWay id = { b.makeWay id with nextId := n } := by
  have ha : { b with nextId := n }.active = b.active := rfl
  unfold makeWay
  rw [ha]
  cases b.config.run.overlap with
  | queue => rfl
  | interleave =>
    simp only
    rw [← clearInput_nextId]
    split <;> rfl
  | supersede =>
    simp only
    rw [← clearInput_nextId]
    congr 1
    exact cancelAll_nextId b.active (fun s =>
      "session " ++ Decimal.natText id ++ " supersedes session " ++ Decimal.natText s.id) b n

theorem makeWay_eq (b : Bridge) (id : Nat) :
    ∃ channel sessions journal admitted,
      b.makeWay id = { b with channel, sessions, journal, admitted } := by
  unfold makeWay
  cases b.config.run.overlap with
  | queue => exact ⟨b.channel, b.sessions, b.journal, b.admitted, rfl⟩
  | interleave =>
    simp only
    split
    · obtain ⟨journal, admitted, h⟩ := clearInput_eq b .host
      exact ⟨_, _, _, _, h⟩
    · obtain ⟨journal, admitted, h⟩ := clearInput_eq (b.note _ _ _ _) .host
      exact ⟨_, _, _, _, h⟩
  | supersede =>
    simp only
    obtain ⟨channel, sessions, journal, h, -⟩ := cancelAll_eq b.active
      (fun s => "session " ++ Decimal.natText id ++ " supersedes session " ++ Decimal.natText s.id) b
    obtain ⟨journal', admitted, h'⟩ := clearInput_eq { b with channel, sessions, journal } .host
    rw [h, h']
    exact ⟨_, _, _, _, rfl⟩

theorem makeWay_of_queue (hq : b.config.run.overlap = .queue) (id : Nat) : b.makeWay id = b := by
  unfold makeWay
  rw [hq]

theorem firstPhase_of_queue (hq : b.config.run.overlap = .queue) (source : String) :
    b.firstPhase source =
      if b.active = [] then .ready (b.drive source)
      else .queued (b.active.map Session.id) (b.drive source) := by
  unfold firstPhase
  rw [hq]
  cases b.active with
  | nil => rfl
  | cons s active => rfl

/-- Only where runs queue does the first phase depend on the runs in flight, and there no way is
made. -/
theorem firstPhase_makeWay (b : Bridge) (id : Nat) (source : String) :
    (b.makeWay id).firstPhase source = b.firstPhase source := by
  cases ho : b.config.run.overlap with
  | queue => rw [makeWay_of_queue ho]
  | interleave | supersede =>
    obtain ⟨channel, sessions, journal, admitted, h⟩ := makeWay_eq b id
    rw [h]
    simp only [firstPhase, ho]

theorem spawn_eq (b : Bridge) (id : Nat) (phase : Phase) :
    ∃ journal, b.spawn id phase =
      { Bridge.publish { b with sessions := b.sessions ++ [{ id := id, phase := phase }] } id
          .spawned with journal } := by
  unfold spawn
  simp only
  split <;> exact ⟨_, rfl⟩

def newRuns (b : Bridge) (source : String) : List Session :=
  if b.canSpawn then [{ id := b.nextId, phase := b.firstPhase source }] else []

/-- What a start leaves behind: the way is made, an id used up and, if a worker can be had, the new run
is there and made known. -/
theorem start_eq (b : Bridge) (source : String) :
    ∃ journal, (b.start source).1 =
      { b.makeWay b.nextId with
        nextId := b.nextId + 1
        sessions := (b.makeWay b.nextId).sessions ++ b.newRuns source
        hub := if b.canSpawn then b.hub.publish ⟨b.nextId, .spawned⟩ else b.hub
        journal } := by
  obtain ⟨channel, sessions, journal, admitted, h⟩ := makeWay_eq b b.nextId
  unfold start newRuns canSpawn
  simp only [makeWay_nextId]
  rw [h]
  simp only
  by_cases ht : b.config.run.threadName.toList.contains (Char.ofNat 0) = true
  · simp only [ht, if_true, Bool.not_true, Bool.false_and, Bool.false_eq_true, if_false,
      List.append_nil]
    exact ⟨_, rfl⟩
  · by_cases hg : b.grants b.nextId = true
    · obtain ⟨journal', hs⟩ := spawn_eq
        { b with channel, sessions, journal, admitted, nextId := b.nextId + 1 } b.nextId
        (b.firstPhase source)
      simp only [ht, hg, Bool.not_false, Bool.and_self, if_true, Bool.false_eq_true, if_false, hs]
      exact ⟨_, rfl⟩
    · simp only [ht, hg, Bool.and_false, Bool.false_eq_true, if_false, List.append_nil]
      exact ⟨_, rfl⟩

theorem steps_start (b : Bridge) (source : String) : Steps b b.startActs (b.start source).1 := by
  obtain ⟨journal, hs⟩ := start_eq b source
  obtain ⟨channel, sessions, journal', admitted, h⟩ := makeWay_eq b b.nextId
  have hw := steps_makeWay b b.nextId
  have hp := firstPhase_makeWay b b.nextId source
  unfold startActs
  rw [hs]
  unfold newRuns
  rw [h] at hw hp ⊢
  cases b.canSpawn with
  | true =>
    refine hw.trans ((Step.spawn source).one.after ?_)
    rw [hp]
    exact (Step.publish b.nextId .spawned (.inl rfl)).one.before (Steps.note _ journal _ _)
  | false =>
    simp only [Bool.false_eq_true, if_false, List.append_nil]
    exact hw.before (Step.useId.one.before (Steps.note _ journal _ _))

theorem apply_start (b : Bridge) (ticket : Nat) (source : String) (told : Bool) :
    ∃ journal, (b.apply ticket (.start source told)).1 = { (b.start source).1 with journal } := by
  cases told with
  | true => exact ⟨_, rfl⟩
  | false =>
    simp only [apply, startUntold]
    split <;> rename_i hs <;> rw [hs] <;> exact ⟨_, rfl⟩

theorem apply_start_eq (b : Bridge) (ticket : Nat) (source : String) (told : Bool) :
    ∃ journal, (b.apply ticket (.start source told)).1 =
      { b.makeWay b.nextId with
        nextId := b.nextId + 1
        sessions := (b.makeWay b.nextId).sessions ++ b.newRuns source
        hub := if b.canSpawn then b.hub.publish ⟨b.nextId, .spawned⟩ else b.hub
        journal } := by
  obtain ⟨journal, hs⟩ := start_eq b source
  obtain ⟨journal', ha⟩ := apply_start b ticket source told
  rw [ha, hs]
  exact ⟨_, rfl⟩

/-! Calls -/

theorem steps_await (b : Bridge) (ticket : Nat) (w : Wait) : Steps b [] (b.await ticket w).1 := by
  unfold await
  split
  · exact .refl b
  · exact Steps.note b _ _ _

def applyActs (b : Bridge) : Call → List Act
  | .start _ _ => b.startActs
  | .submit line => b.submitActs line
  | .trySubmit line => if b.channel.isFull then [] else b.acceptActs line
  | .resume => b.resumeActs
  | .clear => Act.discards b.channel.lines
  | .tryRead => b.tryReadActs
  | .print e => [.host (.print e)]
  | .stop | .waitIdle | .join _ | .cancel _ | .resumeSession _ | .subscribe | .leave _
  | .receive _ => []

theorem steps_apply (b : Bridge) (ticket : Nat) (call : Call) :
    Steps b (b.applyActs call) (b.apply ticket call).1 := by
  cases call with
  | start source told =>
    obtain ⟨journal, h⟩ := apply_start b ticket source told
    rw [h]
    exact (steps_start b source).before (Steps.note _ journal _ _)
  | submit line => exact steps_submit b ticket line
  | trySubmit line =>
    simp only [apply, applyActs]
    cases h : b.trySubmit line with
    | some b' =>
      obtain ⟨hf, hs⟩ := steps_trySubmit h
      simpa only [hf, Bool.false_eq_true, if_false] using hs
    | none =>
      simp only [trySubmit_eq_none h, if_true]
      exact .refl b
  | resume =>
    simp only [apply, applyActs, resume, resumeActs]
    cases b.active.filter Session.isPaused with
    | nil => exact .refl b
    | cons s paused => exact steps_resumeAll (s :: paused) b
  | stop =>
    simp only [apply, applyActs, stop]
    cases b.active with
    | nil => exact .refl b
    | cons s running =>
      exact steps_cancelAll (s :: running) (fun s => "Stopping session " ++ Decimal.natText s.id) b
  | waitIdle => exact steps_await b ticket _
  | join id => exact steps_await b ticket _
  | cancel id => exact (Steps.note b _ b.admitted b.waits).after (steps_cancelSession _ id)
  | resumeSession id => exact (Step.resume id).one
  | clear => exact steps_clearInput b .host
  | tryRead => exact steps_tryRead b
  | print e =>
    have h : (Output.forward .host b.sink e).1 = (b.sink.emit e).1 := by
      unfold Output.forward
      split <;> simp only [*]
    simp only [apply, applyActs, h]
    exact (Step.print e).one.before (Steps.note _ _ _ _)
  | subscribe => exact Step.subscribe.one
  | leave id => exact (Step.leave id).one
  | receive id => exact (Step.receive id).one

def settledActs (b : Bridge) (ticket : Nat) (call : Call) : List Act :=
  { (b.apply ticket call).1 with sessions := [] }.settleActs (b.apply ticket call).1.sessions

theorem steps_settled (b : Bridge) (ticket : Nat) (call : Call) :
    Steps (b.apply ticket call).1 (b.settledActs ticket call) (b.perform ticket call).1 := by
  refine Steps.before ?_ (Steps.note _ _ _ _)
  exact steps_settle { (b.apply ticket call).1 with sessions := [] } (b.apply ticket call).1.sessions

def performActs (b : Bridge) (ticket : Nat) (call : Call) : List Act :=
  b.applyActs call ++ b.settledActs ticket call

theorem steps_perform (b : Bridge) (ticket : Nat) (call : Call) :
    Steps b (b.performActs ticket call) (b.perform ticket call).1 :=
  (steps_apply b ticket call).trans (steps_settled b ticket call)

/-! Histories -/

def after (b : Bridge) : List (Nat × Call) → Bridge
  | [] => b
  | (ticket, call) :: calls => (b.perform ticket call).1.after calls

theorem after_append (b : Bridge) (calls more : List (Nat × Call)) :
    b.after (calls ++ more) = (b.after calls).after more := by
  induction calls generalizing b with
  | nil => rfl
  | cons c calls ih => exact ih _

def history (b : Bridge) : List (Nat × Call) → List Act
  | [] => []
  | (ticket, call) :: calls => b.performActs ticket call ++ (b.perform ticket call).1.history calls

theorem steps_history (b : Bridge) (calls : List (Nat × Call)) :
    Steps b (b.history calls) (b.after calls) := by
  induction calls generalizing b with
  | nil => exact .refl b
  | cons c calls ih => exact (steps_perform b c.1 c.2).trans (ih _)

end Conduit.Bridge

import Conduit.Proofs.Bridge.Advance

/-!
What a bridge does, one step at a time: one of its runs goes on, or its host changes one thing. Whatever
each step keeps is kept along any number of them.
-/
namespace Conduit

inductive HostDeed where
  | print (event : OutputEvent)
  | publish (envelope : Envelope)
  /-- A line is handed in, to wait for a place if need be. -/
  | submit (line : String)
  | take (line : String)
  | discard (line : String)
deriving DecidableEq, Repr

inductive Act where
  | run (session : Nat) (deed : Deed)
  | host (deed : HostDeed)
deriving DecidableEq, Repr

inductive Taker where
  | run (session : Nat)
  | host
  | nobody
deriving DecidableEq, Repr

namespace Act

def printed? : Act → Option OutputEvent
  | run _ (.print e) | host (.print e) => some e
  | _ => none

def published? : Act → Option Envelope
  | run id (.publish e) => some ⟨id, e⟩
  | host (.publish e) => some e
  | _ => none

def submitted? : Act → Option String
  | host (.submit line) => some line
  | _ => none

def removed? : Act → Option (Taker × String)
  | run id (.receive line) => some (.run id, line)
  | run _ (.discard line) | host (.discard line) => some (.nobody, line)
  | host (.take line) => some (.host, line)
  | _ => none

def deed? : Act → Option (Nat × Deed)
  | run id d => some (id, d)
  | host _ => none

def printed (acts : List Act) : List OutputEvent := acts.filterMap printed?
def published (acts : List Act) : List Envelope := acts.filterMap published?
def submitted (acts : List Act) : List String := acts.filterMap submitted?
def removed (acts : List Act) : List (Taker × String) := acts.filterMap removed?
def deeds (acts : List Act) : List (Nat × Deed) := acts.filterMap deed?
def deedsOf (id : Nat) (acts : List Act) : List Deed :=
  ((deeds acts).filter fun p => p.1 = id).map Prod.snd

variable (acts more : List Act)

@[simp] theorem printed_append : printed (acts ++ more) = printed acts ++ printed more :=
  List.filterMap_append
@[simp] theorem published_append : published (acts ++ more) = published acts ++ published more :=
  List.filterMap_append
@[simp] theorem submitted_append : submitted (acts ++ more) = submitted acts ++ submitted more :=
  List.filterMap_append
@[simp] theorem removed_append : removed (acts ++ more) = removed acts ++ removed more :=
  List.filterMap_append
@[simp] theorem deeds_append : deeds (acts ++ more) = deeds acts ++ deeds more :=
  List.filterMap_append

variable (id : Nat) (ds : List Deed)

@[simp] theorem printed_run : printed (ds.map (run id)) = Deed.prints ds := by
  rw [printed, Deed.prints, List.filterMap_map]
  exact List.filterMap_congr fun d _ => by cases d <;> rfl
@[simp] theorem published_run :
    published (ds.map (run id)) = (Deed.publications ds).map (Envelope.mk id) := by
  rw [published, Deed.publications, List.filterMap_map, List.map_filterMap]
  exact List.filterMap_congr fun d _ => by cases d <;> rfl
@[simp] theorem submitted_run : submitted (ds.map (run id)) = [] := by
  simp [submitted, submitted?]
@[simp] theorem removed_run :
    (removed (ds.map (run id))).map Prod.snd = Deed.removals ds := by
  rw [removed, Deed.removals, List.filterMap_map, List.map_filterMap]
  exact List.filterMap_congr fun d _ => by cases d <;> rfl
@[simp] theorem deeds_run : deeds (ds.map (run id)) = ds.map fun d => (id, d) := by
  simp [deeds, List.filterMap_map, Function.comp_def, deed?]

def discards (lines : List String) : List Act := lines.map fun line => host (.discard line)

variable (lines : List String)

@[simp] theorem printed_discards : printed (discards lines) = [] := by
  simp [printed, discards, printed?]
@[simp] theorem published_discards : published (discards lines) = [] := by
  simp [published, discards, published?]
@[simp] theorem submitted_discards : submitted (discards lines) = [] := by
  simp [submitted, discards, submitted?]
@[simp] theorem removed_discards :
    removed (discards lines) = lines.map fun line => (.nobody, line) := by
  simp [removed, discards, removed?, List.filterMap_map, Function.comp_def]
@[simp] theorem deeds_discards : deeds (discards lines) = [] := by
  simp [deeds, discards, deed?]

end Act

namespace Bridge

def upTo (b : Bridge) (before : List Session) : Bridge := { b with sessions := before }

def advanceAmong (b : Bridge) (before : List Session) (s : Session) (after : List Session) : Bridge :=
  let (b, s) := (b.upTo before).advance (fun _ => false) s
  { b with sessions := before ++ s :: after }

/-- One step of a bridge, with what can be noticed of it. -/
inductive Step (b : Bridge) : List Act → Bridge → Prop
  | advance (before : List Session) (s : Session) (after : List Session)
      (hs : b.sessions = before ++ s :: after) :
      Step b (((b.upTo before).advanceDeeds s).map (.run s.id)) (b.advanceAmong before s after)
  | handOver (line : String) (r : Channel.Reader) (rs : List Channel.Reader)
      (hf : b.channel.isFull = false) (hr : b.channel.readers = r :: rs) :
      Step b [.host (.submit line), .run r.ticket (.receive line)]
        ({ b with channel := { b.channel with readers := rs } }.mapSession r.ticket
          (Session.receive line))
  | buffer (line : String) (hf : b.channel.isFull = false) (hr : b.channel.readers = []) :
      Step b [.host (.submit line)]
        { b with channel := { b.channel with lines := b.channel.lines ++ [line] } }
  | block (ticket : Nat) (line : String) (hf : b.channel.isFull = true) :
      Step b [.host (.submit line)]
        { b with channel := b.channel.enqueueWriter ⟨ticket, none, line⟩ }
  | take (line : String) (channel : Channel) (served : List Channel.Served)
      (ht : b.channel.take? = some (line, channel, served)) :
      Step b [.host (.take line)] { b with channel }
  | clear : Step b (Act.discards b.channel.lines) { b with channel := b.channel.clear.1 }
  | print (e : OutputEvent) : Step b [.host (.print e)] { b with sink := (b.sink.emit e).1 }
  | publish (id : Nat) (e : SessionEvent) (he : e = .spawned ∨ e = .resumed) :
      Step b [.host (.publish ⟨id, e⟩)] (b.publish id e)
  | resume (id : Nat) : Step b [] (b.resumeSession id)
  | cancel (id : Nat) :
      Step b [] ({ b with channel := b.channel.abandon id }.mapSession id cancelled)
  | useId : Step b [] { b with nextId := b.nextId + 1 }
  | spawn (source : String) :
      Step b [] { b with
        nextId := b.nextId + 1
        sessions := b.sessions ++ [{ id := b.nextId, phase := b.firstPhase source }] }
  | subscribe : Step b [] { b with hub := b.hub.subscribe.1 }
  | leave (id : Nat) : Step b [] { b with hub := b.hub.leave id }
  | receive (id : Nat) : Step b [] { b with hub := (b.hub.receive id).1 }
  | note (journal : List Log.Entry) (admitted : List Nat) (waits : List (Nat × Wait)) :
      Step b [] { b with journal, admitted, waits }

inductive Steps : Bridge → List Act → Bridge → Prop
  | refl (b : Bridge) : Steps b [] b
  | more {b b' b'' : Bridge} {acts acts' : List Act} (h : Step b acts b')
      (t : Steps b' acts' b'') : Steps b (acts ++ acts') b''

variable {b b' b'' : Bridge} {acts acts' : List Act}

theorem Step.one (h : Step b acts b') : Steps b acts b' := by
  simpa using Steps.more h (.refl b')

theorem Steps.trans (h : Steps b acts b') (h' : Steps b' acts' b'') :
    Steps b (acts ++ acts') b'' := by
  induction h with
  | refl b => exact h'
  | more h t ih =>
    rw [List.append_assoc]
    exact .more h (ih h')

theorem Steps.after (h : Steps b [] b') (h' : Steps b' acts b'') : Steps b acts b'' :=
  h.trans h'

theorem Steps.before (h : Steps b acts b') (h' : Steps b' [] b'') : Steps b acts b'' := by
  simpa using h.trans h'

/-- What every step keeps, given all that was done before it, is kept along all of them. -/
theorem Steps.keep {P : List Act → Bridge → Prop}
    (step : ∀ {past b acts b'}, P past b → Step b acts b' → P (past ++ acts) b')
    (h : Steps b acts b') (past : List Act) (hb : P past b) : P (past ++ acts) b' := by
  induction h generalizing past with
  | refl b => simpa using hb
  | more h t ih =>
    rw [← List.append_assoc]
    exact ih _ (step hb h)

theorem Steps.note (b : Bridge) (journal : List Log.Entry) (admitted : List Nat)
    (waits : List (Nat × Wait)) : Steps b [] { b with journal, admitted, waits } :=
  (Step.note journal admitted waits).one

/-! Runs that go on -/

theorem Moves.of_upTo {before : List Session} {s s' : Session} {ds : List Deed}
    (h : Moves (b.upTo before) s ds b' s') : Moves b s ds { b' with sessions := b.sessions } s' where
  frame := congrArg (fun c => { c with sessions := b.sessions }) h.frame
  id := h.id
  cancelled := h.cancelled
  aborted := h.aborted
  resumed := h.resumed
  sink := h.sink
  hub := h.hub
  tally := h.tally
  pending := h.pending
  limit := h.limit
  whenFull := h.whenFull
  writers := h.writers
  sound := h.sound
  readers := h.readers
  begun := h.begun
  ended := h.ended

theorem advanceAmong_cases {before after : List Session} {s : Session}
    (hs : b.sessions = before ++ s :: after) :
    (b.advanceAmong before s after = b ∧ (b.upTo before).advanceDeeds s = []) ∨
    ∃ b' s', b.advanceAmong before s after = { b' with sessions := before ++ s' :: after } ∧
      Moves b s ((b.upTo before).advanceDeeds s) b' s' ∧
      s.isFinished = false ∧ s.isReading = false ∧
      ∀ behind, s.behind? = some behind → behind.all (b.upTo before).hasFinished = true := by
  obtain ⟨h, hn⟩ | ⟨h, hf, hr, hq⟩ := advance_cases (b.upTo before) s
  · refine .inl ⟨?_, hn⟩
    rw [advanceAmong, h]
    simp only [upTo, ← hs]
  · refine .inr ⟨_, _, ?_, h.of_upTo, hf, hr, hq⟩
    rfl

def settleActs (b : Bridge) : List Session → List Act
  | [] => []
  | s :: rest =>
    (b.advanceDeeds s).map (.run s.id) ++ (b.advanceAndKeep (fun _ => false) s).settleActs rest

theorem sessions_advance (b : Bridge) (s : Session) :
    (b.advance (fun _ => false) s).1.sessions = b.sessions := by
  obtain ⟨h, -⟩ | ⟨h, -⟩ := advance_cases b s
  · rw [h]
  · rw [h.frame]

theorem steps_settle (b : Bridge) (rest : List Session) :
    Steps { b with sessions := b.sessions ++ rest } (b.settleActs rest)
      (rest.foldl (advanceAndKeep fun _ => false) b) := by
  induction rest generalizing b with
  | nil =>
    rw [List.append_nil]
    exact .refl b
  | cons s rest ih =>
    have h := ih (b.advanceAndKeep (fun _ => false) s)
    have hk : (b.advanceAndKeep (fun _ => false) s).sessions ++ rest =
        b.sessions ++ (b.advance (fun _ => false) s).2 :: rest := by
      simp only [advanceAndKeep, sessions_advance, List.append_assoc, List.singleton_append]
    rw [hk] at h
    exact .more (.advance b.sessions s rest rfl) h

end Bridge

end Conduit

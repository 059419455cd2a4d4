import Conduit.Bridge.Session
import Conduit.Proofs.Engine.Serve

/-!
What a run does that others can notice: it prints, publishes events, receives input lines and passes
its gate. The deeds of a run account for every change it makes to what it shares.
-/
namespace Conduit

def Sink.feed (s : Sink) (es : List OutputEvent) : Sink := es.foldl (fun s e => (s.emit e).1) s

@[simp] theorem Sink.feed_nil (s : Sink) : s.feed [] = s := rfl

theorem Sink.feed_append (s : Sink) (es fs : List OutputEvent) :
    s.feed (es ++ fs) = (s.feed es).feed fs :=
  List.foldl_append

def Hub.publishAll (h : Hub) (es : List Envelope) : Hub := es.foldl Hub.publish h

@[simp] theorem Hub.publishAll_nil (h : Hub) : h.publishAll [] = h := rfl

theorem Hub.publishAll_append (h : Hub) (es fs : List Envelope) :
    h.publishAll (es ++ fs) = (h.publishAll es).publishAll fs :=
  List.foldl_append

inductive Deed where
  | print (event : OutputEvent)
  | publish (event : SessionEvent)
  | receive (line : String)
  | pass (outcome : GateOutcome)
  /-- A line that was typed for an earlier run and is thrown away. -/
  | discard (line : String)
deriving DecidableEq, Repr

namespace Deed

def printed? : Deed → Option OutputEvent
  | print e => some e
  | _ => none

def published? : Deed → Option SessionEvent
  | publish e => some e
  | _ => none

def received? : Deed → Option String
  | receive line => some line
  | _ => none

def removed? : Deed → Option String
  | receive line | discard line => some line
  | _ => none

def resumed? : Deed → Option Unit
  | pass .resumed => some ()
  | _ => none

def prints (ds : List Deed) : List OutputEvent := ds.filterMap printed?
def publications (ds : List Deed) : List SessionEvent := ds.filterMap published?
def receipts (ds : List Deed) : List String := ds.filterMap received?
def removals (ds : List Deed) : List String := ds.filterMap removed?
def resumes (ds : List Deed) : Nat := (ds.filterMap resumed?).length

variable (ds es : List Deed)

@[simp] theorem prints_append : prints (ds ++ es) = prints ds ++ prints es :=
  List.filterMap_append
@[simp] theorem publications_append :
    publications (ds ++ es) = publications ds ++ publications es :=
  List.filterMap_append
@[simp] theorem receipts_append : receipts (ds ++ es) = receipts ds ++ receipts es :=
  List.filterMap_append
@[simp] theorem removals_append : removals (ds ++ es) = removals ds ++ removals es :=
  List.filterMap_append
@[simp] theorem resumes_append : resumes (ds ++ es) = resumes ds + resumes es := by
  simp [resumes]

@[simp] theorem prints_publish (es : List SessionEvent) : prints (es.map publish) = [] := by
  simp [prints, printed?]
@[simp] theorem publications_publish (es : List SessionEvent) :
    publications (es.map publish) = es := by
  simp [publications, List.filterMap_map, Function.comp_def, published?]
@[simp] theorem receipts_publish (es : List SessionEvent) : receipts (es.map publish) = [] := by
  simp [receipts, received?]
@[simp] theorem removals_publish (es : List SessionEvent) : removals (es.map publish) = [] := by
  simp [removals, removed?]
@[simp] theorem resumes_publish (es : List SessionEvent) : resumes (es.map publish) = 0 := by
  simp [resumes, resumed?]

variable (lines : List String)

@[simp] theorem prints_discard : prints (lines.map discard) = [] := by
  simp [prints, printed?]
@[simp] theorem publications_discard : publications (lines.map discard) = [] := by
  simp [publications, published?]
@[simp] theorem removals_discard : removals (lines.map discard) = lines := by
  simp [removals, List.filterMap_map, Function.comp_def, removed?]
@[simp] theorem resumes_discard : resumes (lines.map discard) = 0 := by
  simp [resumes, resumed?]

end Deed

def Signal.events (policy : PausePolicy) (t : Tally) : Signal → List SessionEvent
  | .analysisFinished success => [.analysisFinished success]
  | .executionStarted => [.executionStarted]
  | .executionPaused line wasPrint =>
    .executionPaused line wasPrint :: if policy = .autoResume then [.resumed] else []
  | .executionStopped => [.executionStopped]
  | .stackPushed scope => [.stackPushed scope.depth scope.name]
  | .stackPopped => [.stackPopped (t.depth - 1)]
  | .readExecuted line => [.readExecuted line]
  | .runtimeError => [.runtimeError]

namespace SessionEvent

def isPause : SessionEvent → Bool
  | .executionPaused _ _ => true
  | _ => false

def isRead : SessionEvent → Bool
  | .readExecuted _ => true
  | _ => false

def isEnd : SessionEvent → Bool
  | .finished _ => true
  | _ => false

end SessionEvent

def Tally.note (t : Tally) : SessionEvent → Tally
  | .executionPaused _ _ => { t with pauses := t.pauses + 1 }
  | .readExecuted _ => { t with reads := t.reads + 1 }
  | .runtimeError => { t with failed := true }
  | .stackPushed depth _ => { t with depth }
  | .stackPopped depth => { t with depth }
  | _ => t

def Request.deeds (policy : PausePolicy) (t : Tally) : (r : Request) → r.Reply → List Deed
  | .print _ e, _ => [.print e]
  | .tell s, _ => (s.events policy t).map .publish
  | .read _, some line => [.receive line]
  | .awaitGate, outcome => [.pass outcome]
  | _, _ => []

theorem Deed.removals_request (policy : PausePolicy) (t : Tally) (r : Request) (reply : r.Reply) :
    removals (r.deeds policy t reply) = receipts (r.deeds policy t reply) := by
  cases r with
  | tell s => rw [Request.deeds, removals_publish, receipts_publish]
  | read logged => cases reply <;> rfl
  | _ => rfl

def Signal.opensGate (policy : PausePolicy) : Signal → Bool
  | .executionPaused _ _ => policy = .autoResume
  | _ => false

namespace Stage

/-- A signal that is heard changes nothing but the gate, the audience and the log. -/
theorem hear_eq (id : Nat) (policy : PausePolicy) (s : Signal) (st : Stage Audience) :
    ∃ journal, hear id policy s st =
      { st with
        gate := if s.opensGate policy then st.gate.resume else st.gate
        audience :=
          ⟨st.audience.hub.publishAll ((s.events policy st.audience.tally).map (Envelope.mk id)),
            (s.events policy st.audience.tally).foldl Tally.note st.audience.tally⟩
        journal } := by
  cases s <;> try exact ⟨_, rfl⟩
  cases policy <;> exact ⟨_, rfl⟩

structure Follows (id : Nat) (st : Stage Audience) (ds : List Deed) (st' : Stage Audience) : Prop where
  sink : st'.sink = st.sink.feed (Deed.prints ds)
  hub : st'.audience.hub =
    st.audience.hub.publishAll ((Deed.publications ds).map (Envelope.mk id))
  tally : st'.audience.tally = (Deed.publications ds).foldl Tally.note st.audience.tally
  pending : st.channel.pending = Deed.removals ds ++ st'.channel.pending
  resumed : st'.gate.resumed = st.gate.resumed + .ofNat (Deed.resumes ds)
  cancelled : st'.cancelled = st.cancelled
  aborted : st'.gate.aborted = st.gate.aborted
  limit : st'.channel.limit = st.channel.limit
  whenFull : st'.channel.whenFull = st.channel.whenFull
  writers : st'.channel.writers ⊆ st.channel.writers
  sound : st.channel.Sound → st'.channel.Sound

namespace Follows

theorem of_channel {id : Nat} {st st' : Stage Audience} {ds : List Deed}
    (channel : st'.channel = st.channel) (removals : Deed.removals ds = [])
    (sink : st'.sink = st.sink.feed (Deed.prints ds))
    (hub : st'.audience.hub =
      st.audience.hub.publishAll ((Deed.publications ds).map (Envelope.mk id)))
    (tally : st'.audience.tally = (Deed.publications ds).foldl Tally.note st.audience.tally)
    (resumed : st'.gate.resumed = st.gate.resumed + .ofNat (Deed.resumes ds))
    (cancelled : st'.cancelled = st.cancelled) (aborted : st'.gate.aborted = st.gate.aborted) :
    Follows id st ds st' := by
  refine ⟨sink, hub, tally, ?_, resumed, cancelled, aborted, ?_, ?_, ?_, ?_⟩ <;> rw [channel]
  · rw [removals, List.nil_append]
  · exact fun _ hw => hw
  · exact fun hs => hs

theorem of_gate {id : Nat} {st st' : Stage Audience} {ds : List Deed}
    (channel : st'.channel = st.channel) (removals : Deed.removals ds = [])
    (resumes : Deed.resumes ds = 0) (sink : st'.sink = st.sink.feed (Deed.prints ds))
    (hub : st'.audience.hub =
      st.audience.hub.publishAll ((Deed.publications ds).map (Envelope.mk id)))
    (tally : st'.audience.tally = (Deed.publications ds).foldl Tally.note st.audience.tally)
    (resumed : st'.gate.resumed = st.gate.resumed) (cancelled : st'.cancelled = st.cancelled)
    (aborted : st'.gate.aborted = st.gate.aborted) : Follows id st ds st' :=
  of_channel channel removals sink hub tally (by rw [resumes, resumed]; exact (UInt32.add_zero _).symm)
    cancelled aborted

theorem refl (id : Nat) (st : Stage Audience) : Follows id st [] st :=
  of_gate rfl rfl rfl rfl rfl rfl rfl rfl rfl

theorem trans {id : Nat} {st st' st'' : Stage Audience} {ds es : List Deed}
    (h : Follows id st ds st') (h' : Follows id st' es st'') : Follows id st (ds ++ es) st'' where
  sink := by rw [h'.sink, h.sink, Deed.prints_append, Sink.feed_append]
  hub := by rw [h'.hub, h.hub, Deed.publications_append, List.map_append, Hub.publishAll_append]
  tally := by rw [h'.tally, h.tally, Deed.publications_append, List.foldl_append]
  pending := by rw [h.pending, h'.pending, Deed.removals_append, List.append_assoc]
  resumed := by
    rw [h'.resumed, h.resumed, Deed.resumes_append, UInt32.ofNat_add, UInt32.add_assoc]
  cancelled := h'.cancelled.trans h.cancelled
  aborted := h'.aborted.trans h.aborted
  limit := h'.limit.trans h.limit
  whenFull := h'.whenFull.trans h.whenFull
  writers := fun _ hw => h.writers (h'.writers hw)
  sound := fun hs => h'.sound (h.sound hs)

end Follows

structure Attends (w : Worker Audience) (id : Nat) (policy : PausePolicy) : Prop where
  ticket : w.ticket = id
  hear : w.hear = Stage.hear id policy

variable {w : Worker Audience} {id : Nat} {policy : PausePolicy} {st st' : Stage Audience}
  {r : Request}

theorem follows_reply (hw : Attends w id policy) {reply : r.Reply}
    (h : st.serve w r = (st', some reply)) :
    Follows id st (r.deeds policy st.audience.tally reply) st' := by
  cases r with
  | print stream e =>
    obtain ⟨rfl, -⟩ := Prod.mk.inj h
    refine .of_gate rfl rfl rfl ?_ rfl rfl rfl rfl rfl
    simp only [Stage.print, Output.print, Output.forward, Request.deeds, Deed.prints, Deed.printed?,
      List.filterMap_cons, List.filterMap_nil, Sink.feed, List.foldl_cons, List.foldl_nil]
    cases st.sink.emit e with
    | mk sink ok => cases ok <;> rfl
  | tell s =>
    obtain ⟨rfl, -⟩ := Prod.mk.inj h
    rw [hw.hear]
    obtain ⟨journal, hs⟩ := hear_eq id policy s st
    rw [hs]
    refine .of_gate rfl ?_ ?_ ?_ ?_ ?_ ?_ rfl ?_ <;> simp only [Request.deeds]
    · simp
    · simp
    · simp
    · simp
    · simp
    · split <;> rfl
    · split <;> rfl
  | read logged =>
    obtain ⟨-, rfl, journal, rfl⟩ | ⟨line, channel, served, -, hk, rfl, rfl⟩ := serve_read_cases h
    · exact .of_gate rfl rfl rfl rfl rfl rfl rfl rfl rfl
    · exact ⟨rfl, rfl, rfl, Channel.pending_take? hk, (UInt32.add_zero _).symm, rfl, rfl,
        Channel.limit_take? hk, Channel.whenFull_take? hk, Channel.writers_take? hk,
        fun hs => hs.take? hk⟩
  | awaitGate =>
    obtain ⟨rfl, hr⟩ := Prod.mk.inj h
    obtain ⟨-, hg⟩ | ⟨-, -, hg⟩ | ⟨-, -, hg⟩ := st.gate.wait_cases <;> rw [hg] at hr ⊢ <;> cases hr
    · exact .of_gate rfl rfl rfl rfl rfl rfl rfl rfl rfl
    · exact .of_channel rfl rfl rfl rfl rfl rfl rfl rfl
  | openGate | isCancelled | threadName | log level message =>
    obtain ⟨rfl, -⟩ := Prod.mk.inj h
    exact .of_gate rfl rfl rfl rfl rfl rfl rfl rfl rfl

theorem follows_stopped (h : st.serve w r = (st', none)) : Follows id st [] st' := by
  obtain ⟨logged, rfl, -, he, rfl⟩ | ⟨rfl, -, -, rfl⟩ := Behaviour.serve_eq_none h
  · exact ⟨rfl, rfl, rfl, rfl, (UInt32.add_zero _).symm, rfl, rfl, rfl, rfl, fun _ hw => hw,
      fun hs => hs.enqueueReader he _⟩
  · exact .of_gate rfl rfl rfl rfl rfl rfl rfl rfl rfl

end Stage

namespace Behaviour
variable {α : Type}

def deeds (w : Worker Audience) (policy : PausePolicy) (work : Behaviour α) (st : Stage Audience) :
    List Deed :=
  work.collect w (fun st r reply => r.deeds policy st.audience.tally reply) st

theorem follows_run {w : Worker Audience} {id : Nat} {policy : PausePolicy}
    (hw : Stage.Attends w id policy) (work : Behaviour α) (st : Stage Audience) :
    Stage.Follows id st (work.deeds w policy st) (work.run w never st).1 :=
  run_of_serve (Stage.Follows id) (Stage.Follows.refl id) (fun h h' => h.trans h')
    (fun h => Stage.follows_reply hw h) (fun h => Stage.follows_stopped h) work st

theorem channel_reply {w : Worker Audience} {id : Nat} {policy : PausePolicy}
    {st st' : Stage Audience} {r : Request} {reply : r.Reply} (hw : Stage.Attends w id policy)
    (hr : ∀ logged, r ≠ .read logged) (h : st.serve w r = (st', some reply)) :
    st'.channel = st.channel := by
  cases r with
  | tell s =>
    obtain ⟨rfl, -⟩ := Prod.mk.inj h
    obtain ⟨journal, hs⟩ := Stage.hear_eq id policy s st
    rw [hw.hear, hs]
  | read logged => exact absurd rfl (hr logged)
  | _ =>
    obtain ⟨rfl, -⟩ := Prod.mk.inj h
    rfl

theorem readers_reply {w : Worker Audience} {id : Nat} {policy : PausePolicy}
    {st st' : Stage Audience} {r : Request} {reply : r.Reply} (hw : Stage.Attends w id policy)
    (h : st.serve w r = (st', some reply)) : st'.channel.readers = st.channel.readers := by
  cases r with
  | read logged =>
    obtain ⟨-, -, journal, rfl⟩ | ⟨line, channel, served, -, hk, -, rfl⟩ := Stage.serve_read_cases h
    · rfl
    · exact Channel.readers_take? hk
  | _ => rw [channel_reply hw (by simp) h]

theorem readers_run {w : Worker Audience} {id : Nat} {policy : PausePolicy}
    (hw : Stage.Attends w id policy) (work : Behaviour α) (st : Stage Audience) :
    (work.run w never st).1.channel.readers =
      match (work.run w never st).2 with
      | .reading _ _ => st.channel.readers ++ [⟨id, some id⟩]
      | _ => st.channel.readers := by
  induction work generalizing st with
  | done a => rfl
  | panic m => rfl
  | ask r next ih =>
    cases hs : st.serve w r with
    | mk st' reply =>
      cases reply with
      | some reply =>
        rw [run_of_reply hs, ih reply st', readers_reply hw hs]
      | none =>
        rw [run_of_stopped hs]
        obtain ⟨logged, rfl, -, -, rfl⟩ | ⟨rfl, -, -, rfl⟩ := serve_eq_none hs
        · simp [stopped, Stage.queueReader, Channel.enqueueReader, hw.ticket]
        · rfl

end Behaviour

end Conduit

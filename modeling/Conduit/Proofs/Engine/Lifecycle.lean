import Conduit.Proofs.Engine.Station

/-!
The life of a run in words. At each station it is known which events a run has published, how many lines
it has taken and how many checkpoints it has passed; every move from one station to the next keeps to
that.
-/
namespace Conduit

namespace Deed

def waited? : Deed → Option GateOutcome
  | pass outcome => some outcome
  | _ => none

def waits (ds : List Deed) : List GateOutcome := ds.filterMap waited?

variable (ds es : List Deed)

@[simp] theorem waits_append : waits (ds ++ es) = waits ds ++ waits es := List.filterMap_append

@[simp] theorem waits_publish (es : List SessionEvent) : waits (es.map publish) = [] := by
  simp [waits, waited?]

def owed (ds : List Deed) : Nat := if (waits ds).getLast? = some .aborted then 1 else 0

end Deed

def opening : List SessionEvent :=
  [.analysisFinished true, .executionStarted, .stackPushed 1 "global"]

/-- What befalls a run while its program runs: reads and checkpoints, which end at once where pauses are
resumed by themselves. -/
inductive Beats (policy : PausePolicy) : List SessionEvent → Prop
  | nil : Beats policy []
  | read {es : List SessionEvent} (h : Beats policy es) (line : Nat) :
      Beats policy (es ++ [.readExecuted line])
  | pause {es : List SessionEvent} (h : Beats policy es) (line : Option Nat) (wasPrint : Bool) :
      Beats policy (es ++
        .executionPaused line wasPrint :: if policy = .autoResume then [.resumed] else [])

def Body (policy : PausePolicy) (failed : Bool) (es : List SessionEvent) : Prop :=
  ∃ beats, Beats policy beats ∧ es = beats ++ if failed then [.runtimeError] else []

/-- The lives of runs. The outcome is a runtime error exactly where one was published, and the closing
events are missing exactly where the engine broke off. -/
inductive Life (policy : PausePolicy) : List SessionEvent → Prop
  | dropped : Life policy [.spawned, .finished .cancelled]
  | rejected : Life policy [.spawned, .analysisFinished false, .finished .analysisFailed]
  | executed {failed : Bool} {body : List SessionEvent} {outcome : RunOutcome}
      (hb : Body policy failed body)
      (ho : outcome = .runtimeError ∧ failed = true ∨
        (outcome = .completed ∨ outcome = .cancelled) ∧ failed = false) :
      Life policy (.spawned :: opening ++ body ++
        [.stackPopped 0, .executionStopped, .finished outcome])
  | broken {body : List SessionEvent} (hb : Body policy false body) :
      Life policy (.spawned :: opening ++ body ++ [.finished .panicked])

namespace Station

def Told (policy : PausePolicy) : Station → List SessionEvent → Prop
  | .fresh, es | .dropped, es | .analysing, es => es = []
  | .rejected, es => es = [.analysisFinished false]
  | .accepted, es | .entering, es => es = [.analysisFinished true]
  | .opening, es => es = [.analysisFinished true, .executionStarted]
  | .running, es | .checkpoint, es | .supplied, es | .counting, es | .calledOff, es =>
    ∃ body, Body policy false body ∧ es = Conduit.opening ++ body
  | .failed, es => ∃ body, Body policy true body ∧ es = Conduit.opening ++ body
  | .leaving off, es =>
    ∃ failed body, Body policy failed body ∧ (off = true → failed = false) ∧
      es = Conduit.opening ++ body ++ [.stackPopped 0]
  | .left off, es | .gone off, es =>
    ∃ failed body, Body policy failed body ∧ (off = true → failed = false) ∧
      es = Conduit.opening ++ body ++ [.stackPopped 0, .executionStopped]

def isOpen : Station → Bool
  | .running | .checkpoint | .supplied | .counting | .failed | .calledOff => true
  | _ => false

def uncounted : Station → Nat
  | .supplied | .counting => 1
  | _ => 0

def unpassed : Station → Nat
  | .checkpoint => 1
  | _ => 0

def isOff : Station → Bool
  | .dropped | .calledOff => true
  | .leaving off | .left off | .gone off => off
  | _ => false

structure Accounts (policy : PausePolicy) (q : Station) (ds : List Deed) : Prop where
  told : q.Told policy (Deed.publications ds)
  depth : q.isOpen = true → (({} : Tally).after ds).depth = 1
  reads : (Deed.receipts ds).length =
    (Deed.publications ds).countP SessionEvent.isRead + q.uncounted
  pauses : (Deed.publications ds).countP SessionEvent.isPause =
    Deed.resumes ds + q.unpassed + Deed.owed ds
  waits : q.isOff = false → (Deed.waits ds).getLast? ≠ some .aborted

namespace Accounts
variable {policy : PausePolicy} {q q' : Station} {ds : List Deed}

theorem start (policy : PausePolicy) : Station.fresh.Accounts policy [] := by
  refine ⟨rfl, ?_, rfl, rfl, ?_⟩ <;> simp [isOpen, Deed.waits]

theorem unheard {es : List Deed} (h : q.Accounts policy ds) (hp : Deed.publications es = [])
    (told : q'.Told policy = q.Told policy) (hopen : q'.isOpen = q.isOpen)
    (reads : (Deed.receipts es).length + q.uncounted = q'.uncounted)
    (pauses : Deed.resumes es + q'.unpassed + Deed.owed (ds ++ es) = q.unpassed + Deed.owed ds)
    (waits : q'.isOff = false → (Deed.waits (ds ++ es)).getLast? ≠ some .aborted) :
    q'.Accounts policy (ds ++ es) := by
  have ht : (({} : Tally).after (ds ++ es)) = ({} : Tally).after ds := by
    rw [Tally.after_append, Tally.after, hp]
    rfl
  have hr := h.reads
  have hn := h.pauses
  refine ⟨?_, ?_, ?_, ?_, waits⟩
  · rw [told, Deed.publications_append, hp, List.append_nil]
    exact h.told
  · rw [hopen, ht]
    exact h.depth
  · rw [Deed.receipts_append, List.length_append, Deed.publications_append, hp, List.append_nil]
    omega
  · rw [Deed.resumes_append, Deed.publications_append, hp, List.append_nil]
    omega

theorem quiet {es : List Deed} (h : q.Accounts policy ds) (hp : Deed.publications es = [])
    (hr : Deed.receipts es = []) (hw : Deed.waits es = []) (hn : Deed.resumes es = 0)
    (told : q'.Told policy = q.Told policy) (hopen : q'.isOpen = q.isOpen)
    (uncounted : q'.uncounted = q.uncounted) (unpassed : q'.unpassed = q.unpassed)
    (off : q'.isOff = false → q.isOff = false) : q'.Accounts policy (ds ++ es) := by
  have hwaits : Deed.waits (ds ++ es) = Deed.waits ds := by
    rw [Deed.waits_append, hw, List.append_nil]
  refine h.unheard hp told hopen ?_ ?_ fun ho => ?_
  · rw [hr, uncounted, List.length_nil, Nat.zero_add]
  · rw [hn, unpassed, Deed.owed, hwaits, Nat.zero_add]
    rfl
  · rw [hwaits]
    exact h.waits (off ho)

/-- Events that are published: what they count of is neither taken nor passed now. -/
theorem publish {es : List SessionEvent} (h : q.Accounts policy ds)
    (told : q'.Told policy (Deed.publications ds ++ es))
    (depth : q'.isOpen = true → (es.foldl Tally.note (({} : Tally).after ds)).depth = 1)
    (reads : es.countP SessionEvent.isRead + q'.uncounted = q.uncounted)
    (pauses : es.countP SessionEvent.isPause + q.unpassed = q'.unpassed)
    (off : q'.isOff = false → q.isOff = false) :
    q'.Accounts policy (ds ++ es.map .publish) := by
  have ht : (({} : Tally).after (ds ++ es.map .publish)) =
      es.foldl Tally.note (({} : Tally).after ds) := by
    rw [Tally.after_append, Tally.after, Deed.publications_publish]
  have hr := h.reads
  have hp := h.pauses
  refine ⟨?_, ?_, ?_, ?_, ?_⟩
  · rw [Deed.publications_append, Deed.publications_publish]
    exact told
  · rw [ht]
    exact depth
  · rw [Deed.receipts_append, Deed.receipts_publish, List.append_nil, Deed.publications_append,
      Deed.publications_publish, List.countP_append]
    omega
  · rw [Deed.resumes_append, Deed.resumes_publish, Deed.owed, Deed.waits_append,
      Deed.waits_publish, List.append_nil, ← Deed.owed, Deed.publications_append,
      Deed.publications_publish, List.countP_append]
    omega
  · rw [Deed.waits_append, Deed.waits_publish, List.append_nil]
    exact fun ho => h.waits (off ho)

theorem told_beat {es beat : List SessionEvent} (h : Station.running.Told policy es)
    (hb : ∀ {beats}, Beats policy beats → Beats policy (beats ++ beat)) :
    Station.running.Told policy (es ++ beat) := by
  obtain ⟨body, ⟨beats, hbeats, rfl⟩, rfl⟩ := h
  refine ⟨beats ++ beat, ⟨_, hb hbeats, by simp⟩, by simp⟩

theorem move {r : Request} {reply : r.Reply} (h : q.Accounts policy ds) (hm : q.Move r reply q') :
    q'.Accounts policy (ds ++ r.deeds policy (({} : Tally).after ds) reply) := by
  cases hm with
  | drop | begin | enter | name _ | poll | miss _ | check | note _ _ | notice | noteOff _ _
  | diagnose _ _ | print _ _ =>
    exact h.quiet rfl rfl rfl rfl rfl rfl rfl rfl (by simp [isOff])
  | finish off => exact h.quiet rfl rfl rfl rfl rfl rfl rfl rfl id
  | accept | reject | start =>
    exact h.publish (by rw [h.told]; rfl) (by simp [isOpen]) rfl rfl (by simp [isOff])
  | «open» functions =>
    refine h.publish ?_ (fun _ => rfl) rfl rfl (by simp [isOff])
    rw [h.told]
    exact ⟨[], ⟨[], .nil, rfl⟩, rfl⟩
  | announce line wasPrint =>
    refine h.publish (told_beat h.told fun hb => hb.pause line wasPrint) (fun _ => ?_) ?_ ?_
      (by simp [isOff])
    · cases policy <;> exact h.depth rfl
    · cases policy <;> rfl
    · cases policy <;> rfl
  | count line =>
    refine h.publish (told_beat h.told fun hb => hb.read line) h.depth rfl rfl (by simp [isOff])
  | fail =>
    refine h.publish ?_ h.depth rfl rfl (by simp [isOff])
    obtain ⟨body, ⟨beats, hb, rfl⟩, he⟩ := h.told
    exact ⟨beats ++ [.runtimeError], ⟨beats, hb, rfl⟩, by simp [he, Signal.events]⟩
  | leave | leaveFailed | leaveOff =>
    -- The pop names the depth that is left, which is none since the body keeps it at one.
    refine h.publish ?_ (by simp [isOpen]) rfl rfl (by simp [isOff])
    obtain ⟨body, hb, he⟩ := h.told
    exact ⟨_, body, hb, by simp, by rw [he, Signal.events, h.depth rfl]⟩
  | stop off =>
    refine h.publish ?_ (by simp [isOpen]) rfl rfl id
    obtain ⟨failed, body, hb, ho, he⟩ := h.told
    exact ⟨failed, body, hb, ho, by simp [he, Signal.events]⟩
  | take logged line =>
    have hw : Deed.waits (ds ++ [.receive line]) = Deed.waits ds := by simp [Deed.waits, Deed.waited?]
    refine h.unheard rfl rfl rfl rfl ?_ fun _ => ?_
    · simp only [Deed.owed, Request.deeds, hw]
      rfl
    · simp only [Request.deeds, hw]
      exact h.waits rfl
  | pass =>
    -- The checkpoint that was open is now among the resumed ones.
    have hl := h.waits rfl
    have hw : Deed.waits (ds ++ [.pass .resumed]) = Deed.waits ds ++ [.resumed] := by
      simp [Deed.waits, Deed.waited?]
    refine h.unheard rfl rfl rfl rfl ?_ fun _ => ?_
    · simp only [Deed.owed, Request.deeds, hw, hl]
      simp [Deed.resumes, Deed.resumed?, unpassed]
    · simp [Request.deeds, hw]
  | abort =>
    -- Here it stays owed: the last wait was aborted, and none before it was.
    have hl := h.waits rfl
    have hw : Deed.waits (ds ++ [.pass .aborted]) = Deed.waits ds ++ [.aborted] := by
      simp [Deed.waits, Deed.waited?]
    refine h.unheard rfl rfl rfl rfl ?_ (by simp [isOff])
    simp only [Deed.owed, Request.deeds, hw, hl]
    simp [Deed.resumes, Deed.resumed?, unpassed]

end Accounts

end Station

end Conduit

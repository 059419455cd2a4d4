import Conduit.Proofs.Bridge.Course

/-!
What a run and its surroundings say to each other: requests with their replies. A dialogue leads from
the work a run was given to what is left of it; the deeds of a run and its end can be told from it.
-/
namespace Conduit

structure Exchange where
  request : Request
  reply : request.Reply

namespace Exchange

def Agrees (off : Bool) : Exchange → Prop
  | ⟨.isCancelled, reply⟩ => reply = off
  | ⟨.read _, reply⟩ => reply.isNone = off
  | ⟨.awaitGate, reply⟩ => reply = if off then .aborted else .resumed
  | _ => True

def IsCalm : Exchange → Prop
  | ⟨.isCancelled, off⟩ => off = false
  | ⟨.read _, _⟩ | ⟨.awaitGate, _⟩ | ⟨.threadName, _⟩ => False
  | _ => True

def opensGate (policy : PausePolicy) : Exchange → Bool
  | ⟨.tell s, _⟩ => s.opensGate policy
  | ⟨.openGate, _⟩ => true
  | _ => false

end Exchange

namespace Dialogue

def deeds (policy : PausePolicy) : Tally → List Exchange → List Deed
  | _, [] => []
  | t, x :: xs =>
    let ds := x.request.deeds policy t x.reply
    ds ++ deeds policy (t.after ds) xs

variable {policy : PausePolicy}

theorem deeds_append (t : Tally) (xs ys : List Exchange) :
    deeds policy t (xs ++ ys) = deeds policy t xs ++ deeds policy (t.after (deeds policy t xs)) ys := by
  induction xs generalizing t with
  | nil => rfl
  | cons x xs ih =>
    simp only [List.cons_append, deeds, ih, List.append_assoc, Tally.after_append]

theorem mem_publications {t : Tally} {xs : List Exchange} {e : SessionEvent}
    (he : e ∈ Deed.publications (deeds policy t xs)) :
    ∃ s t', (∃ x ∈ xs, x.request = .tell s) ∧ e ∈ Signal.events policy t' s := by
  induction xs generalizing t with
  | nil => cases he
  | cons x xs ih =>
    obtain ⟨r, reply⟩ := x
    simp only [deeds, Deed.publications_append, List.mem_append] at he
    rcases he with he | he
    · cases r with
      | tell s =>
        rw [Request.deeds, Deed.publications_publish] at he
        exact ⟨s, t, ⟨_, List.mem_cons_self, rfl⟩, he⟩
      | read logged => cases reply <;> cases he
      | _ => cases he
    · obtain ⟨s, t', ⟨x, hx, hs⟩, hev⟩ := ih he
      exact ⟨s, t', ⟨x, List.mem_cons_of_mem _ hx, hs⟩, hev⟩

theorem resumed_not_mem (t : Tally) (xs : List Exchange) :
    .resumed ∉ Deed.publications (deeds .host t xs) := by
  intro h
  obtain ⟨s, t', -, hs⟩ := mem_publications h
  cases s <;> simp [Signal.events] at hs

theorem finished_not_mem (t : Tally) (xs : List Exchange) (outcome : RunOutcome) :
    .finished outcome ∉ Deed.publications (deeds policy t xs) := by
  intro h
  obtain ⟨s, t', -, hs⟩ := mem_publications h
  cases s <;> simp [Signal.events] at hs

/-- Where pauses are resumed by themselves, each of them is followed by that news. -/
theorem pauses_deeds (t : Tally) (xs : List Exchange) :
    (Deed.publications (deeds .autoResume t xs)).countP SessionEvent.isPause =
      (Deed.publications (deeds .autoResume t xs)).count .resumed := by
  induction xs generalizing t with
  | nil => rfl
  | cons x xs ih =>
    obtain ⟨r, reply⟩ := x
    have hone : (Deed.publications (r.deeds .autoResume t reply)).countP SessionEvent.isPause =
        (Deed.publications (r.deeds .autoResume t reply)).count .resumed := by
      cases r with
      | tell s => cases s <;> rfl
      | read logged => cases reply <;> rfl
      | _ => rfl
    simp only [deeds, Deed.publications_append, List.countP_append, List.count_append, ih, hone]

theorem deeds_singleton (t : Tally) (x : Exchange) :
    deeds policy t [x] = x.request.deeds policy t x.reply :=
  List.append_nil _

end Dialogue

namespace Behaviour
variable {ω α β : Type}

inductive Reaches : Behaviour α → List Exchange → Behaviour α → Prop
  | refl (b : Behaviour α) : Reaches b [] b
  | more {r : Request} {next : r.Reply → Behaviour α} {reply : r.Reply} {xs : List Exchange}
      {b : Behaviour α} (h : Reaches (next reply) xs b) : Reaches (ask r next) (⟨r, reply⟩ :: xs) b

def hasEnded : Behaviour α → Bool
  | .ask _ _ => false
  | _ => true

def IsHeldUp : Behaviour α → Prop
  | .ask (.read _) _ | .ask .awaitGate _ => True
  | .ask _ _ => False
  | _ => True

namespace Reaches
variable {b b' b'' : Behaviour α} {xs ys : List Exchange}

theorem trans (h : b.Reaches xs b') (h' : b'.Reaches ys b'') : b.Reaches (xs ++ ys) b'' := by
  induction h with
  | refl b => exact h'
  | more h ih => exact .more (ih h')

theorem reply {r : Request} {next : r.Reply → Behaviour α} (h : b.Reaches xs (ask r next))
    (reply : r.Reply) : b.Reaches (xs ++ [⟨r, reply⟩]) (next reply) :=
  h.trans (.more (.refl _))

theorem of_append (h : b.Reaches (xs ++ ys) b'') (h' : b.Reaches xs b') : b'.Reaches ys b'' := by
  induction h' with
  | refl b => exact h
  | more h' ih =>
    cases h with
    | more h => exact ih h

/-- A dialogue with two behaviours in a row that comes to its end breaks off in the first or goes on
with the second. -/
theorem of_bind {f : α → Behaviour β} {c : Behaviour β} (h : (b.bind f).Reaches xs c)
    (he : c.hasEnded = true) :
    (∃ m, b.Reaches xs (.panic m) ∧ c = .panic m) ∨
    ∃ xs₁ xs₂ a, xs = xs₁ ++ xs₂ ∧ b.Reaches xs₁ (.done a) ∧ (f a).Reaches xs₂ c := by
  induction b generalizing xs with
  | done a => exact .inr ⟨[], xs, a, rfl, .refl _, h⟩
  | panic m =>
    cases h
    exact .inl ⟨m, .refl _, rfl⟩
  | ask r next ih =>
    cases h with
    | refl => cases he
    | more h =>
      obtain ⟨m, hm, hc⟩ | ⟨xs₁, xs₂, a, rfl, h₁, h₂⟩ := ih _ h
      · exact .inl ⟨m, .more hm, hc⟩
      · exact .inr ⟨_ :: xs₁, xs₂, a, rfl, .more h₁, h₂⟩

theorem of_ask {r : Request} {next : r.Reply → Behaviour α} (h : (ask r next).Reaches xs b)
    (he : b.hasEnded = true) : ∃ reply ys, xs = ⟨r, reply⟩ :: ys ∧ (next reply).Reaches ys b := by
  cases h with
  | refl => cases he
  | more h => exact ⟨_, _, rfl, h⟩

/-- A request that holds nobody up has been met by the time that something does. -/
theorem past {r : Request} {next : r.Reply → Behaviour α} (h : (ask r next).Reaches xs b)
    (hb : b.IsHeldUp) (hr : ¬ (ask r next).IsHeldUp) :
    ∃ reply ys, xs = ⟨r, reply⟩ :: ys ∧ (next reply).Reaches ys b := by
  cases h with
  | refl => exact absurd hb hr
  | more h => exact ⟨_, _, rfl, h⟩

theorem bind {f : α → Behaviour β} (h : b.Reaches xs b') : (b.bind f).Reaches xs (b'.bind f) := by
  induction h with
  | refl b => exact .refl _
  | more _ ih => exact .more ih

/-- Who is not called off comes to every point that can be come to without a wait. -/
theorem through (h : b.Reaches xs b') (hb : b'.IsHeldUp) (ha : ∀ x ∈ xs, x.Agrees false)
    (h' : b.Reaches ys b'') (hys : ∀ y ∈ ys, y.IsCalm) : ∃ zs, xs = ys ++ zs := by
  induction h' generalizing xs with
  | refl b => exact ⟨xs, rfl⟩
  | @more r next reply _ _ _ ih =>
    obtain ⟨hy, hmore⟩ := List.forall_mem_cons.mp hys
    cases r with
    | read | awaitGate | threadName => exact absurd hy id
    | isCancelled =>
      obtain ⟨off, xs, rfl, hrest⟩ := h.past hb id
      obtain ⟨hoff, hagrees⟩ := List.forall_mem_cons.mp ha
      cases hy
      cases hoff
      obtain ⟨zs, rfl⟩ := ih hrest hagrees hmore
      exact ⟨zs, rfl⟩
    | _ =>
      obtain ⟨_, xs, rfl, hrest⟩ := h.past hb id
      obtain ⟨zs, rfl⟩ := ih hrest (List.forall_mem_cons.mp ha).2 hmore
      exact ⟨zs, rfl⟩

end Reaches

/-! The dialogue of a run -/

def dialogue (w : Worker ω) (work : Behaviour α) (st : Stage ω) : List Exchange :=
  work.collect w (fun _ r reply => [⟨r, reply⟩]) st

theorem reaches_run (w : Worker ω) (work : Behaviour α) (st : Stage ω) :
    work.Reaches (work.dialogue w st) (work.run w never st).2.rest := by
  induction work generalizing st with
  | done a => exact .refl _
  | panic m => exact .refl _
  | ask r next ih =>
    unfold dialogue
    cases hs : st.serve w r with
    | mk st' reply =>
      cases reply with
      | some reply =>
        rw [run_of_reply hs, collect_of_reply hs]
        exact .more (ih reply st')
      | none =>
        rw [run_of_stopped hs, collect_of_stopped hs, rest_stopped]
        exact .refl _

variable {w : Worker Audience} {id : Nat} {policy : PausePolicy}

theorem deeds_dialogue (hw : Stage.Attends w id policy) (work : Behaviour α) (st : Stage Audience) :
    work.deeds w policy st = Dialogue.deeds policy st.audience.tally (work.dialogue w st) := by
  induction work generalizing st with
  | done a => rfl
  | panic m => rfl
  | ask r next ih =>
    unfold deeds dialogue
    cases hs : st.serve w r with
    | mk st' reply =>
      cases reply with
      | some reply =>
        have ht : st'.audience.tally =
            st.audience.tally.after (r.deeds policy st.audience.tally reply) :=
          (Stage.follows_reply hw hs).tally
        rw [collect_of_reply hs, collect_of_reply hs, List.singleton_append, Dialogue.deeds, ← ht]
        exact congrArg _ (ih reply st')
      | none =>
        rw [collect_of_stopped hs, collect_of_stopped hs]
        rfl

theorem agrees_reply {st st' : Stage ω} {w : Worker ω} {r : Request} {reply : r.Reply}
    (ha : st.gate.aborted = st.cancelled) (h : st.serve w r = (st', some reply)) :
    Exchange.Agrees st.cancelled ⟨r, reply⟩ := by
  cases r with
  | read logged =>
    obtain ⟨hc, rfl, -⟩ | ⟨line, channel, served, hc, -, rfl, -⟩ := Stage.serve_read_cases h <;>
      rw [hc] <;> rfl
  | awaitGate =>
    obtain ⟨-, hr⟩ := Prod.mk.inj h
    rw [← ha]
    obtain ⟨hg, hw⟩ | ⟨hg, -, hw⟩ | ⟨-, -, hw⟩ := st.gate.wait_cases <;> rw [hw] at hr <;>
      cases hr <;> rw [hg] <;> rfl
  | isCancelled =>
    obtain ⟨-, hr⟩ := Prod.mk.inj h
    exact (Option.some.inj hr).symm
  | _ => trivial

theorem agrees_run (hw : Stage.Attends w id policy) (work : Behaviour α) (st : Stage Audience)
    (ha : st.gate.aborted = st.cancelled) :
    ∀ x ∈ work.dialogue w st, x.Agrees st.cancelled := by
  induction work generalizing st with
  | done a | panic m => exact fun x hx => by cases hx
  | ask r next ih =>
    unfold dialogue
    cases hs : st.serve w r with
    | mk st' reply =>
      cases reply with
      | some reply =>
        have hf := Stage.follows_reply hw hs
        rw [collect_of_reply hs]
        intro x hx
        rcases List.mem_cons.mp hx with rfl | hx
        · exact agrees_reply ha hs
        · rw [← hf.cancelled]
          exact ih reply st' (by rw [hf.aborted, hf.cancelled, ha]) x hx
      | none =>
        rw [collect_of_stopped hs]
        exact fun x hx => by cases hx

theorem permit_reply {st st' : Stage Audience} {r : Request} {reply : r.Reply}
    (hw : Stage.Attends w id policy) (h : st.serve w r = (st', some reply))
    (ho : Exchange.opensGate policy ⟨r, reply⟩ = true) : st'.gate.permit = true := by
  cases r with
  | tell s =>
    obtain ⟨rfl, -⟩ := Prod.mk.inj h
    obtain ⟨journal, hs⟩ := Stage.hear_eq id policy s st
    simp only [Exchange.opensGate] at ho
    simp only [hw.hear, hs, ho, if_true, Gate.resume]
  | openGate =>
    obtain ⟨rfl, -⟩ := Prod.mk.inj h
    rfl
  | _ => cases ho

theorem permit_stopped {st st' : Stage Audience} {r : Request} (h : st.serve w r = (st', none)) :
    st'.gate.permit = st.gate.permit := by
  obtain ⟨logged, rfl, -, -, rfl⟩ | ⟨rfl, -, -, rfl⟩ := serve_eq_none h <;> rfl

theorem permit_run (hw : Stage.Attends w id policy) (work : Behaviour α) (st : Stage Audience) :
    (work.dialogue w st = [] → (work.run w never st).1.gate.permit = st.gate.permit) ∧
    ∀ x, (work.dialogue w st).getLast? = some x → x.opensGate policy = true →
      (work.run w never st).1.gate.permit = true := by
  refine run_of_serve (fun (st : Stage Audience) (xs : List Exchange) (st' : Stage Audience) =>
    (xs = [] → st'.gate.permit = st.gate.permit) ∧
    ∀ x, xs.getLast? = some x → x.opensGate policy = true → st'.gate.permit = true)
    (fun st => ⟨fun _ => rfl, by simp⟩) ?_ ?_ ?_ work st
  · intro st xs st' ys st'' h h'
    refine ⟨fun hn => ?_, fun x hx ho => ?_⟩
    · obtain ⟨hx, hy⟩ := List.append_eq_nil_iff.mp hn
      rw [h'.1 hy, h.1 hx]
    · rw [List.getLast?_append] at hx
      cases hy : ys.getLast? with
      | none =>
        rw [hy] at hx
        rw [h'.1 (List.getLast?_eq_none_iff.mp hy)]
        exact h.2 x hx ho
      | some y =>
        rw [hy] at hx
        cases hx
        exact h'.2 x hy ho
  · intro st r st' reply h
    refine ⟨by simp, fun x hx ho => ?_⟩
    cases hx
    exact permit_reply hw h ho
  · exact fun h => ⟨fun _ => permit_stopped h, by simp⟩

end Behaviour

namespace Stage
variable {α : Type}

def Rests (st : Stage Audience) : Progress α → Prop
  | .held _ => False
  | .reading _ _ => st.cancelled = false ∧ st.gate.waiting = false
  | .paused _ => st.gate.passes = false ∧ st.gate.waiting = true
  | .done _ | .panicked _ => st.gate.waiting = false

theorem waiting_reply {w : Worker Audience} {id : Nat} {policy : PausePolicy} {st st' : Stage Audience}
    {r : Request} {reply : r.Reply} (hw : Attends w id policy) (hn : st.gate.waiting = false)
    (h : st.serve w r = (st', some reply)) : st'.gate.waiting = false := by
  cases r with
  | tell s =>
    obtain ⟨rfl, -⟩ := Prod.mk.inj h
    obtain ⟨journal, hs⟩ := hear_eq id policy s st
    rw [hw.hear, hs]
    simp only
    split <;> exact hn
  | read logged =>
    obtain ⟨-, -, journal, rfl⟩ | ⟨line, channel, served, -, -, -, rfl⟩ := serve_read_cases h <;>
      exact hn
  | awaitGate =>
    obtain ⟨rfl, hr⟩ := Prod.mk.inj h
    obtain ⟨-, hg⟩ | ⟨-, -, hg⟩ | ⟨-, -, hg⟩ := st.gate.wait_cases <;> rw [hg] at hr ⊢
    cases hr
  | _ =>
    obtain ⟨rfl, -⟩ := Prod.mk.inj h
    exact hn

theorem rests_run {w : Worker Audience} {id : Nat} {policy : PausePolicy} (hw : Attends w id policy)
    (work : Behaviour α) (st : Stage Audience) (hn : st.gate.waiting = false) :
    (work.run w Behaviour.never st).1.Rests (work.run w Behaviour.never st).2 := by
  induction work generalizing st with
  | done a | panic m => exact hn
  | ask r next ih =>
    cases hs : st.serve w r with
    | mk st' reply =>
      cases reply with
      | some reply =>
        rw [Behaviour.run_of_reply hs]
        exact ih reply st' (waiting_reply hw hn hs)
      | none =>
        rw [Behaviour.run_of_stopped hs]
        obtain ⟨logged, rfl, hc, -, rfl⟩ | ⟨rfl, ha, hp, rfl⟩ := Behaviour.serve_eq_none hs
        · exact ⟨hc, hn⟩
        · exact ⟨by simp [Gate.passes, ha, hp], rfl⟩

end Stage

namespace Engine
variable {σ : Type}

inductive Finish where
  /-- The token was found cancelled before there was an engine. -/
  | dropped
  | rejected
  /-- The token was found cancelled between the analysis and the execution. -/
  | halted
  | executed (off : Bool)
  | panicked (message : Option String)
deriving DecidableEq, Repr

def Finish.rest : Finish → Behaviour Ending
  | .dropped | .halted => .done .cancelled
  | .rejected => .done .rejected
  | .executed off => .done (if off then .cancelled else .executed)
  | .panicked m => .panic m

def look (off : Bool) : Exchange := ⟨.isCancelled, off⟩

inductive Finishes (e : Engine σ) (debug : Bool) (source : String) : List Exchange → Finish → Prop
  | dropped : Finishes e debug source [look true] .dropped
  | brokenAnalysis {xs : List Exchange} {m : Option String}
      (ha : (e.analyze debug (e.load source)).Reaches xs (.panic m)) :
      Finishes e debug source (look false :: xs) (.panicked m)
  | rejected {xs : List Exchange} {s : σ}
      (ha : (e.analyze debug (e.load source)).Reaches xs (.done (false, s))) :
      Finishes e debug source (look false :: xs) .rejected
  | halted {xs : List Exchange} {s : σ}
      (ha : (e.analyze debug (e.load source)).Reaches xs (.done (true, s))) :
      Finishes e debug source (look false :: xs ++ [look true]) .halted
  | brokenExecution {xs ys : List Exchange} {s : σ} {m : Option String}
      (ha : (e.analyze debug (e.load source)).Reaches xs (.done (true, s)))
      (hx : (e.execute debug s).Reaches ys (.panic m)) :
      Finishes e debug source (look false :: xs ++ look false :: ys) (.panicked m)
  | executed {xs ys : List Exchange} {s s' : σ} (off : Bool)
      (ha : (e.analyze debug (e.load source)).Reaches xs (.done (true, s)))
      (hx : (e.execute debug s).Reaches ys (.done s')) :
      Finishes e debug source (look false :: xs ++ look false :: ys ++ [look off]) (.executed off)

variable {e : Engine σ} {debug : Bool} {source : String} {xs : List Exchange} {rest : Behaviour Ending}

theorem finishes_of_reaches (h : (e.drive debug source).Reaches xs rest) (he : rest.hasEnded = true) :
    ∃ f, e.Finishes debug source xs f ∧ rest = f.rest := by
  obtain ⟨off, xs, rfl, hl⟩ := h.of_ask he
  cases off with
  | true =>
    cases hl
    exact ⟨_, .dropped, rfl⟩
  | false =>
    obtain ⟨m, ha, rfl⟩ | ⟨xs, xs', ⟨accepted, s⟩, rfl, ha, hr⟩ :=
      Behaviour.Reaches.of_bind (b := e.analyze debug (e.load source)) hl he
    · exact ⟨.panicked m, .brokenAnalysis ha, rfl⟩
    cases accepted with
    | false =>
      cases hr
      rw [List.append_nil]
      exact ⟨_, .rejected ha, rfl⟩
    | true =>
      obtain ⟨off, ys, rfl, hn⟩ := Behaviour.Reaches.of_ask hr he
      cases off with
      | true =>
        cases hn
        exact ⟨_, .halted ha, rfl⟩
      | false =>
        obtain ⟨m, hx, rfl⟩ | ⟨ys, ys', s', rfl, hx, hd⟩ :=
          Behaviour.Reaches.of_bind (b := e.execute debug s) hn he
        · exact ⟨.panicked m, .brokenExecution ha hx, rfl⟩
        obtain ⟨off, zs, rfl, ho⟩ := Behaviour.Reaches.of_ask hd he
        have hf := Finishes.executed off ha hx
        cases off <;> cases ho <;> exact ⟨_, by simpa [look] using hf, rfl⟩

/-- A look at the token is the last of a dialogue unless the program was turned down or broke off. -/
theorem Finishes.last {f : Finish} (h : e.Finishes debug source xs f) :
    f = .rejected ∨ (∃ m, f = .panicked m) ∨ ∃ off ys, xs = ys ++ [look off] ∧
      (f = .dropped ∧ off = true ∨ f = .halted ∧ off = true ∨ f = .executed off) := by
  cases h with
  | dropped => exact .inr (.inr ⟨true, [], rfl, .inl ⟨rfl, rfl⟩⟩)
  | brokenAnalysis ha => exact .inr (.inl ⟨_, rfl⟩)
  | rejected ha => exact .inl rfl
  | halted ha => exact .inr (.inr ⟨true, _, rfl, .inr (.inl ⟨rfl, rfl⟩)⟩)
  | brokenExecution ha hx => exact .inr (.inl ⟨_, rfl⟩)
  | executed off ha hx => exact .inr (.inr ⟨off, _, rfl, .inr (.inr rfl)⟩)

end Engine

end Conduit

import Conduit.Proofs.Engine.Dialogue
import Conduit.Proofs.Engine.Lifecycle

/-!
The way of a run from station to station. Whoever keeps to the stations gets only such replies there as
its token explains, so the dialogue of a run is a path; a run that has been called off finds the shortest
path to the end.
-/
namespace Conduit

def Exchange.isAbort : Exchange → Bool
  | ⟨.awaitGate, .aborted⟩ => true
  | _ => false

namespace Station

inductive Path : Station → List Exchange → Station → Prop
  | refl (q : Station) : Path q [] q
  | more {q q' q'' : Station} {r : Request} {reply : r.Reply} {xs : List Exchange}
      (h : q.Move r reply q') (t : Path q' xs q'') : Path q (⟨r, reply⟩ :: xs) q''

variable {policy : PausePolicy} {q q' q'' : Station} {xs ys : List Exchange}

theorem Path.trans (h : q.Path xs q') (h' : q'.Path ys q'') : q.Path (xs ++ ys) q'' := by
  induction h with
  | refl q => exact h'
  | more h t ih => exact .more h (ih h')

theorem Accounts.path {ds : List Deed} (h : q.Accounts policy ds) (hp : q.Path xs q') :
    q'.Accounts policy (ds ++ Dialogue.deeds policy (({} : Tally).after ds) xs) := by
  induction hp generalizing ds with
  | refl q =>
    rw [Dialogue.deeds, List.append_nil]
    exact h
  | more hm t ih =>
    have hn := ih (h.move hm)
    rw [Tally.after_append, List.append_assoc] at hn
    exact hn

/-- What the token of a run may be at a station. A run that is called off learns so at the next read or
gate, or before it does anything at all; where pauses are resumed by themselves no gate holds it up. -/
def Bears (policy : PausePolicy) (q : Station) (off : Bool) : Prop :=
  if off then q.isOff = true ∨ q = .fresh ∨ q = .checkpoint ∧ policy = .host else q.isOff = false

section Token
variable {off : Bool} {r : Request} {reply : r.Reply}

theorem Bears.eq_true (hb : q.Bears policy off) (hq : q.isOff = true) : off = true := by
  cases off with
  | true => rfl
  | false => exact absurd (hq.symm.trans hb) (by simp)

theorem Bears.move (hb : q.Bears policy off) (hm : q.Move r reply q')
    (ha : Exchange.Agrees off ⟨r, reply⟩) :
    q'.Bears policy off ∧ (policy = .autoResume → Exchange.isAbort ⟨r, reply⟩ = false) := by
  cases off <;> cases hm <;> simp_all [Bears, isOff, Exchange.Agrees, Exchange.isAbort]

/-- Where something may be asked for, every reply that agrees with the token is foreseen. -/
theorem Bears.foreseen (hb : q.Bears policy off) (hm : ∃ reply q', q.Move r reply q')
    (ha : Exchange.Agrees off ⟨r, reply⟩) : ∃ q', q.Move r reply q' := by
  obtain ⟨_, q₀, hm⟩ := hm
  -- Some move answers the request; only those on the token exclude other replies.
  have hm' := hm
  cases hm with
  | drop | begin =>
    cases reply
    · exact ⟨_, .begin⟩
    · exact ⟨_, .drop⟩
  | enter | poll | check =>
    cases ha
    obtain rfl : off = false := by cases off <;> simp_all [Bears, isOff]
    exact ⟨_, hm'⟩
  | notice =>
    cases ha
    obtain rfl : off = true := by cases off <;> simp_all [Bears, isOff]
    exact ⟨_, hm'⟩
  | finish off' =>
    cases ha
    obtain rfl : off = off' := by cases off <;> simp_all [Bears, isOff]
    exact ⟨_, hm'⟩
  | take logged _ | miss logged =>
    cases reply with
    | none => exact ⟨_, .miss logged⟩
    | some line => exact ⟨_, .take logged line⟩
  | pass | abort =>
    cases reply
    · exact ⟨_, .pass⟩
    · exact ⟨_, .abort⟩
  | name _ => exact ⟨_, .name reply⟩
  | _ => exact ⟨_, hm'⟩

end Token

end Station

namespace Behaviour
variable {α : Type} {ends : Station → α → Prop} {q q' : Station} {b b' : Behaviour α}
  {xs : List Exchange}

theorem Keeps.reaches (h : b.Keeps ends q) (hr : b.Reaches xs b') (hp : q.Path xs q') :
    b'.Keeps ends q' := by
  induction hr generalizing q with
  | refl b =>
    cases hp
    exact h
  | more hr ih =>
    cases hp with
    | more hm t => exact ih (h.2 _ _ hm) t

theorem Keeps.path {policy : PausePolicy} {off : Bool} (h : b.Keeps ends q) (hr : b.Reaches xs b')
    (hb : q.Bears policy off) (ha : ∀ x ∈ xs, x.Agrees off) :
    ∃ q', q.Path xs q' ∧ q'.Bears policy off ∧
      (policy = .autoResume → ∀ x ∈ xs, x.isAbort = false) := by
  induction hr generalizing q with
  | refl b => exact ⟨q, .refl q, hb, by simp⟩
  | more hr ih =>
    have hx := ha _ List.mem_cons_self
    obtain ⟨q₁, hm⟩ := hb.foreseen h.1 hx
    obtain ⟨hb₁, hn⟩ := hb.move hm hx
    obtain ⟨q', t, hb', hn'⟩ := ih (h.2 _ _ hm) hb₁ fun x hx => ha x (List.mem_cons_of_mem _ hx)
    refine ⟨q', .more hm t, hb', fun hp x hx => ?_⟩
    rcases List.mem_cons.mp hx with rfl | hx
    · exact hn hp
    · exact hn' hp x hx

end Behaviour

theorem Dialogue.waits_deeds (policy : PausePolicy) (t : Tally) {xs : List Exchange}
    (h : ∀ x ∈ xs, x.isAbort = false) : .aborted ∉ Deed.waits (deeds policy t xs) := by
  induction xs generalizing t with
  | nil => simp [deeds, Deed.waits]
  | cons x xs ih =>
    obtain ⟨r, reply⟩ := x
    have hx := h _ List.mem_cons_self
    simp only [deeds, Deed.waits_append, List.mem_append, not_or]
    refine ⟨?_, ih _ fun x hx => h x (List.mem_cons_of_mem _ hx)⟩
    cases r with
    | tell s => simp [Request.deeds]
    | read logged => cases reply <;> simp [Request.deeds, Deed.waits, Deed.waited?]
    | awaitGate => cases reply <;> simp_all [Request.deeds, Deed.waits, Deed.waited?, Exchange.isAbort]
    | _ => simp [Request.deeds, Deed.waits, Deed.waited?]

namespace Station
variable {q q' : Station} {xs : List Exchange}

theorem Path.checkpoint (h : fresh.Path xs .checkpoint) :
    ∃ ys line wasPrint, xs = ys ++ [⟨.tell (.executionPaused line wasPrint), ()⟩] := by
  suffices ∀ q q', Path q xs q' → q' = .checkpoint → q = .checkpoint ∧ xs = [] ∨
      ∃ ys line wasPrint, xs = ys ++ [⟨.tell (.executionPaused line wasPrint), ()⟩] by
    obtain ⟨hf, -⟩ | h := this _ _ h rfl
    · cases hf
    · exact h
  clear h
  intro q q' h hq
  induction h with
  | refl q => exact .inl ⟨hq, rfl⟩
  | @more q q' _ r reply xs hm t ih =>
    refine .inr ?_
    obtain ⟨rfl, rfl⟩ | ⟨ys, line, wasPrint, rfl⟩ := ih hq
    · cases hm with
      | announce line wasPrint => exact ⟨[], line, wasPrint, rfl⟩
    · exact ⟨_ :: ys, line, wasPrint, rfl⟩

def toClose : Station → List SessionEvent
  | .calledOff => [.stackPopped 0, .executionStopped]
  | .leaving _ => [.executionStopped]
  | _ => []

/-- On its way out a run that was called off does nothing but publish the closing events. -/
def IsLeaving (q : Station) : Prop :=
  q = .calledOff ∨ q = .leaving true ∨ q = .left true ∨ q = .gone true

theorem Move.leaving (policy : PausePolicy) {t : Tally} {r : Request} {reply : r.Reply}
    (h : q.Move r reply q') (hq : q.IsLeaving) (hd : q = .calledOff → t.depth = 1) :
    q'.IsLeaving ∧ ∃ es, r.deeds policy t reply = es.map .publish ∧ q.toClose = es ++ q'.toClose ∧
      (q' = .calledOff → (t.after (es.map .publish)).depth = 1) := by
  obtain rfl | rfl | rfl | rfl := hq
  · cases h with
    | notice => exact ⟨.inl rfl, [], rfl, rfl, hd⟩
    | noteOff level message => exact ⟨.inl rfl, [], rfl, rfl, hd⟩
    | leaveOff =>
      refine ⟨.inr (.inl rfl), [.stackPopped 0], ?_, rfl, by simp⟩
      simp [Request.deeds, Signal.events, hd rfl]
  · cases h
    exact ⟨.inr (.inr (.inl rfl)), [.executionStopped], rfl, rfl, by simp⟩
  · cases h
    exact ⟨.inr (.inr (.inr rfl)), [], rfl, rfl, by simp⟩
  · cases h

theorem Path.leaving (policy : PausePolicy) {t : Tally} (h : q.Path xs q') (hq : q.IsLeaving)
    (hd : q = .calledOff → t.depth = 1) :
    q'.IsLeaving ∧ ∃ es, Dialogue.deeds policy t xs = es.map .publish ∧
      q.toClose = es ++ q'.toClose := by
  induction h generalizing t with
  | refl q => exact ⟨hq, [], rfl, rfl⟩
  | more hm p ih =>
    obtain ⟨hq₁, es, he, hc, hd₁⟩ := hm.leaving policy hq hd
    obtain ⟨hq', es', he', hc'⟩ := ih hq₁ hd₁
    refine ⟨hq', es ++ es', ?_, by rw [hc, hc', List.append_assoc]⟩
    simp only [Dialogue.deeds, he, he', List.map_append]

/-- A run that is called off at a checkpoint or at a read goes straight to its end. -/
theorem Path.closing (policy : PausePolicy) {t : Tally} (h : q.Path xs q')
    (hq : q = .calledOff ∨ q = .checkpoint) (ha : ∀ x ∈ xs, x.Agrees true) (hd : t.depth = 1)
    (hn : q' ≠ .checkpoint) :
    q'.IsLeaving ∧ ∃ passed es, (passed = [] ∨ passed = [Deed.pass .aborted]) ∧
      Dialogue.deeds policy t xs = passed ++ es.map .publish ∧
      calledOff.toClose = es ++ q'.toClose := by
  obtain rfl | rfl := hq
  · obtain ⟨hl, es, he, hc⟩ := h.leaving policy (.inl rfl) fun _ => hd
    exact ⟨hl, [], es, .inl rfl, he, hc⟩
  · cases h with
    | refl => exact absurd rfl hn
    | more hm p =>
      have hx := ha _ List.mem_cons_self
      cases hm with
      | pass => cases hx
      | abort =>
        obtain ⟨hl, es, he, hc⟩ := p.leaving policy (.inl rfl) fun _ => hd
        exact ⟨hl, [.pass .aborted], es, .inr rfl, congrArg (Deed.pass .aborted :: ·) he, hc⟩

end Station

end Conduit

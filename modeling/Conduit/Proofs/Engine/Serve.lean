import Conduit.Engine.Run
import Conduit.Proofs.Channel.Basic

/-!
A run, one request at a time. Its surroundings meet each request, with a reply or by blocking the run;
what holds of every request met holds of a whole run.
-/
namespace Conduit
variable {ω α β γ : Type}

/-- A wait at a gate is let go by an abort, else it uses up the permit, else it is blocked. -/
theorem Gate.wait_cases (g : Gate) :
    (g.aborted = true ∧ g.wait = ({ g with waiting := false }, some .aborted)) ∨
    (g.aborted = false ∧ g.permit = true ∧
      g.wait = ({ g with permit := false, waiting := false, resumed := g.resumed + 1 },
        some .resumed)) ∨
    (g.aborted = false ∧ g.permit = false ∧ g.wait = ({ g with waiting := true }, none)) := by
  unfold Gate.wait
  cases ha : g.aborted <;> cases hp : g.permit <;> simp

/-- How the surroundings meet one request; without a reply the run is blocked. -/
def Stage.serve (w : Worker ω) (st : Stage ω) : (r : Request) → Stage ω × Option r.Reply
  | .print stream e => (st.print w.thread stream e, some ())
  | .tell s => (w.hear s st, some ())
  | .read logged =>
    if st.cancelled then (st.noteCalledOff w.thread logged, some none)
    else
      match st.takeLine? with
      | some (line, st) => (st, some (some line))
      | none => (st.queueReader w.ticket, none)
  | .awaitGate => ({ st with gate := st.gate.wait.1 }, st.gate.wait.2)
  | .openGate => ({ st with gate := st.gate.resume }, some ())
  | .isCancelled => (st, some st.cancelled)
  | .threadName => (st, some w.name)
  | .log level message => (st.note w.thread level .script message, some ())

/-- A read that is met gives nothing once the run is called off, and the oldest line otherwise. -/
theorem Stage.serve_read_cases {w : Worker ω} {st st' : Stage ω} {logged : Bool}
    {reply : Option String} (h : st.serve w (.read logged) = (st', some reply)) :
    (st.cancelled = true ∧ reply = none ∧ ∃ journal, st' = { st with journal }) ∨
    ∃ line channel served, st.cancelled = false ∧
      st.channel.take? = some (line, channel, served) ∧ reply = some line ∧
      st' = { st with channel, admitted := st.admitted ++ writerTickets served } := by
  simp only [serve] at h
  split at h
  · obtain ⟨rfl, hr⟩ := Prod.mk.inj h
    refine .inl ⟨‹_›, (Option.some.inj hr).symm, ?_⟩
    unfold noteCalledOff
    split <;> exact ⟨_, rfl⟩
  · rename_i hc
    unfold takeLine? at h
    cases ht : st.channel.take? with
    | none =>
      rw [ht] at h
      exact absurd (Prod.mk.inj h).2 (Option.some_ne_none _).symm
    | some p =>
      obtain ⟨line, channel, served⟩ := p
      rw [ht] at h
      obtain ⟨rfl, hr⟩ := Prod.mk.inj h
      exact .inr ⟨line, channel, served, by simpa using hc, rfl, (Option.some.inj hr).symm, rfl⟩

namespace Behaviour

def stopped : (r : Request) → (r.Reply → Behaviour α) → Progress α
  | .read logged, next => .reading logged next
  | .awaitGate, next => .paused next
  | r, next => .held (.ask r next)

theorem run_ask (w : Worker ω) (st : Stage ω) (r : Request) (next : r.Reply → Behaviour α) :
    (ask r next).run w never st =
      match st.serve w r with
      | (st', some reply) => (next reply).run w never st'
      | (st', none) => (st', stopped r next) := by
  cases r with
  | read logged =>
    simp only [run, Stage.serve]
    split
    · rfl
    · cases st.takeLine? <;> rfl
  | awaitGate =>
    simp only [run, Stage.serve]
    cases hw : st.gate.wait with
    | mk gate outcome => cases outcome <;> rfl
  | _ => rfl

theorem run_of_reply {w : Worker ω} {st st' : Stage ω} {r : Request} {reply : r.Reply}
    (h : st.serve w r = (st', some reply)) (next : r.Reply → Behaviour α) :
    (ask r next).run w never st = (next reply).run w never st' := by
  rw [run_ask, h]

theorem run_of_stopped {w : Worker ω} {st st' : Stage ω} {r : Request}
    (h : st.serve w r = (st', none)) (next : r.Reply → Behaviour α) :
    (ask r next).run w never st = (st', stopped r next) := by
  rw [run_ask, h]

theorem serve_eq_none {w : Worker ω} {st st' : Stage ω} {r : Request}
    (h : st.serve w r = (st', none)) :
    (∃ logged, r = .read logged ∧ st.cancelled = false ∧ st.channel.lines = [] ∧
      st' = st.queueReader w.ticket) ∨
    (r = .awaitGate ∧ st.gate.aborted = false ∧ st.gate.permit = false ∧
      st' = { st with gate := { st.gate with waiting := true } }) := by
  cases r with
  | read logged =>
    simp only [Stage.serve] at h
    split at h
    · simp at h
    · rename_i hc
      split at h
      · simp at h
      · rename_i ht
        refine .inl ⟨logged, rfl, by simpa using hc, ?_, (Prod.mk.inj h).1.symm⟩
        simp only [Stage.takeLine?] at ht
        split at ht
        · exact Channel.take?_eq_none.mp ‹_›
        · simp at ht
  | awaitGate =>
    obtain ⟨rfl, hn⟩ := Prod.mk.inj h
    obtain ⟨-, hw⟩ | ⟨-, -, hw⟩ | ⟨ha, hp, hw⟩ := st.gate.wait_cases
    · simp [hw] at hn
    · simp [hw] at hn
    · exact .inr ⟨rfl, ha, hp, by rw [hw]⟩
  | _ => simp [Stage.serve] at h

def collect (w : Worker ω) (f : Stage ω → (r : Request) → r.Reply → List γ) :
    Behaviour α → Stage ω → List γ
  | .done _, _ | .panic _, _ => []
  | .ask r next, st =>
    match st.serve w r with
    | (st', some reply) => f st r reply ++ (next reply).collect w f st'
    | (_, none) => []

theorem collect_of_reply {w : Worker ω} {f : Stage ω → (r : Request) → r.Reply → List γ}
    {st st' : Stage ω} {r : Request} {reply : r.Reply} (h : st.serve w r = (st', some reply))
    (next : r.Reply → Behaviour α) :
    (ask r next).collect w f st = f st r reply ++ (next reply).collect w f st' := by
  simp only [collect, h]

theorem collect_of_stopped {w : Worker ω} {f : Stage ω → (r : Request) → r.Reply → List γ}
    {st st' : Stage ω} {r : Request} (h : st.serve w r = (st', none))
    (next : r.Reply → Behaviour α) : (ask r next).collect w f st = [] := by
  simp only [collect, h]

/-- What every request that is met does to the surroundings, with what is written down about it, a
whole run does. -/
theorem run_of_serve {w : Worker ω} {f : Stage ω → (r : Request) → r.Reply → List γ}
    (R : Stage ω → List γ → Stage ω → Prop) (refl : ∀ st, R st [] st)
    (trans : ∀ {st d st' d' st''}, R st d st' → R st' d' st'' → R st (d ++ d') st'')
    (answered : ∀ {st r st' reply}, st.serve w r = (st', some reply) → R st (f st r reply) st')
    (blocked : ∀ {st r st'}, st.serve w r = (st', none) → R st [] st')
    (work : Behaviour α) (st : Stage ω) :
    R st (work.collect w f st) (work.run w never st).1 := by
  induction work generalizing st with
  | done a => exact refl st
  | panic m => exact refl st
  | ask r next ih =>
    cases hs : st.serve w r with
    | mk st' reply =>
      cases reply with
      | some reply =>
        rw [run_of_reply hs, collect_of_reply hs]
        exact trans (answered hs) (ih reply st')
      | none =>
        rw [run_of_stopped hs, collect_of_stopped hs]
        exact blocked hs

end Behaviour

end Conduit

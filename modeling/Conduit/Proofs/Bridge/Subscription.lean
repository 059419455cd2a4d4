import Conduit.Engine.Scripted
import Conduit.Proofs.Bridge.Stream

/-!
Subscriptions to a bridge. What a subscriber hears depends only on when it came: a later subscription is
sent what an earlier one is sent from then on.
-/
namespace Conduit.Bridge

theorem reply_subscribe (b : Bridge) (ticket : Nat) :
    (b.perform ticket .subscribe).2.reply = some (.subscription b.hub.nextId) := rfl

/-- The first subscription to a bridge, made before any other call, is sent everything that is
published. -/
theorem seen_first (e : Engine σ) (grants : Nat → Bool) (sink : Sink) (config : Config)
    (ticket : Nat) {calls : List (Nat × Call)} (hl : ∀ c ∈ calls, c.2 ≠ .leave 0) :
    let b := ((create e grants sink config).perform ticket .subscribe).1
    b.seen 0 calls = Act.published (b.history calls) :=
  seen_eq (hears_subscribed e grants sink config [] ticket).2 hl

theorem seen_later (e : Engine σ) (grants : Nat → Bool) (sink : Sink) (config : Config)
    (early : List (Nat × Call)) (ticket : Nat) {later : List (Nat × Call)} :
    let b := (create e grants sink config).after early
    (∀ c ∈ later, c.2 ≠ .leave b.hub.nextId) →
    (b.perform ticket .subscribe).1.seen b.hub.nextId later =
      Act.published (b.history ((ticket, .subscribe) :: later)) := by
  intro b hl
  rw [seen_eq (hears_subscribed e grants sink config early ticket).2 hl, history,
    Act.published_append]

/-- A subscriber who stays is sent exactly what is published after it came, each envelope once and in the
order of publication; of two who stay the later one is sent an end of what the earlier one is sent; and a
publication leaves just those in the list who stay. On a bridge, a subscription that is made when `k`
envelopes have been published is sent what the first one is sent from the place `k` on. -/
theorem subscribers_are_sent_what_follows (e : Engine σ) (grants : Nat → Bool) (sink : Sink)
    (config : Config) :
    (∀ before later : List Hub.Call, .leave (before.count .subscribe) ∉ later →
      ({} : Hub).seen (before.count .subscribe) (before ++ .subscribe :: later) =
        Hub.published later) ∧
    (∀ (calls : List Hub.Call) (u v : Nat), Hub.Stays calls u → Hub.Stays calls v → u ≤ v →
      ({} : Hub).seen v calls <:+ ({} : Hub).seen u calls) ∧
    (∀ (calls : List Hub.Call) (x : Envelope),
      let listed := (({} : Hub).after (calls ++ [.publish x])).subscribers.map Subscriber.id
      listed.Pairwise (· < ·) ∧ ∀ u, u ∈ listed ↔ Hub.Stays (calls ++ [.publish x]) u) ∧
    ∀ (first ticket : Nat) (early later : List (Nat × Call)),
      let b := ((create e grants sink config).perform first .subscribe).1
      let b' := ((b.after early).perform ticket .subscribe).1
      let all := early ++ (ticket, .subscribe) :: later
      (∀ c ∈ all, c.2 ≠ .leave 0) →
      ((create e grants sink config).perform first .subscribe).2.reply = some (.subscription 0) ∧
      b.seen 0 all = Act.published (b.history all) ∧
      ∃ u, ((b.after early).perform ticket .subscribe).2.reply = some (.subscription u) ∧
        ((∀ c ∈ later, c.2 ≠ .leave u) →
          b'.seen u later = (b.seen 0 all).drop (Act.published (b.history early)).length) := by
  refine ⟨fun before later hl => Hub.seen_subscribed before hl,
    fun calls u v hu hv huv => hu.seen_suffix hv huv, fun calls x => ?_, ?_⟩
  · intro listed
    obtain ⟨hordered, hlisted⟩ := (Hub.tells_after calls).listed x
    have hlast : listed = ((({} : Hub).after calls).publish x).subscribers.map Subscriber.id := by
      simp only [listed, Hub.after_append]
      rfl
    rw [hlast]
    refine ⟨hordered, fun u => ?_⟩
    rw [hlisted, Hub.stays_append_singleton]
    simp
  · intro first ticket early later b b' all hfirst
    have hall : b.seen 0 all = Act.published (b.history all) :=
      seen_first e grants sink config first hfirst
    refine ⟨reply_subscribe _ _, hall, (b.after early).hub.nextId, reply_subscribe _ _, fun hl => ?_⟩
    have hsent : b'.seen (b.after early).hub.nextId later =
        Act.published ((b.after early).history ((ticket, .subscribe) :: later)) :=
      seen_later e grants sink config ((first, .subscribe) :: early) ticket hl
    rw [hsent, hall, history_append, Act.published_append, List.drop_left]

/-- Someone who comes while a program waits for its first line hears of the read and of what is after
it. -/
theorem subscribers_are_sent_what_follows_a_read :
    let before : List Hub.Call := [.subscribe, .publish ⟨1, .spawned⟩]
    let later : List Hub.Call := [.leave 0, .publish ⟨2, .spawned⟩, .subscribe, .receive 1,
      .publish ⟨1, .resumed⟩]
    let b := ((create Scripted.engine (fun _ => true) (.capture "") {}).perform 0 .subscribe).1
    let early : List (Nat × Call) := [(1, .start "read a" true)]
    let b' := ((b.after early).perform 2 .subscribe).1
    ({} : Hub).seen 1 (before ++ .subscribe :: later) = [⟨2, .spawned⟩, ⟨1, .resumed⟩] ∧
    ((b.after early).perform 2 .subscribe).2.reply = some (.subscription 1) ∧
    (Act.published (b.history early)).length = 4 ∧
    b'.seen 1 [(3, .submit "x")] =
      (b.seen 0 (early ++ [(2, .subscribe), (3, .submit "x")])).drop 4 ∧
    b'.seen 1 [(3, .submit "x")] = [⟨1, .readExecuted 1⟩, ⟨1, .stackPopped 0⟩, ⟨1, .executionStopped⟩,
      ⟨1, .finished .completed⟩] := by
  intro before later b early b'
  obtain ⟨hhub, -, -, hbridge⟩ :=
    subscribers_are_sent_what_follows Scripted.engine (fun _ => true) (.capture "") {}
  have hcount : before.count .subscribe = 1 := by decide
  have hpublished : Hub.published later = [⟨2, .spawned⟩, ⟨1, .resumed⟩] := by decide
  have hsent := hhub before later (by decide)
  rw [hcount, hpublished] at hsent
  have hk : (Act.published (b.history early)).length = 4 := by decide +kernel
  have hheard : b'.seen 1 [(3, .submit "x")] = [⟨1, .readExecuted 1⟩, ⟨1, .stackPopped 0⟩,
      ⟨1, .executionStopped⟩, ⟨1, .finished .completed⟩] := by decide +kernel
  obtain ⟨-, -, u, hu, hdrop⟩ := hbridge 0 2 early [(3, .submit "x")] (by decide)
  have hreply := hu
  rw [reply_subscribe, Option.some.injEq, Reply.subscription.injEq] at hreply
  obtain rfl : u = 1 := by
    rw [← hreply]
    decide +kernel
  have hlater := hdrop (by decide)
  rw [hk] at hlater
  subst b' b
  exact ⟨hsent, hu, hk, hlater, hheard⟩

end Conduit.Bridge

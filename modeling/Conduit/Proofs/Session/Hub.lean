import Conduit.Session.Hub
import Mathlib.Data.List.Basic
import Mathlib.Data.List.Induction

/-!
Subscribers of a hub. Whoever stays hears what is published from its subscription on, each envelope once
and in the order of publication, whoever else comes or leaves; and whoever left is forgotten at the next
publication.
-/
namespace Conduit.Hub

/-! One subscriber -/

def Hears (h : Hub) (u : Nat) (es : List Envelope) : Prop :=
  ∃ x, h.subscribers.find? (fun s => s.id = u) = some x ∧ x.listening = true ∧ x.inbox = es

variable {h : Hub} {u v : Nat} {es : List Envelope}

theorem Hears.waiting (hh : h.Hears u es) : h.waiting u = es := by
  obtain ⟨x, hx, -, rfl⟩ := hh
  simp [Hub.waiting, hx]

theorem Hears.publish (hh : h.Hears u es) (e : Envelope) : (h.publish e).Hears u (es ++ [e]) := by
  obtain ⟨x, hx, hl, rfl⟩ := hh
  refine ⟨{ x with inbox := x.inbox ++ [e] }, ?_, hl, rfl⟩
  have hf : (h.subscribers.filter (·.listening)).find? (fun s => s.id = u) = some x := by
    rw [List.find?_eq_some_iff_append] at hx ⊢
    obtain ⟨hu, before, after, hs, hn⟩ := hx
    refine ⟨hu, before.filter (·.listening), after.filter (·.listening), ?_, fun a ha => ?_⟩
    · rw [hs, List.filter_append, List.filter_cons_of_pos hl]
    · exact hn a (List.mem_filter.mp ha).1
  simp only [Hub.publish, List.find?_map, Function.comp_def, hf, Option.map_some]

theorem Hears.subscribe (hh : h.Hears u es) : h.subscribe.1.Hears u es := by
  obtain ⟨x, hx, hl, he⟩ := hh
  exact ⟨x, by simp [Hub.subscribe, List.find?_append, hx], hl, he⟩

theorem Hears.map (hh : h.Hears u es) {v : Nat} (hv : v ≠ u) {f : Subscriber → Subscriber}
    (hf : ∀ s, (f s).id = s.id) :
    ({ h with subscribers := h.subscribers.map fun s => if s.id = v then f s else s } : Hub).Hears u
      es := by
  obtain ⟨x, hx, hl, he⟩ := hh
  have hu : x.id = u := by simpa using List.find?_some hx
  refine ⟨x, ?_, hl, he⟩
  have hid : ∀ s : Subscriber, (if s.id = v then f s else s).id = s.id := by
    intro s
    split
    · exact hf s
    · rfl
  simp only [List.find?_map, Function.comp_def, hid, hx, Option.map_some, hu, hv.symm, if_false]

theorem Hears.receive (hh : h.Hears u es) : (h.receive u).1.Hears u [] ∧ (h.receive u).2 = es := by
  refine ⟨?_, hh.waiting⟩
  obtain ⟨x, hx, hl, he⟩ := hh
  have hu : x.id = u := by simpa using List.find?_some hx
  refine ⟨{ x with inbox := [] }, ?_, hl, rfl⟩
  have hid : ∀ s : Subscriber, (if s.id = u then { s with inbox := [] } else s).id = s.id := by
    intro s
    split <;> rfl
  simp only [Hub.receive, List.find?_map, Function.comp_def, hid, hx, Option.map_some, hu, if_true]

/-! Histories -/

inductive Call where
  | subscribe
  | leave (id : Nat)
  | publish (e : Envelope)
  | receive (id : Nat)
deriving DecidableEq, Repr

def Call.published? : Call → Option Envelope
  | .publish e => some e
  | _ => none

def published (calls : List Call) : List Envelope := calls.filterMap Call.published?

def perform (h : Hub) : Call → Hub
  | .subscribe => h.subscribe.1
  | .leave id => h.leave id
  | .publish e => h.publish e
  | .receive id => (h.receive id).1

def handed (h : Hub) (u : Nat) (c : Call) : List Envelope :=
  if c = .receive u then (h.receive u).2 else []

def after (h : Hub) (calls : List Call) : Hub := calls.foldl perform h

def received (h : Hub) (u : Nat) : List Call → List Envelope
  | [] => []
  | c :: calls => h.handed u c ++ (h.perform c).received u calls

def seen (h : Hub) (u : Nat) (calls : List Call) : List Envelope :=
  h.received u calls ++ (h.after calls).waiting u

variable {c : Call} {calls : List Call}

theorem after_append (h : Hub) (calls more : List Call) :
    h.after (calls ++ more) = (h.after calls).after more :=
  List.foldl_append

theorem received_append (h : Hub) (u : Nat) (calls more : List Call) :
    h.received u (calls ++ more) = h.received u calls ++ (h.after calls).received u more := by
  induction calls generalizing h with
  | nil => rfl
  | cons c calls ih =>
    rw [List.cons_append, received, ih, received, List.append_assoc]
    rfl

/-- Whoever stays through a call has heard what was published in it, if anything. -/
theorem Hears.perform (hh : h.Hears u es) (hc : c ≠ .leave u) :
    ∃ fs, (h.perform c).Hears u fs ∧ h.handed u c ++ fs = es ++ published [c] := by
  cases c with
  | subscribe => exact ⟨es, hh.subscribe, (List.append_nil es).symm⟩
  | leave v =>
    have hv : v ≠ u := fun he => hc (he ▸ rfl)
    exact ⟨es, hh.map hv fun _ => rfl, (List.append_nil es).symm⟩
  | publish e => exact ⟨es ++ [e], hh.publish e, rfl⟩
  | receive v =>
    by_cases hv : v = u
    · subst hv
      obtain ⟨hn, he⟩ := hh.receive
      exact ⟨[], hn, by simp [handed, he, published, Call.published?]⟩
    · exact ⟨es, hh.map hv fun _ => rfl, by simp [handed, hv, published, Call.published?]⟩

theorem Hears.seen (hh : h.Hears u es) (hl : .leave u ∉ calls) :
    h.seen u calls = es ++ published calls := by
  induction calls generalizing h es with
  | nil => exact hh.waiting.trans (List.append_nil es).symm
  | cons c calls ih =>
    obtain ⟨fs, hf, he⟩ := hh.perform fun hc => hl (hc ▸ List.mem_cons_self)
    have hrest := ih hf fun hm => hl (List.mem_cons_of_mem c hm)
    calc h.seen u (c :: calls)
        = h.handed u c ++ (h.perform c).seen u calls := List.append_assoc _ _ _
      _ = es ++ published [c] ++ published calls := by rw [hrest, ← List.append_assoc, he]
      _ = es ++ published (c :: calls) := by
          rw [List.append_assoc, published, published, ← List.filterMap_append]
          rfl

/-! All subscribers -/

def Stays (calls : List Call) (u : Nat) : Prop :=
  ∃ before later, calls = before ++ .subscribe :: later ∧ before.count .subscribe = u ∧
    .leave u ∉ later

theorem not_stays_nil (u : Nat) : ¬ Stays [] u := by
  rintro ⟨before, later, h, -⟩
  simp at h

theorem stays_append_singleton (calls : List Call) (c : Call) (u : Nat) :
    Stays (calls ++ [c]) u ↔
      (Stays calls u ∧ c ≠ .leave u) ∨ (c = .subscribe ∧ u = calls.count .subscribe) := by
  constructor
  · rintro ⟨before, later, h, hu, hl⟩
    obtain rfl | ⟨later, d, rfl⟩ := List.eq_nil_or_concat' later
    · obtain ⟨rfl, hc⟩ := List.append_inj' h rfl
      exact .inr ⟨List.singleton_inj.mp hc, hu.symm⟩
    · rw [← List.cons_append, ← List.append_assoc] at h
      obtain ⟨rfl, hc⟩ := List.append_inj' h rfl
      obtain rfl := List.singleton_inj.mp hc
      simp only [List.mem_append, List.mem_singleton, not_or] at hl
      exact .inl ⟨⟨before, later, rfl, hu, hl.1⟩, Ne.symm hl.2⟩
  · rintro (⟨⟨before, later, rfl, hu, hl⟩, hc⟩ | ⟨rfl, rfl⟩)
    · exact ⟨before, later ++ [c], by simp, hu, by simp [hl, Ne.symm hc]⟩
    · exact ⟨calls, [], rfl, rfl, by simp⟩

structure Tells (h : Hub) (calls : List Call) : Prop where
  next : h.nextId = calls.count .subscribe
  ordered : (h.subscribers.map Subscriber.id).Pairwise (· < ·)
  numbered : ∀ s ∈ h.subscribers, s.id < h.nextId
  stays : ∀ u, (∃ s ∈ h.subscribers, s.id = u ∧ s.listening = true) ↔ Stays calls u

theorem tells_new : Tells {} [] where
  next := rfl
  ordered := .nil
  numbered := by simp
  stays u := by simp [not_stays_nil]

theorem Tells.subscribe (ht : h.Tells calls) : h.subscribe.1.Tells (calls ++ [.subscribe]) where
  next := by simp [Hub.subscribe, ht.next]
  ordered := by
    rw [Hub.subscribe, List.map_append, List.pairwise_append]
    refine ⟨ht.ordered, List.pairwise_singleton _ _, fun a ha b hb => ?_⟩
    obtain ⟨s, hs, rfl⟩ := List.mem_map.mp ha
    rw [List.mem_singleton.mp hb]
    exact ht.numbered s hs
  numbered := by
    intro s hs
    rcases List.mem_append.mp hs with hs | hs
    · exact Nat.lt_succ_of_lt (ht.numbered s hs)
    · rw [List.mem_singleton.mp hs]
      exact Nat.lt_succ_self _
  stays := by
    intro u
    rw [stays_append_singleton, ← ht.stays, ← ht.next]
    constructor
    · rintro ⟨s, hs, hu, hl⟩
      rcases List.mem_append.mp hs with hs | hs
      · exact .inl ⟨⟨s, hs, hu, hl⟩, by simp⟩
      · rw [List.mem_singleton.mp hs] at hu
        exact .inr ⟨rfl, hu.symm⟩
    · rintro (⟨⟨s, hs, hu, hl⟩, -⟩ | ⟨-, rfl⟩)
      · exact ⟨s, List.mem_append_left _ hs, hu, hl⟩
      · exact ⟨{ id := h.nextId }, List.mem_append_right _ (List.mem_singleton_self _), rfl, rfl⟩

theorem Tells.publish (ht : h.Tells calls) (e : Envelope) :
    (h.publish e).Tells (calls ++ [.publish e]) where
  next := by simp [Hub.publish, ht.next]
  ordered := by
    rw [Hub.publish, List.map_map]
    exact ht.ordered.sublist (List.filter_sublist.map Subscriber.id)
  numbered := by
    intro s hs
    obtain ⟨x, hx, rfl⟩ := List.mem_map.mp hs
    exact ht.numbered x (List.mem_filter.mp hx |>.1)
  stays := by
    intro u
    rw [stays_append_singleton, ← ht.stays]
    simp only [Hub.publish, List.mem_map, List.mem_filter, exists_exists_and_eq_and]
    constructor
    · rintro ⟨s, ⟨hs, -⟩, hu, hl⟩
      exact .inl ⟨⟨s, hs, hu, hl⟩, by simp⟩
    · rintro (⟨⟨s, hs, hu, hl⟩, -⟩ | ⟨hc, -⟩)
      · exact ⟨s, ⟨hs, hl⟩, hu, hl⟩
      · cases hc

def change (h : Hub) (v : Nat) (f : Subscriber → Subscriber) : Hub :=
  { h with subscribers := h.subscribers.map fun s => if s.id = v then f s else s }

theorem Tells.change (ht : h.Tells calls) {f : Subscriber → Subscriber} (hf : ∀ s, (f s).id = s.id)
    (hc : c ≠ .subscribe)
    (hs : ∀ u, (∃ s ∈ h.subscribers, s.id = u ∧
        (if s.id = v then f s else s).listening = true) ↔ Stays calls u ∧ c ≠ .leave u) :
    (h.change v f).Tells (calls ++ [c]) := by
  have hid : ∀ s : Subscriber, (if s.id = v then f s else s).id = s.id := by
    intro s
    split
    · exact hf s
    · rfl
  have hids : (h.change v f).subscribers.map Subscriber.id = h.subscribers.map Subscriber.id := by
    simp [Hub.change, hid]
  refine ⟨?_, hids ▸ ht.ordered, fun s hm => ?_, fun u => ?_⟩
  · rw [List.count_append, List.count_singleton, if_neg (by simpa using hc)]
    exact ht.next
  · obtain ⟨x, hx, rfl⟩ := List.mem_map.mp hm
    rw [hid]
    exact ht.numbered x hx
  · rw [stays_append_singleton, ← hs]
    simp [Hub.change, hc, hid]

theorem Tells.leave (ht : h.Tells calls) (v : Nat) : (h.leave v).Tells (calls ++ [.leave v]) := by
  refine ht.change (v := v) (fun _ => rfl) (by simp) fun u => ?_
  rw [← ht.stays]
  constructor
  · rintro ⟨s, hs, rfl, hl⟩
    split at hl
    · cases hl
    · next hv => exact ⟨⟨s, hs, rfl, hl⟩, by simpa using Ne.symm hv⟩
  · rintro ⟨⟨s, hs, rfl, hl⟩, hv⟩
    have hne : s.id ≠ v := fun he => hv (he ▸ rfl)
    exact ⟨s, hs, rfl, by rwa [if_neg hne]⟩

theorem Tells.receive (ht : h.Tells calls) (v : Nat) :
    (h.receive v).1.Tells (calls ++ [.receive v]) := by
  refine ht.change (v := v) (fun _ => rfl) (by simp) fun u => ?_
  have hl : ∀ s : Subscriber,
      (if s.id = v then { s with inbox := [] } else s).listening = s.listening := by
    intro s
    split <;> rfl
  simp [hl, ht.stays]

theorem Tells.perform (ht : h.Tells calls) (c : Call) : (h.perform c).Tells (calls ++ [c]) := by
  cases c with
  | subscribe => exact ht.subscribe
  | leave v => exact ht.leave v
  | publish e => exact ht.publish e
  | receive v => exact ht.receive v

theorem tells_after (calls : List Call) : (({} : Hub).after calls).Tells calls := by
  induction calls using List.reverseRecOn with
  | nil => exact tells_new
  | append_singleton calls c ih =>
    rw [after_append]
    exact ih.perform c

theorem Tells.waiting_eq_nil (ht : h.Tells calls) (hu : calls.count .subscribe ≤ u) :
    h.waiting u = [] := by
  have hnone : h.subscribers.find? (fun s => s.id = u) = none := by
    rw [List.find?_eq_none]
    intro s hs
    have hlt := ht.numbered s hs
    rw [ht.next] at hlt
    simp only [decide_eq_true_eq]
    omega
  simp [waiting, hnone]

theorem received_eq_nil (hu : calls.count .subscribe ≤ u) : ({} : Hub).received u calls = [] := by
  induction calls using List.reverseRecOn with
  | nil => rfl
  | append_singleton calls c ih =>
    have hle : calls.count .subscribe ≤ u := by
      rw [List.count_append] at hu
      omega
    have hwaiting := (tells_after calls).waiting_eq_nil hle
    rw [received_append, ih hle, received, received, handed]
    split
    · exact congrArg (· ++ []) hwaiting
    · rfl

theorem Tells.hears_subscribed (ht : h.Tells calls) :
    h.subscribe.1.Hears (calls.count .subscribe) [] := by
  have hnone : h.subscribers.find? (fun s => s.id = h.nextId) = none := by
    rw [List.find?_eq_none]
    intro s hs
    simpa using Nat.ne_of_lt (ht.numbered s hs)
  refine ⟨{ id := h.nextId }, ?_, rfl, rfl⟩
  rw [← ht.next]
  simp [Hub.subscribe, List.find?_append, hnone]

/-- A subscriber who does not leave is sent what is published after it came, and nothing else. -/
theorem seen_subscribed (before : List Call) {later : List Call}
    (hl : .leave (before.count .subscribe) ∉ later) :
    ({} : Hub).seen (before.count .subscribe) (before ++ .subscribe :: later) = published later := by
  have hhears := (tells_after before).hears_subscribed.seen hl
  have hnone := received_eq_nil (Nat.le_refl (before.count .subscribe))
  rw [seen, received_append, hnone, after_append]
  exact hhears

theorem Stays.seen_suffix (hu : Stays calls u) (hv : Stays calls v) (huv : u ≤ v) :
    ({} : Hub).seen v calls <:+ ({} : Hub).seen u calls := by
  obtain ⟨before, later, rfl, rfl, hl⟩ := hu
  obtain ⟨before', later', heq, rfl, hl'⟩ := hv
  rw [seen_subscribed before hl, heq, seen_subscribed before' hl']
  obtain ⟨mid, -, hmid⟩ | ⟨mid, rfl, hmid⟩ := List.append_eq_append_iff.mp heq
  · -- Nothing but the subscriptions themselves can come before the later one.
    cases mid with
    | nil => exact (List.cons.inj hmid).2 ▸ List.suffix_refl _
    | cons d mid =>
      obtain ⟨-, rfl⟩ := List.cons.inj hmid
      exact ((List.suffix_cons _ _).trans (List.suffix_append mid _)).filterMap _
  · cases mid with
    | nil => exact (List.cons.inj hmid).2 ▸ List.suffix_refl _
    | cons d mid =>
      obtain ⟨rfl, -⟩ := List.cons.inj hmid
      rw [List.count_append, List.count_cons_self] at huv
      omega

/-- Right after a publication just those are listed who stay, in the order in which they came. -/
theorem Tells.listed (ht : h.Tells calls) (e : Envelope) :
    ((h.publish e).subscribers.map Subscriber.id).Pairwise (· < ·) ∧
      ∀ u, u ∈ (h.publish e).subscribers.map Subscriber.id ↔ Stays calls u := by
  refine ⟨(ht.publish e).ordered, fun u => ?_⟩
  rw [← ht.stays, List.mem_map]
  simp only [Hub.publish, List.mem_map, List.mem_filter, exists_exists_and_eq_and]
  exact exists_congr fun s => ⟨fun ⟨⟨hs, hl⟩, hu⟩ => ⟨hs, hu, hl⟩, fun ⟨hs, hu, hl⟩ => ⟨⟨hs, hl⟩, hu⟩⟩

end Conduit.Hub

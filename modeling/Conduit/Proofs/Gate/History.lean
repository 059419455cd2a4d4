import Conduit.Proofs.Engine.Serve
import Mathlib.Data.List.DropRight
import Mathlib.Data.List.Infix

/-!
A gate told from what happened at it. Its flags and its count are the history in short: a wait passes
as the history says, and nothing else happens while one is due.
-/
namespace Conduit.GateDesk

inductive Event where
  | resumed
  | aborted
  | asked (ticket : Nat)
  | passed (ticket : Nat) (outcome : GateOutcome)
deriving DecidableEq

namespace Event

def usesPermit : Event → Bool
  | passed _ .resumed => true
  | _ => false

def pending (before : Option Nat) : Event → Option Nat
  | asked t => some t
  | passed _ _ => none
  | _ => before

end Event

def pending (h : List Event) : Option Nat := h.foldl Event.pending none

/-- What happened since the last permit was used up, all of it if none was. -/
def sincePermit (h : List Event) : List Event := h.rtakeWhile fun e => !e.usesPermit

def verdict (h : List Event) : Option GateOutcome :=
  if .aborted ∈ h then some .aborted
  else if .resumed ∈ sincePermit h then some .resumed
  else none

/-- What may happen after `h`: a wait returns with what is due to it, and while one is due nothing else
happens. -/
def Follows (h : List Event) : Event → Prop
  | .passed t o => pending h = some t ∧ verdict h = some o
  | .asked _ => pending h = none
  | _ => pending h ≠ none → verdict h = none

def told (ticket : Nat) (a : Answer) : Gate.Call → List Event
  | .resume => .resumed :: a.completed.map fun p => .passed p.1 p.2
  | .abort => .aborted :: a.completed.map fun p => .passed p.1 p.2
  | .wait => .asked ticket :: a.reply.toList.map (.passed ticket)

def next (r : GateDesk × List Event) (call : Nat × Gate.Call) : GateDesk × List Event :=
  let (desk, a) := r.1.perform call.1 call.2
  (desk, r.2 ++ told call.1 a call.2)

def play (calls : List (Nat × Gate.Call)) : GateDesk × List Event := calls.foldl next ({}, [])

def OneAtATime (calls : List (Nat × Gate.Call)) : Prop :=
  ∀ before, before <+: calls → (play before).1.blocked.length ≤ 1

instance (calls : List (Nat × Gate.Call)) : Decidable (OneAtATime calls) :=
  decidable_of_iff (∀ before ∈ calls.inits, (play before).1.blocked.length ≤ 1) (by
    simp only [List.mem_inits, OneAtATime])

variable {h before later : List Event} {e : Event} {t : Nat} {o : GateOutcome} {g : Gate}
  {d : GateDesk} {calls : List (Nat × Gate.Call)}

@[simp] theorem pending_append (h : List Event) (e : Event) :
    pending (h ++ [e]) = e.pending (pending h) := by
  simp [pending]

theorem sincePermit_append (h : List Event) (e : Event) :
    sincePermit (h ++ [e]) = if e.usesPermit then [] else sincePermit h ++ [e] := by
  simp only [sincePermit, List.rtakeWhile_concat]
  cases e.usesPermit <;> simp

theorem verdict_asked (h : List Event) (t : Nat) : verdict (h ++ [.asked t]) = verdict h := by
  simp [verdict, sincePermit_append, Event.usesPermit]

theorem verdict_aborted (h : List Event) : verdict (h ++ [.aborted]) = some .aborted := by
  simp [verdict]

theorem verdict_resumed (hv : verdict h = none) : verdict (h ++ [.resumed]) = some .resumed := by
  have ha : Event.aborted ∉ h := fun ha => by simp [verdict, ha] at hv
  simp [verdict, ha, sincePermit_append, Event.usesPermit]

/-- The flags and the count of a gate say what its history says. -/
structure Tells (g : Gate) (h : List Event) : Prop where
  aborted : g.aborted = true ↔ .aborted ∈ h
  permit : g.permit = true ↔ .resumed ∈ sincePermit h
  count : g.resumed = .ofNat (h.countP Event.usesPermit)

theorem Tells.asked (hg : Tells g h) (t : Nat) : Tells g (h ++ [.asked t]) where
  aborted := by simpa using hg.aborted
  permit := by simpa [sincePermit_append, Event.usesPermit] using hg.permit
  count := by simpa [Event.usesPermit] using hg.count

theorem Tells.resume (hg : Tells g h) : Tells g.resume (h ++ [.resumed]) where
  aborted := by simpa [Gate.resume] using hg.aborted
  permit := by simp [Gate.resume, sincePermit_append, Event.usesPermit]
  count := by simpa [Gate.resume, Event.usesPermit] using hg.count

theorem Tells.abort (hg : Tells g h) : Tells g.abort (h ++ [.aborted]) where
  aborted := by simp [Gate.abort]
  permit := by simpa [Gate.abort, sincePermit_append, Event.usesPermit] using hg.permit
  count := by simpa [Gate.abort, Event.usesPermit] using hg.count

theorem Tells.pass (hg : Tells g h) (hv : verdict h = some o) (t : Nat) :
    ∃ g', g.wait = (g', some o) ∧ g'.waiting = false ∧ Tells g' (h ++ [.passed t o]) := by
  unfold verdict at hv
  obtain ⟨ha, hw⟩ | ⟨ha, hp, hw⟩ | ⟨ha, hp, hw⟩ := g.wait_cases
  · obtain rfl : GateOutcome.aborted = o := by simpa [hg.aborted.mp ha] using hv
    refine ⟨_, hw, rfl, ?_, ?_, ?_⟩
    · simpa using hg.aborted
    · simpa [sincePermit_append, Event.usesPermit] using hg.permit
    · simpa [Event.usesPermit] using hg.count
  · have hn : Event.aborted ∉ h := fun h' => by simp [hg.aborted.mpr h'] at ha
    obtain rfl : GateOutcome.resumed = o := by simpa [hn, hg.permit.mp hp] using hv
    refine ⟨_, hw, rfl, ?_, ?_, ?_⟩
    · simpa using hg.aborted
    · simp [sincePermit_append, Event.usesPermit]
    · simp [Event.usesPermit, hg.count]
  · have hn : Event.aborted ∉ h := fun h' => by simp [hg.aborted.mpr h'] at ha
    have hs : Event.resumed ∉ sincePermit h := fun h' => by simp [hg.permit.mpr h'] at hp
    simp [hn, hs] at hv

theorem Tells.block (hg : Tells g h) (hv : verdict h = none) :
    g.wait = ({ g with waiting := true }, none) := by
  unfold verdict at hv
  obtain ⟨ha, -⟩ | ⟨-, hp, -⟩ | ⟨-, -, hw⟩ := g.wait_cases
  · simp [hg.aborted.mp ha] at hv
  · rw [if_pos (hg.permit.mp hp)] at hv
    split at hv <;> cases hv
  · exact hw

def Lawful (h : List Event) : Prop :=
  ∀ before e later, h = before ++ e :: later → Follows before e

theorem Lawful.append (hl : Lawful h) (he : Follows h e) : Lawful (h ++ [e]) := by
  intro before e' later heq
  rcases List.eq_nil_or_concat later with rfl | ⟨later, x, rfl⟩
  · obtain ⟨rfl, hx⟩ := List.append_inj' heq rfl
    exact (List.cons.inj hx).1 ▸ he
  · have hs : h ++ [e] = (before ++ e' :: later) ++ [x] := by simpa using heq
    exact hl before e' later (List.append_inj' hs rfl).1

structure Agrees (d : GateDesk) (h : List Event) : Prop where
  gate : Tells d.gate h
  waiting : d.gate.waiting = (pending h).isSome
  blocked : d.blocked = (pending h).toList
  settled : pending h ≠ none → verdict h = none
  lawful : Lawful h

theorem Tells.atRest (hg : Tells g h) (hw : g.waiting = false) (hp : pending h = none)
    (hl : Lawful h) : Agrees ⟨g, []⟩ h :=
  ⟨hg, by rw [hp]; exact hw, by rw [hp]; rfl, fun h' => absurd hp h', hl⟩

theorem agrees_new : Agrees {} [] where
  gate := ⟨by simp, by simp [sincePermit], rfl⟩
  waiting := rfl
  blocked := rfl
  settled := fun h => absurd rfl h
  lawful := by
    intro before e later h
    exact absurd h.symm (by simp)

/-- A resume or an abort lets the wait go that is under way, if there is one. -/
theorem Agrees.rouse (ha : Agrees d h) (hg : Tells g (h ++ [e])) (hw : g.waiting = d.gate.waiting)
    (hp : e.pending (pending h) = pending h) (he : Follows h e)
    (hv : pending h ≠ none → verdict (h ++ [e]) = some o) :
    Agrees (retry g d.blocked).1
      (h ++ e :: (retry g d.blocked).2.map fun p => .passed p.1 p.2) := by
  have hl : Lawful (h ++ [e]) := ha.lawful.append he
  have hpe : pending (h ++ [e]) = pending h := by rw [pending_append, hp]
  rw [ha.blocked]
  cases hh : pending h with
  | none =>
    have hidle : g.waiting = false := by rw [hw, ha.waiting, hh]; rfl
    exact hg.atRest hidle (hpe.trans hh) hl
  | some t =>
    have ho : verdict (h ++ [e]) = some o := hv (by simp [hh])
    obtain ⟨g', hwait, hidle, hg'⟩ := hg.pass ho t
    have hr : retry g (some t).toList = (⟨g', []⟩, [(t, o)]) := by
      simp [retry, hwait]
    have hassoc : h ++ e :: [(t, o)].map (fun p => Event.passed p.1 p.2) =
        (h ++ [e]) ++ [.passed t o] := by simp
    rw [hr, hassoc]
    exact hg'.atRest hidle (pending_append _ _) (hl.append ⟨hpe.trans hh, ho⟩)

/-- A wait that begins where none is under way is let go at once, or it is the one that is blocked. -/
theorem Agrees.wait (ha : Agrees d h) (hn : pending h = none) (t : Nat) :
    Agrees (d.perform t .wait).1 (h ++ told t (d.perform t .wait).2 .wait) := by
  have hg : Tells d.gate (h ++ [.asked t]) := ha.gate.asked t
  have hl : Lawful (h ++ [.asked t]) := ha.lawful.append hn
  have hp : pending (h ++ [.asked t]) = some t := by rw [pending_append]; rfl
  have hb : d.blocked = [] := by rw [ha.blocked, hn]; rfl
  cases hv : verdict (h ++ [.asked t]) with
  | none =>
    have hd : d.perform t .wait = (⟨{ d.gate with waiting := true }, [t]⟩, {}) := by
      simp [perform, hg.block hv, hb]
    rw [hd]
    exact ⟨⟨hg.aborted, hg.permit, hg.count⟩, by rw [told, Option.toList, List.map_nil, hp]; rfl,
      by rw [told, Option.toList, List.map_nil, hp]; rfl, fun _ => hv, hl⟩
  | some o =>
    obtain ⟨g', hwait, hidle, hg'⟩ := hg.pass hv t
    have hd : d.perform t .wait = (⟨g', []⟩, { reply := some o }) := by
      simp [perform, hwait, hb]
    have hassoc : h ++ told t { reply := some o } .wait = (h ++ [.asked t]) ++ [.passed t o] := by
      simp [told]
    rw [hd, hassoc]
    exact hg'.atRest hidle (pending_append _ _) (hl.append ⟨hp, hv⟩)

theorem Agrees.next (ha : Agrees d h) (call : Nat × Gate.Call)
    (hc : call.2 = .wait → pending h = none) :
    Agrees (GateDesk.next (d, h) call).1 (GateDesk.next (d, h) call).2 := by
  obtain ⟨t, call⟩ := call
  cases call with
  | resume =>
    exact ha.rouse ha.gate.resume rfl rfl ha.settled fun hp => verdict_resumed (ha.settled hp)
  | abort => exact ha.rouse ha.gate.abort rfl rfl ha.settled fun _ => verdict_aborted h
  | wait => exact ha.wait (hc rfl) t

theorem play_append (calls : List (Nat × Gate.Call)) (call : Nat × Gate.Call) :
    play (calls ++ [call]) = GateDesk.next (play calls) call := by
  simp [play]

theorem OneAtATime.init {call : Nat × Gate.Call} (single : OneAtATime (calls ++ [call])) :
    OneAtATime calls :=
  fun before hb => single before (hb.trans (List.prefix_append _ _))

theorem OneAtATime.idle (single : OneAtATime (calls ++ [(t, .wait)]))
    (ha : Agrees (play calls).1 (play calls).2) : pending (play calls).2 = none := by
  by_contra hp
  have hb := single _ List.prefix_rfl
  obtain ⟨s, hs⟩ := Option.ne_none_iff_exists'.mp hp
  rw [play_append] at hb
  have hw := ha.gate.block (ha.settled hp)
  simp [GateDesk.next, perform, hw, ha.blocked, hs] at hb

theorem agrees_play (single : OneAtATime calls) : Agrees (play calls).1 (play calls).2 := by
  induction calls using List.reverseRecOn with
  | nil => exact agrees_new
  | append_singleton calls call ih =>
    have ha := ih single.init
    rw [play_append]
    obtain ⟨t, call⟩ := call
    refine ha.next (t, call) ?_
    rintro rfl
    exact single.idle ha

theorem Agrees.passes_next (ha : Agrees d (before ++ later)) (hp : pending before = some t)
    (hv : verdict before = some o) : ∃ tail, later = .passed t o :: tail := by
  cases later with
  | nil =>
    rw [List.append_nil] at ha
    exact absurd (ha.settled (by simp [hp])) (by simp [hv])
  | cons e tail =>
    have he := ha.lawful before e tail rfl
    cases e with
    | passed t' o' =>
      obtain rfl : t = t' := Option.some.inj (hp.symm.trans he.1)
      obtain rfl : o = o' := Option.some.inj (hv.symm.trans he.2)
      exact ⟨tail, rfl⟩
    | asked t' => exact absurd (hp.symm.trans he) (by simp)
    | resumed => exact absurd (he (by simp [hp])) (by simp [hv])
    | aborted => exact absurd (he (by simp [hp])) (by simp [hv])

/-- A wait to which nothing is due yet goes on until the next resume or abort, and no further. -/
theorem Agrees.blocks_until (ha : Agrees d (before ++ later)) (hp : pending before = some t)
    (hv : verdict before = none) :
    later = [] ∨ (∃ tail, later = .resumed :: .passed t .resumed :: tail) ∨
      ∃ tail, later = .aborted :: .passed t .aborted :: tail := by
  cases later with
  | nil => exact .inl rfl
  | cons e tail =>
    have he := ha.lawful before e tail rfl
    have hassoc : before ++ e :: tail = (before ++ [e]) ++ tail := by simp
    rw [hassoc] at ha
    cases e with
    | passed t' o' => exact absurd (hv.symm.trans he.2) (by simp)
    | asked t' => exact absurd (hp.symm.trans he) (by simp)
    | resumed =>
      obtain ⟨tail, rfl⟩ := ha.passes_next ((pending_append _ _).trans hp) (verdict_resumed hv)
      exact .inr (.inl ⟨tail, rfl⟩)
    | aborted =>
      obtain ⟨tail, rfl⟩ := ha.passes_next ((pending_append _ _).trans hp) (verdict_aborted before)
      exact .inr (.inr ⟨tail, rfl⟩)

theorem verdict_eq_aborted : verdict h = some .aborted ↔ .aborted ∈ h := by
  unfold verdict
  split <;> simp_all

theorem verdict_eq_resumed :
    verdict h = some .resumed ↔ .aborted ∉ h ∧ .resumed ∈ sincePermit h := by
  unfold verdict
  split <;> simp_all

theorem sincePermit_passed (before mid : List Event) (t : Nat) {e : Event}
    (hm : e ∈ sincePermit (before ++ .passed t .resumed :: mid)) : e ∈ mid := by
  induction mid using List.reverseRecOn with
  | nil =>
    rwa [sincePermit_append, Event.usesPermit, if_pos rfl] at hm
  | append_singleton mid x ih =>
    have hassoc : before ++ .passed t .resumed :: (mid ++ [x]) =
        (before ++ .passed t .resumed :: mid) ++ [x] := by simp
    rw [hassoc, sincePermit_append] at hm
    split at hm
    · exact absurd hm (by simp)
    · rcases List.mem_append.mp hm with hm | hm
      · exact List.mem_append_left _ (ih hm)
      · exact List.mem_append_right _ hm

theorem Agrees.resumes (ha : Agrees d h) (hp : pending h = none) (tickets : List Nat) :
    let r := (tickets.map (·, Gate.Call.resume)).foldl GateDesk.next (d, h)
    Agrees r.1 r.2 ∧ pending r.2 = none ∧ r.2 = h ++ tickets.map fun _ => .resumed := by
  induction tickets generalizing d h with
  | nil => exact ⟨ha, hp, by simp⟩
  | cons t tickets ih =>
    have hb : d.blocked = [] := by rw [ha.blocked, hp]; rfl
    have hn : GateDesk.next (d, h) (t, .resume) = (⟨d.gate.resume, []⟩, h ++ [.resumed]) := by
      simp [GateDesk.next, perform, hb, retry, told]
    have ha' := ha.next (t, .resume) (by simp)
    rw [hn] at ha'
    obtain ⟨hr, hp', hh⟩ := ih ha' ((pending_append _ _).trans hp)
    rw [List.map_cons, List.foldl_cons, hn]
    exact ⟨hr, hp', by rw [hh]; simp⟩

theorem verdict_resumes (ha : .aborted ∉ h) {tickets : List Nat} (hne : tickets ≠ []) :
    verdict (h ++ tickets.map fun _ => .resumed) = some .resumed := by
  obtain ⟨tickets, t, rfl⟩ := List.eq_nil_or_concat tickets |>.resolve_left hne
  rw [verdict_eq_resumed]
  refine ⟨by simp [ha], ?_⟩
  have hsnoc : h ++ (tickets.concat t).map (fun _ => Event.resumed) =
      (h ++ tickets.map fun _ => .resumed) ++ [.resumed] := by simp
  rw [hsnoc, sincePermit_append, if_neg (by decide)]
  exact List.mem_append_right _ (List.mem_singleton_self _)

theorem verdict_passed (ha : .aborted ∉ h) (t : Nat) :
    verdict (h ++ [.passed t .resumed]) = none := by
  simp [verdict, ha, sincePermit_append, Event.usesPermit]

theorem Agrees.next_wait (ha : Agrees d h) (hp : pending h = none) (t : Nat) :
    (GateDesk.next (d, h) (t, .wait)).2 =
      h ++ .asked t :: (verdict h).toList.map (.passed t) := by
  have hb : d.blocked = [] := by rw [ha.blocked, hp]; rfl
  cases hv : verdict h with
  | none => simp [GateDesk.next, perform, ha.gate.block hv, told]
  | some o =>
    obtain ⟨g', hwait, -⟩ := ha.gate.pass hv t
    simp [GateDesk.next, perform, hwait, told]

/-- However often a gate was resumed while no wait was under way, one wait is let go and the next is
blocked. -/
theorem Agrees.one_wait (ha : Agrees d h) (hp : pending h = none) (hn : .aborted ∉ h)
    {tickets : List Nat} (hne : tickets ≠ []) (first second : Nat) :
    ((tickets.map (·, Gate.Call.resume) ++
        [(first, Gate.Call.wait), (second, Gate.Call.wait)]).foldl GateDesk.next (d, h)).2 =
      h ++ tickets.map (fun _ => .resumed) ++
        [.asked first, .passed first .resumed, .asked second] := by
  obtain ⟨hr, hp', hh⟩ := ha.resumes hp tickets
  rw [List.foldl_append]
  generalize (tickets.map (·, Gate.Call.resume)).foldl GateDesk.next (d, h) = r at hr hp' hh ⊢
  have hv : verdict r.2 = some .resumed := by rw [hh]; exact verdict_resumes hn hne
  have hr₁ := hr.next (first, .wait) fun _ => hp'
  have h₁ : (GateDesk.next r (first, .wait)).2 =
      (r.2 ++ [.asked first]) ++ [.passed first .resumed] := by
    rw [hr.next_wait hp', hv]; simp
  have hp₁ : pending (GateDesk.next r (first, .wait)).2 = none := by
    rw [h₁, pending_append]; rfl
  have hv₁ : verdict (GateDesk.next r (first, .wait)).2 = none := by
    rw [h₁]; exact verdict_passed (by simp [hh, hn]) first
  have h₂ : (GateDesk.next (GateDesk.next r (first, .wait)) (second, .wait)).2 =
      (GateDesk.next r (first, .wait)).2 ++ [.asked second] := by
    rw [hr₁.next_wait hp₁, hv₁]; rfl
  rw [List.foldl_cons, List.foldl_cons, List.foldl_nil, h₂, h₁, hh]
  simp

/-- A gate with one wait at a time is a gate with one permit. A wait returns as aborted once there was
an abort, and as resumed if there was a resume since the last wait that returned so; with neither it is
blocked until the next resume or abort, which lets it go. Between two waits that return as resumed there
is a resume, and however many there are, they let one wait go. The count is that of the waits that
returned as resumed, in 32 bits, and the gate is waiting while a wait is blocked. -/
theorem waits_pass_as_the_history_says (calls : List (Nat × Gate.Call))
    (single : OneAtATime calls) :
    let d := (play calls).1
    let h := (play calls).2
    (∀ before t later, h = before ++ .asked t :: later →
      match verdict before with
      | some outcome => ∃ rest, later = .passed t outcome :: rest
      | none => later = [] ∨ (∃ rest, later = .resumed :: .passed t .resumed :: rest) ∨
          ∃ rest, later = .aborted :: .passed t .aborted :: rest) ∧
    (∀ before t outcome later, h = before ++ .passed t outcome :: later →
      pending before = some t ∧ (outcome = .aborted ↔ .aborted ∈ before) ∧
        (outcome = .resumed ↔ .aborted ∉ before ∧ .resumed ∈ sincePermit before)) ∧
    (∀ before t mid t' later,
      h = before ++ .passed t .resumed :: (mid ++ .passed t' .resumed :: later) →
        .resumed ∈ mid) ∧
    (∀ tickets first second, d.blocked = [] → .aborted ∉ h → tickets ≠ [] →
      (play (calls ++ (tickets.map (·, .resume) ++ [(first, .wait), (second, .wait)]))).2 =
        h ++ tickets.map (fun _ => .resumed) ++
          [.asked first, .passed first .resumed, .asked second]) ∧
    d.gate.resumed = .ofNat (h.countP Event.usesPermit) ∧
    (d.gate.waiting = true ↔ d.blocked ≠ []) ∧
    d.blocked = (pending h).toList ∧ (d.blocked ≠ [] → verdict h = none) := by
  intro d h
  have ha : Agrees d h := agrees_play single
  have hblocked : d.blocked = [] ↔ pending h = none := by
    rw [ha.blocked]; cases pending h <;> simp
  refine ⟨?_, ?_, ?_, ?_, ha.gate.count, ?_, ha.blocked, fun hb => ha.settled (mt hblocked.mpr hb)⟩
  · intro before t later heq
    have hassoc : before ++ .asked t :: later = (before ++ [.asked t]) ++ later := by simp
    rw [heq, hassoc] at ha
    have hp : pending (before ++ [.asked t]) = some t := pending_append _ _
    split
    · next outcome hv => exact ha.passes_next hp ((verdict_asked before t).trans hv)
    · next hv => exact ha.blocks_until hp ((verdict_asked before t).trans hv)
  · intro before t outcome later heq
    obtain ⟨hp, hv⟩ := ha.lawful _ _ _ heq
    rw [← verdict_eq_resumed, ← verdict_eq_aborted, hv]
    exact ⟨hp, by simp, by simp⟩
  · intro before t mid t' later heq
    have hassoc : before ++ .passed t .resumed :: (mid ++ .passed t' .resumed :: later) =
        (before ++ .passed t .resumed :: mid) ++ .passed t' .resumed :: later := by simp
    obtain ⟨-, hv⟩ := ha.lawful _ _ _ (heq.trans hassoc)
    exact sincePermit_passed before mid t (verdict_eq_resumed.mp hv).2
  · intro tickets first second hb hn hne
    rw [play, List.foldl_append]
    exact ha.one_wait (hblocked.mp hb) hn hne first second
  · rw [ha.waiting, Ne, hblocked]
    cases pending h <;> simp

theorem waits_pass_as_the_history_says_twice :
    let calls := [(0, .resume), (1, .resume), (2, .wait), (3, .wait), (4, .resume), (5, .abort),
      (6, .resume), (7, .wait)]
    OneAtATime calls ∧
      (play calls).2 = [.resumed, .resumed, .asked 2, .passed 2 .resumed, .asked 3, .resumed,
        .passed 3 .resumed, .aborted, .resumed, .asked 7, .passed 7 .aborted] ∧
      (play calls).1.gate.resumed = 2 ∧ (play calls).1.gate.waiting = false := by
  intro calls
  have hs : OneAtATime calls := by decide
  obtain ⟨-, -, -, -, hcount, hwaiting, -⟩ := waits_pass_as_the_history_says calls hs
  refine ⟨hs, by decide, hcount.trans (by decide), ?_⟩
  exact Bool.eq_false_iff.mpr fun h => hwaiting.mp h (by decide)

end Conduit.GateDesk

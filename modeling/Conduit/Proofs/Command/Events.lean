import Conduit.Command.Terminal
import Conduit.Proofs.Bridge.Replies

/-!
What happens at a terminal while a program runs there. Its lines are looked at one after the other, at any
time between the steps of the run, and whenever that is, each line that is input has been received, is in
the channel or has not been looked at.
-/
namespace Conduit
open Bridge (Beat Tick Ticks Call)

namespace Terminal

def callOf (controls : Bool) (line : String) : Call :=
  match actionOf controls line with
  | .input => .submit line
  | .resume => .resume
  | .stop => .stop

/-- The lines among those not looked at that will be input; behind one that is no text nothing is looked
at. -/
def inputOf (controls : Bool) : List (Option String) → List String
  | [] | none :: _ => []
  | some line :: unread =>
    match actionOf controls line with
    | .input => line :: inputOf controls unread
    | _ => inputOf controls unread

theorem inputOf_eq (controls : Bool) (typed : List (Option String)) :
    inputOf controls typed = ((typed.takeWhile Option.isSome).reduceOption).filter fun line =>
      actionOf controls line = .input := by
  induction typed with
  | nil => rfl
  | cons next unread ih =>
    cases next with
    | none => rfl
    | some line =>
      simp only [inputOf, ih, List.takeWhile_cons_of_pos, Option.isSome_some,
        List.reduceOption_cons_of_some, List.filter_cons]
      cases actionOf controls line <;> rfl

/-- One thing that happens while a program runs at a terminal: a run takes a step; the reader of the lines
looks at the next, or gives up at one that is no text, if the one before does not wait for room in the
channel; the program is called off from outside; or what was said is taken, which neither a run nor the
reader notices. -/
inductive Event (controls : Bool) (id : Nat) (unread : List (Option String)) (b : Bridge) :
    List Act → List (Option String) → Bridge → Prop
  | beat {before after : List Session} {s s' : Session} {b' : Bridge}
      (hs : b.sessions = before ++ s :: after) (h : Beat b s b' s') :
      Event controls id unread b ((b.beatDeeds s).map (.run s.id)) unread
        { b' with sessions := before ++ s' :: after }
  | look {line : String} {rest : List (Option String)} (ticket : Nat)
      (hunread : unread = some line :: rest) (hroom : b.channel.writers = []) :
      Event controls id unread b (b.applyActs (callOf controls line)) rest
        (b.apply ticket (callOf controls line)).1
  | giveUp {rest : List (Option String)} (hunread : unread = none :: rest)
      (hroom : b.channel.writers = []) : Event controls id unread b [] [] b
  | interrupt (ticket : Nat) : Event controls id unread b [] unread (b.apply ticket (.cancel id)).1
  | aside (journal : List Log.Entry) (admitted : List Nat) (waits : List (Nat × Wait)) (hub : Hub)
      (sink : Sink) : Event controls id unread b [] unread { b with journal, admitted, waits, hub, sink }

inductive Goes (controls : Bool) (id : Nat) (typed : List (Option String)) (b₀ : Bridge) :
    List Act → List (Option String) → Bridge → Prop
  | start : Goes controls id typed b₀ [] typed b₀
  | more {acts more : List Act} {unread rest : List (Option String)} {b c : Bridge}
      (h : Goes controls id typed b₀ acts unread b) (he : Event controls id unread b more rest c) :
      Goes controls id typed b₀ (acts ++ more) rest c

/-- No run can take a step, and no line is looked at before one does. -/
def Halted (unread : List (Option String)) (b : Bridge) : Prop :=
  b.Still ∧ (unread = [] ∨ b.channel.writers ≠ [])

variable {controls : Bool} {id : Nat} {config : Config} {work : Behaviour Ending} {inputs : List String}
  {typed unread rest : List (Option String)} {acts more : List Act} {b₀ b c : Bridge}

/-- What is true at any time of a terminal where `work` is done: every line that is input has been
received, is in the channel or has not been looked at, in this order. -/
structure Attends (controls : Bool) (id : Nat) (conf : Config) (work : Behaviour Ending)
    (inputs : List String) (acts : List Act) (unread : List (Option String)) (b : Bridge) : Prop
    extends b.Sound where
  listed : b.Listed
  config : b.config = conf
  room : b.channel.whenFull = .block ∨ inputs.length ≤ b.channel.limit
  run : ∃ s xs, b.sessions = [s] ∧ s.id = id ∧
    s.Underway conf.run.pause work xs (Act.deedsOf id acts)
  lines : Deed.receipts (Act.deedsOf id acts) ++ b.channel.pending ++ inputOf controls unread = inputs

namespace Attends

theorem beat (h : Attends controls id config work inputs acts unread b) {before after : List Session}
    {s s' : Session} {b' : Bridge} (hs : b.sessions = before ++ s :: after) (hb : Beat b s b' s') :
    Attends controls id config work inputs (acts ++ (b.beatDeeds s).map (.run s.id)) unread
      { b' with sessions := before ++ s' :: after } := by
  obtain ⟨t, xs, ht, rfl, hrun⟩ := h.run
  obtain ⟨rfl, rfl, rfl⟩ : before = [] ∧ s = t ∧ after = [] := by
    rw [ht] at hs
    cases before with
    | nil =>
      obtain ⟨rfl, rfl⟩ := List.cons.inj hs
      exact ⟨rfl, rfl, rfl⟩
    | cons u before => simp at hs
  have hm := hb.moves_beatDeeds
  have hb' : b'.config = b.config := by rw [hm.frame]
  obtain ⟨ys, hrun'⟩ := hrun.beat (h.config ▸ rfl) hb
  refine ⟨h.toSound.moves hs hm hb.moves.2.2, h.listed.moves hs hm, hb'.trans h.config,
    hm.whenFull ▸ hm.limit ▸ h.room, ⟨s', xs ++ ys, rfl, hm.id, ?_⟩, ?_⟩
  · rw [Act.deedsOf_append, Act.deedsOf_run_self]
    exact hrun'
  · rw [← h.lines, Act.deedsOf_append, Act.deedsOf_run_self, Deed.receipts_append, hm.pending,
      Bridge.removals_beatDeeds hrun.begun]
    simp only [List.append_assoc]

theorem apply (h : Attends controls id config work inputs acts unread b) (ticket : Nat) (call : Call)
    (hnew : b.newcomers call = [])
    (hin : inputOf controls unread = Act.submitted (b.applyActs call) ++ inputOf controls rest)
    (hout : (Act.removed (b.applyActs call)).map Prod.snd =
      Deed.receipts (Act.deedsOf id (b.applyActs call))) :
    Attends controls id config work inputs (acts ++ b.applyActs call) rest (b.apply ticket call).1 := by
  have ha := h.toSound.accounts (Bridge.steps_apply b ticket call)
  obtain ⟨s, xs, hs, rfl, hrun⟩ := h.run
  have hids := Bridge.ids_apply b ticket call
  rw [hs, hnew] at hids
  obtain ⟨s', hs', hid⟩ := List.map_eq_singleton_iff.mp hids
  refine ⟨ha.sound, h.listed.apply h.toSound ticket call, ha.config.trans h.config,
    ha.whenFull ▸ ha.limit ▸ h.room, ?_, ?_⟩
  · obtain ⟨t, ht, hn⟩ | ⟨-, hm⟩ := Bridge.mem_apply h.toSound ticket call (hs' ▸ List.mem_singleton_self s')
    · obtain rfl := List.mem_singleton.mp (hs ▸ ht)
      obtain ⟨ys, hrun'⟩ := hrun.nudge hn
      refine ⟨s', xs ++ ys, hs', hid, ?_⟩
      rw [Act.deedsOf_append]
      exact hrun'
    · rw [hnew] at hm
      cases hm
  · have hlines := ha.lines
    rw [hout] at hlines
    rw [← h.lines, hin, Act.deedsOf_append, Deed.receipts_append]
    simp only [List.append_assoc, ← hlines]

theorem kept {line : String} (h : Attends controls id config work inputs acts (some line :: rest) b)
    (haction : actionOf controls line = .input) (hfull : b.channel.isFull = true) :
    b.channel.whenFull = .block := by
  refine h.room.resolve_right fun hfits => ?_
  have hlines := congrArg List.length h.lines
  have hlimit : b.channel.limit ≤ b.channel.lines.length := of_decide_eq_true hfull
  simp only [inputOf, haction, Channel.pending, List.length_append, List.length_cons] at hlines
  omega

theorem look {line : String} (h : Attends controls id config work inputs acts (some line :: rest) b)
    (ticket : Nat) :
    Attends controls id config work inputs (acts ++ b.applyActs (callOf controls line)) rest
      (b.apply ticket (callOf controls line)).1 := by
  have hid : ∀ r ∈ b.channel.readers, r.ticket = id := by
    obtain ⟨s, -, hs, rfl, -⟩ := h.run
    intro r hr
    obtain ⟨-, t, ht, hti, -⟩ := h.readers r hr
    obtain rfl : t = s := List.mem_singleton.mp (hs ▸ ht)
    exact hti.symm
  have hnext : inputOf controls (some line :: rest) =
      (if actionOf controls line = .input then [line] else []) ++ inputOf controls rest := by
    rw [inputOf]
    cases actionOf controls line <;> rfl
  cases haction : actionOf controls line with
  | input =>
    obtain ⟨hin, hout⟩ := Bridge.submitActs_of_kept (h.kept haction) line hid
    have hcall : callOf controls line = .submit line := by rw [callOf, haction]
    rw [hcall]
    refine h.apply ticket _ rfl ?_ hout
    rw [hnext, if_pos haction]
    exact congrArg (· ++ _) hin.symm
  | resume =>
    obtain ⟨hin, hout, hdeeds⟩ := Bridge.resumeActs_quiet b id
    have hcall : callOf controls line = .resume := by rw [callOf, haction]
    rw [hcall]
    refine h.apply ticket _ rfl ?_ ?_
    · rw [hnext, haction]
      exact congrArg (· ++ _) hin.symm
    · simp only [Bridge.applyActs, hout, hdeeds]
      rfl
  | stop =>
    have hcall : callOf controls line = .stop := by rw [callOf, haction]
    rw [hcall]
    refine h.apply ticket _ rfl ?_ rfl
    rw [hnext, haction]
    rfl

theorem event (h : Attends controls id config work inputs acts unread b)
    (he : Event controls id unread b more rest c) :
    Attends controls id config work inputs (acts ++ more) rest c := by
  cases he with
  | beat hs hb => exact h.beat hs hb
  | look ticket hunread hroom =>
    subst hunread
    exact h.look ticket
  | giveUp hunread hroom =>
    subst hunread
    rw [List.append_nil]
    exact { h with }
  | interrupt ticket => exact h.apply ticket (.cancel id) rfl rfl rfl
  | aside journal admitted waits hub sink =>
    rw [List.append_nil]
    exact { h with
      channel := h.channel, writers := h.writers, ordered := h.ordered, known := h.known
      readers := h.readers, distinct := h.distinct, listed := h.listed }

theorem goes (h : Attends controls id config work inputs [] typed b₀)
    (hg : Goes controls id typed b₀ acts unread b) :
    Attends controls id config work inputs acts unread b := by
  induction hg with
  | start => exact h
  | more _ he ih => exact ih.event he

/-- A run that stands at a read when no line is left for it has received them all. -/
theorem receipts_eq (h : Attends controls id config work inputs acts unread b) {s : Session}
    (hs : s ∈ b.sessions) (hread : s.isReading = true)
    (hend : unread = [] ∨ b.channel.writers ≠ []) :
    Deed.receipts (Act.deedsOf id acts) = inputs := by
  obtain ⟨r, hr, -⟩ := h.listed s hs hread
  have hreaders := List.ne_nil_of_mem hr
  have hwriters := h.channel.no_writers hreaders
  obtain rfl | hwaits := hend
  · simp [← h.lines, Channel.pending, h.channel.empty hreaders, hwriters, inputOf]
  · exact absurd hwriters hwaits

theorem hasBegun (h : Attends controls id config work inputs acts unread b) :
    ∀ s ∈ b.sessions, s.hasBegun = true := by
  obtain ⟨s, _, hs, -, hrun⟩ := h.run
  rw [hs]
  exact List.forall_mem_singleton.mpr hrun.begun

theorem receipts_first (h : Attends controls id config work inputs acts unread b) :
    Deed.receipts (Act.deedsOf id acts) <+: inputs := by
  rw [← h.lines, List.append_assoc]
  exact List.prefix_append _ _

end Attends

/-! One event after the other -/

namespace Goes

theorem ticks (h : Goes controls id typed b₀ acts unread b) (ht : Ticks b c) :
    ∃ more, Goes controls id typed b₀ (acts ++ more) unread c := by
  induction ht with
  | refl => exact ⟨[], (List.append_nil acts).symm ▸ h⟩
  | tail _ htick ih =>
    obtain ⟨more, hg⟩ := ih
    cases htick with
    | beat hs hb => exact ⟨_, List.append_assoc acts more _ ▸ hg.more (.beat hs hb)⟩

/-- Whatever has happened, the run and the reader of the lines come to a halt. -/
theorem exists_halted (h : Goes controls id typed b₀ acts unread b) :
    ∃ more rest c, Goes controls id typed b₀ (acts ++ more) rest c ∧ Halted rest c := by
  induction unread generalizing acts b with
  | nil =>
    obtain ⟨c, ht, hc⟩ := Bridge.exists_still b
    obtain ⟨more, hg⟩ := h.ticks ht
    exact ⟨more, [], c, hg, hc, .inl rfl⟩
  | cons next unread ih =>
    obtain ⟨c, ht, hc⟩ := Bridge.exists_still b
    obtain ⟨more, hg⟩ := h.ticks ht
    by_cases hroom : c.channel.writers = []
    · cases next with
      | none =>
        refine ⟨more ++ [], [], c, ?_, hc, .inl rfl⟩
        rw [← List.append_assoc]
        exact hg.more (.giveUp rfl hroom)
      | some line =>
        obtain ⟨later, rest, d, hd, hhalted⟩ := ih (hg.more (.look 0 rfl hroom))
        rw [List.append_assoc, List.append_assoc] at hd
        exact ⟨_, rest, d, hd, hhalted⟩
    · exact ⟨more, _, c, hg, hc, .inr hroom⟩

/-! What a terminal does with its lines is one of the ways -/

theorem perform {ticket : Nat} {call : Call}
    (h : Goes controls id typed b₀ acts unread (b.apply ticket call).1) :
    ∃ more, Goes controls id typed b₀ (acts ++ more) unread (b.perform ticket call).1 := by
  obtain ⟨more, hg⟩ := h.ticks (Bridge.ticks_settle
    { (b.apply ticket call).1 with sessions := [] } (b.apply ticket call).1.sessions)
  refine ⟨more ++ [], ?_⟩
  rw [← List.append_assoc]
  exact hg.more (.aside _ _ _ _ _)

variable {t : Terminal}

theorem command {call : Call} (h : Goes controls id typed b₀ acts unread (t.bridge.apply 2 call).1) :
    ∃ more, Goes controls id typed b₀ (acts ++ more) unread (t.command call).bridge := by
  obtain ⟨more, hg⟩ := h.perform
  unfold Terminal.command
  simp only
  split
  · refine ⟨more ++ [], ?_⟩
    rw [← List.append_assoc]
    exact hg.more (.aside _ _ _ _ _)
  · exact ⟨more, hg⟩

theorem accept {line : String} (h : Goes controls id typed b₀ acts (some line :: rest) t.bridge)
    (hcontrols : t.controls = controls) (hroom : t.bridge.channel.writers = []) :
    ∃ more, Goes controls id typed b₀ (acts ++ more) rest (t.accept (some line)).bridge := by
  subst hcontrols
  have hlook := h.more (.look 2 rfl hroom)
  unfold Terminal.accept
  simp only
  unfold callOf at hlook
  cases haction : actionOf t.controls line <;> simp only [haction] at hlook ⊢
  · obtain ⟨more, hg⟩ := hlook.perform
    exact ⟨_, List.append_assoc acts _ more ▸ hg⟩
  · obtain ⟨more, hg⟩ := hlook.command
    exact ⟨_, List.append_assoc acts _ more ▸ hg⟩
  · obtain ⟨more, hg⟩ := hlook.command
    exact ⟨_, List.append_assoc acts _ more ▸ hg⟩

end Goes

end Terminal

end Conduit

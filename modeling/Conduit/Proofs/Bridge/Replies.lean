import Conduit.Proofs.Bridge.Settling
import Mathlib.Data.List.ReduceOption

/-!
What a run is told at its reads, one step after the other. Whatever is done around it, it goes through one
dialogue, in which its reads are answered by the lines that it receives, in their order, and by nothing
once it is called off.
-/
namespace Conduit

namespace Dialogue

def readReply? : Exchange → Option (Option String)
  | ⟨.read _, reply⟩ => some reply
  | _ => none

def replies (xs : List Exchange) : List (Option String) := xs.filterMap readReply?

@[simp] theorem replies_append (xs ys : List Exchange) : replies (xs ++ ys) = replies xs ++ replies ys :=
  List.filterMap_append

theorem receipts_request (policy : PausePolicy) (t : Tally) (r : Request) (reply : r.Reply) :
    Deed.receipts (r.deeds policy t reply) = (replies [⟨r, reply⟩]).reduceOption := by
  cases r with
  | tell s =>
    rw [Request.deeds, Deed.receipts_publish]
    rfl
  | read logged => cases reply <;> rfl
  | _ => rfl

end Dialogue

namespace Session
open Dialogue (replies readReply?)

/-- A run on its way through `work`: `xs` is what it and its surroundings have said to each other, and
`ds` what it has done. Its reads got the lines that it received, and then nothing if it was called off. -/
structure Underway (policy : PausePolicy) (work : Behaviour Ending) (xs : List Exchange)
    (ds : List Deed) (s : Session) : Prop where
  begun : s.hasBegun = true
  deeds : ds = Dialogue.deeds policy {} xs ++ s.closing
  tally : s.tally = ({} : Tally).after (Dialogue.deeds policy {} xs)
  leads : ∃ rest, work.Reaches xs rest ∧ s.Leaves rest
  reading : s.isReading = true → s.cancelled = false
  answered : ∃ n, replies xs = (Deed.receipts ds).map some ++ List.replicate n none ∧
    (s.cancelled = false → n = 0)

namespace Underway
variable {b b' : Bridge} {s s' : Session} {policy : PausePolicy} {work rest : Behaviour Ending}
  {xs : List Exchange} {ds es : List Deed}

theorem newcomer (policy : PausePolicy) (work : Behaviour Ending) (id : Nat) :
    ({ id, phase := .ready work } : Session).Underway policy work [] [] where
  begun := rfl
  deeds := rfl
  tally := rfl
  leads := ⟨work, .refl work, .inl rfl⟩
  reading := fun hread => by cases hread
  answered := ⟨0, rfl, fun _ => rfl⟩

theorem reaches (h : s.Underway policy work xs ds) (hw : s.work? = some rest) :
    work.Reaches xs rest := by
  obtain ⟨rest', hreach, he | ⟨outcome, -, he⟩⟩ := h.leads
  · rw [hw] at he
    exact Option.some.inj he ▸ hreach
  · rw [report?_eq_none hw] at he
    cases he

/-- A read gets the line of its number, or nothing because the run is called off. -/
theorem reply_eq (h : s.Underway policy work xs ds) {k : Nat} {reply : Option String}
    (hk : (replies xs)[k]? = some reply) :
    (∃ line, reply = some line ∧ (Deed.receipts ds)[k]? = some line) ∨
      reply = none ∧ s.cancelled = true := by
  obtain ⟨n, hn, hoff⟩ := h.answered
  rw [hn, List.getElem?_append] at hk
  split at hk
  · rw [List.getElem?_map] at hk
    obtain ⟨line, hline, rfl⟩ := Option.map_eq_some_iff.mp hk
    exact .inl ⟨line, rfl, hline⟩
  · obtain ⟨hpos, rfl⟩ := List.getElem?_eq_some_iff.mp hk
    refine .inr ⟨List.getElem_replicate _, ?_⟩
    by_contra hon
    rw [hoff (Bool.eq_false_of_not_eq_true hon)] at hpos
    exact Nat.not_lt_zero _ hpos

/-- As long as nobody calls the run off, its reads got all the lines that it received. -/
theorem replies_eq (h : s.Underway policy work xs ds) (hc : s.cancelled = false) :
    replies xs = (Deed.receipts ds).map some := by
  obtain ⟨n, hn, hoff⟩ := h.answered
  rw [hn, hoff hc, List.replicate_zero, List.append_nil]

/-! One step -/

theorem met {r : Request} {next : r.Reply → Behaviour Ending} {reply : r.Reply}
    (h : s.Underway policy work xs ds) (hw : s.work? = some (.ask r next))
    (phase : s'.phase = .ready (next reply))
    (tally : s'.tally = s.tally.after (r.deeds policy s.tally reply))
    (kept : s.cancelled = true → s'.cancelled = true)
    (told : ∀ answer, readReply? ⟨r, reply⟩ = some answer → answer.isNone = s'.cancelled) :
    s'.Underway policy work (xs ++ [⟨r, reply⟩]) (ds ++ r.deeds policy s.tally reply) := by
  have hw' : s'.work? = some (next reply) := by simp only [work?, phase]
  have hd : Dialogue.deeds policy {} (xs ++ [⟨r, reply⟩]) =
      Dialogue.deeds policy {} xs ++ r.deeds policy s.tally reply := by
    rw [Dialogue.deeds_append, Dialogue.deeds_singleton, ← h.tally]
  have hds := h.deeds
  rw [Transcript.closing_of_work hw, List.append_nil] at hds
  refine ⟨by simp [hasBegun, behind?, phase], ?_, ?_, ⟨_, (h.reaches hw).reply reply, .inl hw'⟩,
    fun hread => by simp [isReading, phase] at hread, ?_⟩
  · rw [hd, Transcript.closing_of_work hw', List.append_nil, ← hds]
  · rw [hd, Tally.after_append, tally, h.tally]
  · obtain ⟨n, hn, hoff⟩ := h.answered
    rw [Dialogue.replies_append, Deed.receipts_append, hn, Dialogue.receipts_request]
    cases ha : readReply? ⟨r, reply⟩ with
    | none =>
      refine ⟨n, by simp [replies, ha], fun hc => hoff (Bool.eq_false_iff.mpr fun hon => ?_)⟩
      rw [kept hon] at hc
      cases hc
    | some answer =>
      have htold := told answer ha
      have hone : replies [⟨r, reply⟩] = [answer] := by simp [replies, ha]
      rw [hone]
      cases answer with
      | none =>
        refine ⟨n + 1, ?_, fun hc => by rw [hc] at htold; cases htold⟩
        simp [List.replicate_succ']
      | some line =>
        have hon : s.cancelled = false := Bool.eq_false_iff.mpr fun hc => by
          rw [kept hc] at htold
          cases htold
        exact ⟨0, by simp [hoff hon], fun _ => rfl⟩

theorem still (h : s.Underway policy work xs ds) (id : s'.id = s.id) (phase : s'.phase = s.phase)
    (tally : s'.tally = s.tally) (resumed : s'.gate.resumed = s.gate.resumed)
    (kept : s.cancelled = true → s'.cancelled = true)
    (reading : s'.isReading = true → s'.cancelled = false) : s'.Underway policy work xs ds := by
  have hwork : s'.work? = s.work? := by simp only [work?, phase]
  have hreport : s'.report? = s.report? := by simp only [report?, phase]
  obtain ⟨n, hn, hoff⟩ := h.answered
  refine ⟨?_, ?_, tally.trans h.tally, ?_, reading, n, hn,
    fun hc => hoff (Bool.eq_false_iff.mpr fun hon => ?_)⟩
  · simpa only [hasBegun, behind?, phase] using h.begun
  · simpa only [closing, hreport] using h.deeds
  · simpa only [Leaves, hwork, hreport, id, tally, resumed] using h.leads
  · rw [kept hon] at hc
    cases hc

theorem nudge (h : s.Underway policy work xs ds) (hn : Nudge s es s') :
    ∃ ys, s'.Underway policy work (xs ++ ys) (ds ++ es) := by
  have hreading : s'.isReading = true → s'.cancelled = false := by
    cases hn with
    | none | resume => exact h.reading
    | cancel => simp [Bridge.not_isReading_cancelled]
    | handOver line => simp [Bridge.not_isReading_receive]
  obtain ⟨rfl, hp, hta, hre, -, hkept⟩ | ⟨logged, next, reply, hp, hp', rfl, hta, -, hca⟩ := hn.cases
  · refine ⟨[], ?_⟩
    rw [List.append_nil, List.append_nil]
    exact h.still hn.alike.id hp hta hre hkept hreading
  · have hon : s.cancelled = false := h.reading (by simp only [isReading, hp])
    have hd : reply.toList.map .receive = (Request.read logged).deeds policy s.tally reply := by
      cases reply <;> rfl
    rw [hd]
    refine ⟨_, h.met (by simp only [work?, hp]) hp' ?_ (fun hoff => by rw [hca, hoff, Bool.true_or])
      fun answer ha => ?_⟩
    · rw [hta]
      cases reply <;> rfl
    · obtain rfl := Option.some.inj ha
      rw [hca, hon, Bool.false_or]

/-- A run that comes to a request that blocks it, or to its end, says nothing more. -/
theorem halt (h : s.Underway policy work xs ds) (hp : s.phase = .ready rest)
    (hs : ∀ r next, rest = .ask r next → ∃ st, (b.stageOf s).serve (b.worker s.id) r = (st, none)) :
    (b.carryOn (fun _ => false) s rest).2.Underway policy work xs (ds ++ b.beatDeeds s) := by
  have hw : s.work? = some rest := by simp only [work?, hp]
  have hm := (Bridge.Beat.halt hp hs).moves_beatDeeds
  have hl := Bridge.carryOn_leaves b s rest
  obtain ⟨hrest, hclosing, hreading⟩ :
      (rest.run (b.worker s.id) Behaviour.never (b.stageOf s)).2.rest = rest ∧
      b.beatDeeds s = (b.carryOn (fun _ => false) s rest).2.closing ∧
      ((b.carryOn (fun _ => false) s rest).2.isReading = true → s.cancelled = false) := by
    cases rest with
    | done a | panic m =>
      refine ⟨rfl, ?_, fun hread => by cases hread⟩
      simp only [Bridge.beatDeeds, hp, Bridge.carryOnDeeds_eq]
      rfl
    | ask r next =>
      obtain ⟨st, hs⟩ := hs r next rfl
      have hnone := Bridge.carryOnDeeds_eq b s (.ask r next)
      rw [Bridge.carryOnDeeds_of_blocked hs] at hnone
      refine ⟨by rw [Behaviour.run_of_stopped hs, Behaviour.rest_stopped], ?_, fun hread => ?_⟩
      · simp only [Bridge.beatDeeds, hp, hs]
        exact (List.append_eq_nil_iff.mp hnone.symm).2.symm
      · obtain ⟨logged, rfl, hon, -⟩ | ⟨rfl, -⟩ := Behaviour.serve_eq_none hs
        · exact hon
        · rw [Bridge.carryOn_eq, Behaviour.run_of_stopped hs] at hread
          cases hread
  have hsilent : Deed.receipts (b.beatDeeds s) = [] := by
    rw [hclosing, closing]
    split <;> rfl
  rw [hrest] at hl
  obtain ⟨n, hn, hoff⟩ := h.answered
  refine ⟨hm.begun, ?_, ?_, ⟨rest, h.reaches hw, hl⟩, fun hread => hm.cancelled.trans (hreading hread),
    n, ?_, fun hc => hoff (hm.cancelled.symm.trans hc)⟩
  · rw [hclosing, h.deeds, Transcript.closing_of_work hw, List.append_nil]
  · have ht : (b.carryOn (fun _ => false) s rest).2.tally = s.tally.after (b.beatDeeds s) := hm.tally
    rw [ht, hclosing, after_closing, h.tally]
  · rw [Deed.receipts_append, hsilent, List.append_nil, hn]

theorem beat (h : s.Underway policy work xs ds) (hc : b.config.run.pause = policy)
    (hb : Bridge.Beat b s b' s') : ∃ ys, s'.Underway policy work (xs ++ ys) (ds ++ b.beatDeeds s) := by
  subst hc
  cases hb with
  | takeUp hp =>
    have hbegun := h.begun
    simp [hasBegun, behind?, hp] at hbegun
  | @pass next gate outcome hp hg =>
    have hd : b.beatDeeds s = Request.deeds b.config.run.pause s.tally .awaitGate outcome := by
      simp only [Bridge.beatDeeds, hp, hg]
      rfl
    rw [hd]
    exact ⟨_, h.met (by simp only [work?, hp]) rfl rfl (fun hoff => hoff)
      fun answer ha => by cases ha⟩
  | @met r next st reply hp hs =>
    have hf := Stage.follows_reply (Bridge.attends_worker b s.id) hs
    have hd : b.beatDeeds s = r.deeds b.config.run.pause s.tally reply := by
      simp only [Bridge.beatDeeds, hp, hs]
    rw [hd]
    refine ⟨_, h.met (by simp only [work?, hp]) rfl hf.tally (fun hoff => hoff)
      fun answer ha => ?_⟩
    cases r with
    | read logged =>
      obtain rfl := Option.some.inj ha
      obtain ⟨hoff, rfl, -⟩ | ⟨line, channel, served, hon, -, rfl, -⟩ := Stage.serve_read_cases hs
      · exact hoff.symm
      · exact hon.symm
    | _ => cases ha
  | halt hp hs => exact ⟨[], (List.append_nil xs).symm ▸ h.halt hp hs⟩

end Underway

end Session

/-! The lines that a run takes -/

namespace Bridge
variable {b : Bridge} {id : Nat}

/-- Unless it is dropped, a line that is handed in is submitted once, and if it leaves the channel at once,
the only run has received it. -/
theorem submitActs_of_kept (hkept : b.channel.isFull = true → b.channel.whenFull = .block)
    (line : String) (hid : ∀ r ∈ b.channel.readers, r.ticket = id) :
    Act.submitted (b.submitActs line) = [line] ∧
    (Act.removed (b.submitActs line)).map Prod.snd =
      Deed.receipts (Act.deedsOf id (b.submitActs line)) := by
  unfold submitActs
  split
  · rw [hkept ‹_›]
    exact ⟨rfl, rfl⟩
  · unfold acceptActs
    cases hr : b.channel.readers with
    | nil => exact ⟨rfl, rfl⟩
    | cons r rs =>
      obtain rfl := hid r (hr ▸ List.mem_cons_self)
      have hremoved : Act.removed [.host (.submit line), .run r.ticket (.receive line)] =
          [(.run r.ticket, line)] := rfl
      have hdeeds : Act.deeds [.host (.submit line), .run r.ticket (.receive line)] =
          [(r.ticket, .receive line)] := rfl
      refine ⟨rfl, ?_⟩
      rw [hremoved, Act.deedsOf, hdeeds]
      simp [Deed.receipts, Deed.received?]

theorem resumeActs_quiet (b : Bridge) (id : Nat) :
    Act.submitted b.resumeActs = [] ∧ Act.removed b.resumeActs = [] ∧ Act.deedsOf id b.resumeActs = [] := by
  simp [resumeActs, Act.submitted, Act.submitted?, Act.removed, Act.removed?, Act.deedsOf, Act.deeds,
    Act.deed?]

theorem removals_beatDeeds {s : Session} (hb : s.hasBegun = true) :
    Deed.removals (b.beatDeeds s) = Deed.receipts (b.beatDeeds s) := by
  unfold beatDeeds
  split
  · rename_i hp
    simp [Session.hasBegun, Session.behind?, hp] at hb
  · cases s.gate.wait.2 <;> rfl
  · split
    · exact Deed.removals_request _ _ _ _
    · rfl
  · rename_i hp
    have h := removals_advanceDeeds b hb
    simpa only [advanceDeeds, hp] using h
  · rfl
  · rfl

end Bridge

end Conduit

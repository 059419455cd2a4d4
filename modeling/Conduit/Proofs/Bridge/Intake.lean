import Conduit.Proofs.Bridge.Settling
import Conduit.Proofs.Bridge.Speech
import Conduit.Proofs.Script.Intake

/-!
The lines that a run of a script reads integers from. A call of `read_int` takes one line out of the
channel, whatever the line holds, and tells once that it did.
-/
namespace Conduit

/-- Among the acts the run with the number `id` does the deeds `before`, then takes the line and tells so
with the line of its source `row`, and after this does the deeds `after`. -/
structure Act.Takes (acts : List Act) (id : Nat) (before : List Deed) (line : String) (row : Nat)
    (after : List Deed) : Prop where
  deeds : Act.deedsOf id acts = before ++ [.receive line, .publish (.readExecuted row)] ++ after
  removed : ((Act.removed acts).filter fun p => p.1 = .run id).map Prod.snd =
    Deed.receipts before ++ line :: Deed.receipts after
  told : (Act.eventsOf id acts).filter SessionEvent.isRead =
    (Deed.publications before).filter SessionEvent.isRead ++ .readExecuted row ::
      (Deed.publications after).filter SessionEvent.isRead

namespace Bridge

theorem takes_of_deeds {b b' : Bridge} {acts : List Act} (hs : Steps b acts b') {id row : Nat}
    {line : String} {before after : List Deed}
    (h : Act.deedsOf id acts = before ++ [.receive line, .publish (.readExecuted row)] ++ after) :
    Act.Takes acts id before line row after where
  deeds := h
  removed := by
    rw [Act.removed_by_run, h, Deed.receipts_append, Deed.receipts_append, List.append_assoc]
    rfl
  told := by
    rw [filter_eventsOf hs id rfl rfl, h, Deed.publications_append, Deed.publications_append,
      List.filter_append, List.filter_append, List.append_assoc]
    rfl

end Bridge

namespace Script
open Engine (look)
variable {debug : Bool} {source : String} {program : Program} {ys zs : List Exchange}

/-- A call that gets its line receives it and tells so, and that is all that it does. -/
theorem deeds_intake (policy : PausePolicy) (xs : List Exchange) (place : Position) (line : String)
    (more : List Exchange) : ∃ t, Dialogue.deeds policy {} (xs ++ (intake place line ++ more)) =
      Dialogue.deeds policy {} xs ++ [.receive line, .publish (.readExecuted place.line)] ++
        Dialogue.deeds policy t more :=
  ⟨_, by
    rw [Dialogue.deeds_append, Dialogue.deeds_append, List.append_assoc]
    rfl⟩

/-- A dialogue that has led to some point of the evaluation goes on from there. -/
theorem reaches_from {rest : Behaviour Ending} {c : Conduct} (hp : parse source = .ok program)
    (h : (engine.drive debug source).Reaches (opening program ++ (ys ++ zs)) rest)
    (hc : ({ program, debug } : Setting).run.Reaches ys c) : (c.bind parting).Reaches zs rest := by
  obtain ⟨hn, -⟩ | ⟨ys', heq, hrun⟩ := reaches_drive hp h
  · exact absurd (List.prefix_append _ _) hn
  · rw [← List.append_cancel_left heq] at hrun
    exact hrun.of_append hc.bind

end Script

namespace Bridge
open Engine (look)

/-- What has become of a call of `read_int` at `place` that the run `s` came to when it had said `ys` in
the evaluation of its script. It has said `zs` since then; `k` goes on with what the call comes to. -/
inductive IntegerRead (setting : Script.Setting) (b : Bridge) (acts : List Act) (s : Session)
    (policy : PausePolicy) (place : Script.Position) (env : Script.Env)
    (k : Except Script.Exit Script.Value → Script.Env → Script.Conduct) (ys zs : List Exchange) : Prop
  /-- The run is called off before the call gets a line. -/
  | calledOff {cut more : List Exchange} (off : s.cancelled = true) (short : cut ∈ Script.cutShort)
      (said : zs = cut ++ more)
      (fails : setting.run.Reaches (ys ++ cut) (k (Script.Eval.calledOff place) env))
  /-- There is no line; the run waits for one, and goes on with it whatever it holds. -/
  | waiting {next : Option String → Behaviour Ending} (said : zs = [look false, look false])
      (empty : b.channel.lines = []) (waits : s.phase = .reading true next)
      (gives : ∀ line, ∃ outcome, Script.Gives place line outcome ∧
        (next (some line)).Reaches [look false, ⟨.tell (.readExecuted place.line), ()⟩]
          ((k outcome env).bind Script.parting))
  /-- The call takes one line, tells so once and comes to what the line holds. -/
  | through {line : String} {outcome : Except Script.Exit Script.Value} {more : List Exchange}
      {lines : List String} {t : Tally} (said : zs = Script.intake place line ++ more)
      (goesOn : setting.run.Reaches (ys ++ Script.intake place line) (k outcome env))
      (gives : Script.Gives place line outcome)
      (takes : Act.Takes acts s.id
        (lines.map .discard ++ Dialogue.deeds policy {} (Script.opening setting.program ++ ys))
        line place.line (Dialogue.deeds policy t more ++ s.closing))

/-- In a run that is not called off, each call of `read_int` takes exactly one line out of the channel, as
soon as there is one, and publishes one event for it with the line of the call. It gives the integer that
the line holds, and fails with the line in its message if it holds none. So the text of an integer of 64
bits, with any blanks around it, gives the integer back. -/
theorem integer_reads_take_one_line (grants : Nat → Bool) (sink : Sink) (config : Config)
    (calls : List (Nat × Call)) {s : Session} {source : String} {program : Script.Program}
    (hs : s ∈ ((create Script.engine grants sink config).after calls).sessions)
    (hg : (s.id, source) ∈ (create Script.engine grants sink config).programs calls)
    (hp : Script.parse source = .ok program) (hfree : program.find? "read_int" 0 = none) :
    let setting : Script.Setting := { program, debug := config.run.debug }
    let b := (create Script.engine grants sink config).after calls
    let acts := (create Script.engine grants sink config).history calls
    (∃ xs, s.Transcript config.run.pause (Script.engine.drive config.run.debug source) xs
        (Act.deedsOf s.id acts) ∧
      (s.cancelled = false → ∀ x ∈ xs, x.Agrees false) ∧
      ∀ ys zs n place env k, xs = Script.opening program ++ (ys ++ zs) →
        setting.run.Reaches ys
          (Script.Eval.bounded setting.functions (n + 1) (.expr (.call "read_int" [] place)) env k) →
        IntegerRead setting b acts s config.run.pause place env k ys zs) ∧
    ∀ (n : Int) (line : String) (before after : List Char), -2 ^ 63 ≤ n ∧ n ≤ 2 ^ 63 - 1 →
      line.toList = before ++ (Decimal.intText n).toList ++ after →
      (∀ c ∈ before ++ after, Text.isBlank c = true) →
      ∀ place outcome, Script.Gives place line outcome → outcome = .ok (.int n) := by
  intro setting b acts
  refine ⟨?_, fun n line before after hn hline hblank place outcome hgives =>
    (hgives.integer n).mpr (Decimal.holds_intText hn hline hblank)⟩
  obtain ⟨hrest, source', xs, q, hg', h⟩ :=
    (orderly_runs .script grants sink config calls).runs s hs
  obtain rfl := programs_unique hg hg'
  have hagrees : s.cancelled = false → ∀ x ∈ xs, x.Agrees false := fun hc =>
    (h.path.agrees (Bool.eq_false_iff.mpr fun hq => by rw [h.off hq] at hc; cases hc)).2
  refine ⟨xs, h.toTranscript, hagrees, ?_⟩
  rintro ys zs n place env k rfl hcall
  obtain ⟨rest, hreach, hheld, hread⟩ := h.exists_heldUp hrest (by simp [Script.opening])
  obtain ⟨q₁, -, hpath⟩ := h.path.split
  obtain ⟨q₂, -, hpath⟩ := hpath.split
  have hfrom := Script.reaches_from hp hreach hcall
  obtain ⟨cut, hcut, more, rfl⟩ | ⟨rfl, next, rfl, hnext⟩ | ⟨line, more, rfl⟩ :=
    Script.reaches_read_int (s := setting) rfl hfree hpath hheld hfrom
  · refine .calledOff ?_ hcut rfl (hcall.trans (Script.reaches_cutShort rfl hfree hcut))
    obtain ⟨x, hx, hoff⟩ := Script.exists_not_agrees hcut
    by_contra hc
    exact hoff (hagrees (Bool.eq_false_iff.mpr hc) x (by simp [hx]))
  · refine .waiting rfl ?_ (hread true next rfl) fun line =>
      ⟨_, Script.gives_integerIn place line, hnext line⟩
    obtain ⟨hlawful, -⟩ :=
      (scheduled_after Script.engine grants sink config calls).lawful (i := .script)
    have hreading : s.isReading = true := by
      rw [Session.isReading, hread true next rfl]
    obtain ⟨r, hr, -⟩ := hlawful.listed s hs hreading
    exact hlawful.channel.empty (List.ne_nil_of_mem hr)
  · obtain ⟨lines, hdeeds⟩ := h.deeds
    obtain ⟨t, ht⟩ := Script.deeds_intake config.run.pause (Script.opening program ++ ys) place line more
    have htakes : Act.Takes acts s.id
        (lines.map .discard ++ Dialogue.deeds config.run.pause {} (Script.opening program ++ ys)) line
        place.line (Dialogue.deeds config.run.pause t more ++ s.closing) := by
      refine takes_of_deeds (steps_history _ calls) (hdeeds.trans ?_)
      rw [← List.append_assoc (Script.opening program), ht]
      simp only [List.append_assoc]
    exact .through rfl (hcall.trans (Script.reaches_intake rfl hfree line))
      (Script.gives_integerIn place line) htakes

/-- The least integer, between blanks. -/
theorem integer_reads_take_one_line_least :
    let source := "print(read_int())"
    let line := "\u00a0-9223372036854775808\t"
    let place : Script.Position := ⟨1, 7⟩
    let setting : Script.Setting :=
      { program := ⟨[.expr (.call "print" [.call "read_int" [] place] ⟨1, 1⟩)], []⟩ }
    let calls : List (Nat × Call) := [(0, .start source true), (1, .submit line)]
    let b := create Script.engine (fun _ => true) (.capture "") {}
    let acts := b.history calls
    Script.parse source = .ok setting.program ∧
    ∃ s ∈ (b.after calls).sessions, s.report? = some ⟨1, .completed, 0, 0, 1⟩ ∧
      ∃ n env k before after,
        setting.run.Reaches [look false, look false]
          (Script.Eval.bounded setting.functions (n + 1) (.expr (.call "read_int" [] place)) env k) ∧
        setting.run.Reaches ([look false, look false] ++ Script.intake place line)
          (k (.ok (.int (-2 ^ 63))) env) ∧
        Act.Takes acts s.id before line 1 after := by
  have hp : Script.parse "print(read_int())" =
      .ok ⟨[.expr (.call "print" [.call "read_int" [] ⟨1, 7⟩] ⟨1, 1⟩)], []⟩ := by rfl
  intro source line place setting calls b acts
  have hend : (b.after calls).sessions.any (fun s => s.id = 1 ∧ s.cancelled = false ∧
      s.report? = some ⟨1, .completed, 0, 0, 1⟩) = true := by decide +kernel
  have hgiven : (1, source) ∈ b.programs calls := by decide +kernel
  have hremoved : ((Act.removed acts).filter fun p => p.1 = .run 1).map Prod.snd = [line] := by
    decide +kernel
  obtain ⟨s, hs, hend⟩ := List.any_eq_true.mp hend
  obtain ⟨hid, hon, hr⟩ := of_decide_eq_true hend
  obtain ⟨⟨xs, h, hagrees, hcalls⟩, hround⟩ :=
    integer_reads_take_one_line (fun _ => true) (.capture "") {} calls hs (hid ▸ hgiven) hp rfl
  obtain ⟨env, k, hcall⟩ : ∃ env k, setting.run.Reaches [look false, look false]
      (Script.Eval.bounded setting.functions (999999999999997 + 1)
        (.expr (.call "read_int" [] place)) env k) := ⟨_, _, .more (.more (.refl _))⟩
  obtain ⟨c, hdrive⟩ : ∃ c, (Script.engine.drive false source).Reaches
      (Script.opening setting.program ++ [look false, look false]) c := by
    rw [Script.drive_eq hp]
    exact ⟨_, .more (.more (.more (.more (.more hcall.bind))))⟩
  obtain ⟨-, rest, hreach, hv⟩ := h.report hr
  have hheld : rest.IsHeldUp := by
    cases rest with
    | ask r next => cases hv
    | _ => trivial
  have hcalm : ∀ y ∈ Script.opening setting.program ++ [look false, look false], y.IsCalm :=
    List.forall_iff_forall_mem.mp ⟨rfl, trivial, rfl, trivial, trivial, rfl, rfl⟩
  obtain ⟨zs, rfl⟩ := hreach.through hheld (hagrees hon) hdrive hcalm
  obtain ⟨hoff, -, -, -⟩ | ⟨-, -, hphase, -⟩ | @⟨line', _, _, _, _, -, hgoes, hgives, htakes⟩ :=
    hcalls [look false, look false] zs _ place env k (List.append_assoc _ _ _) hcall
  · rw [hon] at hoff
    cases hoff
  · rw [Session.report?, hphase] at hr
    cases hr
  · have htaken := htakes.removed
    rw [hid, hremoved] at htaken
    have hline : line' ∈ [line] := htaken ▸ List.mem_append_right _ List.mem_cons_self
    obtain rfl := List.mem_singleton.mp hline
    have hblank : ∀ c ∈ [Char.ofNat 160] ++ ['\t'], Text.isBlank c = true := List.all_eq_true.mp rfl
    have hvalue := hround (-2 ^ 63) line [Char.ofNat 160] ['\t'] (by norm_num) (by decide +kernel)
      hblank place _ hgives
    rw [hvalue] at hgoes
    exact ⟨hp, s, hs, hr, 999999999999997, env, k, _, _, hcall, hgoes, htakes⟩

end Bridge

end Conduit

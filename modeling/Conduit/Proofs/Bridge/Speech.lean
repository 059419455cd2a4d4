import Conduit.Proofs.Bridge.Failure
import Conduit.Proofs.Script.Announcement

/-!
What a run of a script prints by lines, and the checkpoints after them. Each executed call of `print` is
one line and, in debug mode, one checkpoint right after it; there are no others.
-/
namespace Conduit

namespace Behaviour
variable {α β : Type} {b : Behaviour α} {xs : List Exchange}

/-- A dialogue with two behaviours in a row is one with the first or has come to the second. -/
theorem Reaches.of_bind_rest {f : α → Behaviour β} {c : Behaviour β} (h : (b.bind f).Reaches xs c) :
    (∃ b', b.Reaches xs b' ∧ c = b'.bind f) ∨
    ∃ xs₁ xs₂ a, xs = xs₁ ++ xs₂ ∧ b.Reaches xs₁ (.done a) ∧ (f a).Reaches xs₂ c := by
  induction b generalizing xs with
  | done a => exact .inr ⟨[], xs, a, rfl, .refl _, h⟩
  | panic m =>
    cases h
    exact .inl ⟨_, .refl _, rfl⟩
  | ask r next ih =>
    cases h with
    | refl => exact .inl ⟨_, .refl _, rfl⟩
    | more h =>
      obtain ⟨b', hb, hc⟩ | ⟨xs₁, xs₂, a, rfl, h₁, h₂⟩ := ih _ h
      · exact .inl ⟨b', .more hb, hc⟩
      · exact .inr ⟨_ :: xs₁, xs₂, a, rfl, .more h₁, h₂⟩

theorem IsHeldUp.tells_eq_false (h : b.IsHeldUp) : b.tells = false := by
  cases b with
  | ask r next =>
    cases r with
    | tell signal => exact absurd h id
    | _ => rfl
  | _ => rfl

theorem tells_of_bind {f : α → Behaviour β} (h : (b.bind f).tells = false) : b.tells = false := by
  cases b with
  | ask r next =>
    cases r with
    | tell signal => cases h
    | _ => rfl
  | _ => rfl

end Behaviour

namespace Script
open Engine (look)
variable {debug : Bool} {source : String} {program : Program} {xs : List Exchange}

def parting (failure : Option Fault) : Behaviour Ending :=
  (handle failure).bind fun _ =>
    .ask (.tell .stackPopped) fun _ => .ask (.tell .executionStopped) fun _ =>
      .ask .isCancelled fun (off : Bool) => if off then .done .cancelled else .done .executed

theorem drive_eq (hp : parse source = .ok program) :
    engine.drive debug source =
      .ask .isCancelled fun (off : Bool) => if off then .done .cancelled else
      .ask (.tell (.analysisFinished true)) fun _ =>
      .ask .isCancelled fun (off : Bool) => if off then .done .cancelled else
      .ask (.tell .executionStarted) fun _ =>
      .ask (.tell (.stackPushed (Engine.globalScope (program.functions.map (·.name))))) fun _ =>
      ({ program, debug } : Setting).run.bind parting := by
  unfold Engine.drive
  rw [analyze_of_ok hp]
  refine congrArg (Behaviour.ask _) (funext fun off => ?_)
  cases off with
  | true => rfl
  | false =>
    refine congrArg (Behaviour.ask _) (funext fun _ => congrArg (Behaviour.ask _) (funext fun off => ?_))
    cases off with
    | true => rfl
    | false =>
      change (engine.execute debug ⟨source, some program⟩).bind _ = _
      rw [execute_eq]
      refine congrArg (Behaviour.ask _) (funext fun _ => congrArg (Behaviour.ask _) (funext fun _ => ?_))
      refine (Behaviour.bind_assoc _ _ _).trans (congrArg _ (funext fun failure => ?_))
      exact Behaviour.bind_assoc _ _ _

theorem frame_parting (failure : Option Fault) : (parting failure).Asks Request.IsFrame := by
  refine (frame_handle failure).bind fun _ => ⟨trivial, fun _ => ⟨trivial, fun _ => ⟨trivial, ?_⟩⟩⟩
  intro off
  cases off <;> trivial

/-- The dialogue of a run that may have got to the evaluation of its script or not. -/
theorem reaches_drive {rest : Behaviour Ending} (hp : parse source = .ok program)
    (h : (engine.drive debug source).Reaches xs rest) :
    (¬ opening program <+: xs ∧ ∀ x ∈ xs, x.request.IsFrame) ∨
    ∃ ys, xs = opening program ++ ys ∧
      (({ program, debug } : Setting).run.bind parting).Reaches ys rest := by
  rw [drive_eq hp] at h
  obtain - | @⟨_, _, off, _, _, h⟩ := h
  · exact .inl ⟨by simp [opening], by simp⟩
  cases off with
  | true =>
    cases h
    exact .inl ⟨by simp [opening, look], List.forall_mem_singleton.mpr trivial⟩
  | false =>
    obtain - | @⟨_, _, _, _, _, h⟩ := h
    · exact .inl ⟨by simp [opening], List.forall_mem_singleton.mpr trivial⟩
    obtain - | @⟨_, _, off, _, _, h⟩ := h
    · exact .inl ⟨by simp [opening], List.forall_iff_forall_mem.mp ⟨trivial, trivial⟩⟩
    cases off with
    | true =>
      cases h
      exact .inl ⟨by simp [opening, look], List.forall_iff_forall_mem.mp ⟨trivial, trivial, trivial⟩⟩
    | false =>
      obtain - | @⟨_, _, _, _, _, h⟩ := h
      · exact .inl ⟨by simp [opening], List.forall_iff_forall_mem.mp ⟨trivial, trivial, trivial⟩⟩
      obtain - | @⟨_, _, _, _, _, h⟩ := h
      · exact .inl ⟨by simp [opening],
          List.forall_iff_forall_mem.mp ⟨trivial, trivial, trivial, trivial⟩⟩
      exact .inr ⟨_, rfl, h⟩

theorem frame_deeds (policy : PausePolicy) (t : Tally) (h : ∀ x ∈ xs, x.request.IsFrame) :
    Deed.prints (Dialogue.deeds policy t xs) = Dialogue.complaints xs ∧
      checkpoints (Deed.publications (Dialogue.deeds policy t xs)) = [] := by
  induction xs generalizing t with
  | nil => exact ⟨rfl, rfl⟩
  | cons x xs ih =>
    obtain ⟨hx, hxs⟩ := List.forall_mem_cons.mp h
    obtain ⟨r, reply⟩ := x
    obtain ⟨hprints, hpauses⟩ := ih (t.after (r.deeds policy t reply)) hxs
    have hone : Deed.prints (r.deeds policy t reply) = (Exchange.complaint? ⟨r, reply⟩).toList ∧
        checkpoints (Deed.publications (r.deeds policy t reply)) = [] := by
      cases r with
      | print stream e =>
        cases stream with
        | out => exact absurd hx id
        | err => exact ⟨rfl, rfl⟩
      | tell signal =>
        refine ⟨Deed.prints_publish _, ?_⟩
        cases signal with
        | executionPaused line wasPrint => exact absurd hx id
        | _ => rfl
      | read logged => cases reply <;> exact ⟨rfl, rfl⟩
      | _ => exact ⟨rfl, rfl⟩
    refine ⟨?_, ?_⟩
    · rw [Dialogue.deeds, Deed.prints_append, hone.1, hprints, Dialogue.complaints, Dialogue.complaints,
        List.filterMap_cons]
      cases Exchange.complaint? ⟨r, reply⟩ <;> rfl
    · rw [Dialogue.deeds, Deed.publications_append, checkpoints_append, hone.2, hpauses]
      rfl

/-- The calls of `print` that are executed in the dialogue `xs` of a run. If the script is evaluated there
at all, they are those that it announces. -/
def Utters (s : Setting) (xs : List Exchange) (us : List Utterance) : Prop :=
  (¬ opening s.program <+: xs ∧ us = []) ∨
  ∃ ys zs c, xs = opening s.program ++ (unannounced ys ++ zs) ∧ s.announcing.run.Reaches ys c ∧
    (zs ≠ [] → c.hasEnded = true) ∧ us = ys.filterMap announced?

theorem reaches_run {ys : List Exchange} {rest : Behaviour Ending} {s : Setting}
    (h : (s.run.bind parting).Reaches ys rest) (hrest : rest.tells = false) :
    ∃ xs zs c, ys = xs ++ zs ∧ s.run.Reaches xs c ∧ c.tells = false ∧
      (zs ≠ [] → ∃ failure, c = .done failure) ∧ ∀ z ∈ zs, z.request.IsFrame := by
  obtain ⟨c, hc, rfl⟩ | ⟨xs, zs, failure, rfl, hrun, hparting⟩ := h.of_bind_rest
  · exact ⟨ys, [], c, (List.append_nil ys).symm, hc, Behaviour.tells_of_bind hrest, fun hn => absurd rfl hn, by simp⟩
  · exact ⟨xs, zs, .done failure, rfl, hrun, rfl, fun _ => ⟨failure, rfl⟩,
      ((frame_parting failure).reaches hparting).1⟩

/-- What a run does that does not stop to tell something: it speaks for the calls that it executes, and
around this prints at most a complaint. -/
theorem speech_drive (policy : PausePolicy) {rest : Behaviour Ending} (hp : parse source = .ok program)
    (h : (engine.drive debug source).Reaches xs rest) (hrest : rest.tells = false) :
    ∃ us before during after, Utters { program, debug } xs us ∧
      Dialogue.deeds policy {} xs = before ++ during ++ after ∧ Speech debug us during ∧
      Deed.prints before = [] ∧ Deed.prints after = Dialogue.complaints xs ∧
      checkpoints (Deed.publications before) = [] ∧ checkpoints (Deed.publications after) = [] := by
  obtain ⟨hn, hframe⟩ | ⟨ys, rfl, hrest'⟩ := reaches_drive hp h
  · obtain ⟨hprints, hpauses⟩ := frame_deeds policy {} hframe
    exact ⟨[], [], [], _, .inl ⟨hn, rfl⟩, rfl, .silent, rfl, hprints, rfl, hpauses⟩
  · obtain ⟨xs, zs, c, rfl, hrun, htells, hended, hframe⟩ := reaches_run hrest' hrest
    obtain ⟨ys, c', hr, hc, rfl, hspeech⟩ := (announces_run rfl).reaches hrun htells
    have hsilent : Dialogue.complaints (opening program ++ unannounced ys) = [] := by
      refine Dialogue.complaints_eq_nil (List.forall_mem_append.mpr ⟨discreet_opening program, ?_⟩)
      exact ((discreet_run _).reaches hrun).1
    obtain ⟨t, t', hdeeds⟩ : ∃ t t',
        Dialogue.deeds policy {} (opening program ++ (unannounced ys ++ zs)) =
          Dialogue.deeds policy {} (opening program) ++ Dialogue.deeds policy t (unannounced ys) ++
            Dialogue.deeds policy t' zs :=
      ⟨_, _, by rw [Dialogue.deeds_append, Dialogue.deeds_append, List.append_assoc]⟩
    obtain ⟨hprints, hpauses⟩ := frame_deeds policy t' hframe
    refine ⟨_, _, _, _, .inr ⟨ys, zs, c', rfl, hr, fun hzs => ?_, rfl⟩, hdeeds, hspeech policy t, rfl, ?_,
      rfl, hpauses⟩
    · obtain ⟨failure, rfl⟩ := hended hzs
      cases hc
      rfl
    · rw [hprints, ← List.append_assoc, Dialogue.complaints, Dialogue.complaints, List.filterMap_append]
      exact (congrArg (· ++ _) hsilent).symm

end Script

theorem Session.Transcript.exists_rest {σ : Type} {e : Engine σ} {debug : Bool} {source : String}
    {policy : PausePolicy} {xs : List Exchange} {ds : List Deed} {s : Session}
    (h : s.Transcript policy (e.drive debug source) xs ds) (hr : s.AtRest) :
    ∃ rest, (e.drive debug source).Reaches xs rest ∧ rest.tells = false := by
  by_cases hxs : xs = []
  · subst hxs
    exact ⟨_, .refl _, rfl⟩
  · obtain ⟨rest, hreach, hheld, -⟩ := h.exists_heldUp hr hxs
    exact ⟨rest, hreach, hheld.tells_eq_false⟩

namespace Bridge
variable {s : Session}

theorem checkpoints_eventsOf {b b' : Bridge} {acts : List Act} (hs : Steps b acts b') (id : Nat) :
    Script.checkpoints (Act.eventsOf id acts) =
      Script.checkpoints (Deed.publications (Act.deedsOf id acts)) := by
  have hfilter : ∀ es : List SessionEvent, Script.checkpoints es =
      Script.checkpoints (es.filter fun e => (Script.checkpoint? e).isSome) := by
    intro es
    rw [Script.checkpoints, Script.checkpoints, List.filterMap_filter]
    refine congrArg (List.filterMap · es) (funext fun e => ?_)
    cases Script.checkpoint? e <;> rfl
  rw [hfilter, filter_eventsOf hs id rfl rfl, ← hfilter]

/-- Each call of `print` that a script executes prints one line, which in debug mode is followed at once
by one checkpoint; but for the complaint about its failure a run prints no other line, and it has no other
checkpoints of that kind. They name the lines of the calls in the order of their execution, where a call
was given a value. -/
theorem prints_are_checkpoints (grants : Nat → Bool) (sink : Sink) (config : Config)
    (calls : List (Nat × Call)) {source : String} {program : Script.Program}
    (hs : s ∈ ((create Script.engine grants sink config).after calls).sessions)
    (hg : (s.id, source) ∈ (create Script.engine grants sink config).programs calls)
    (hp : Script.parse source = .ok program) :
    let setting : Script.Setting := { program, debug := config.run.debug }
    let acts := (create Script.engine grants sink config).history calls
    let ds := Act.deedsOf s.id acts
    ∃ xs us before during after,
      s.Transcript config.run.pause (Script.engine.drive config.run.debug source) xs ds ∧
      Script.Utters setting xs us ∧
      ds = before ++ during ++ after ∧ Script.Speech config.run.debug us during ∧
      Deed.prints before = [] ∧ Deed.prints after = Dialogue.complaints xs ∧
      Script.checkpoints (Act.eventsOf s.id acts) =
        if config.run.debug then us.map Script.Utterance.shownLine else [] := by
  intro setting acts ds
  obtain ⟨hrest, source', xs, q, hg', h⟩ :=
    (orderly_runs .script grants sink config calls).runs s hs
  obtain rfl := programs_unique hg hg'
  obtain ⟨rest, hreach, htells⟩ := h.exists_rest hrest
  obtain ⟨us, before, during, after, hus, hdeeds, hspeech, hbefore, hafter, hp₀, hp₁⟩ :=
    Script.speech_drive config.run.pause hp hreach htells
  obtain ⟨lines, hds⟩ := h.deeds
  have hclosing : Deed.prints s.closing = [] ∧
      Script.checkpoints (Deed.publications s.closing) = [] := by
    unfold Session.closing
    split <;> exact ⟨rfl, rfl⟩
  have hall : ds = (lines.map .discard ++ before) ++ during ++ (after ++ s.closing) := by
    refine hds.trans ?_
    rw [hdeeds]
    simp only [List.append_assoc]
  refine ⟨xs, us, _, during, _, h.toTranscript, hus, hall, hspeech, ?_, ?_, ?_⟩
  · rw [Deed.prints_append, Deed.prints_discard, hbefore]
    rfl
  · rw [Deed.prints_append, hclosing.1, hafter, List.append_nil]
  · refine (checkpoints_eventsOf (steps_history _ calls) s.id).trans ?_
    change Script.checkpoints (Deed.publications ds) = _
    rw [hall]
    simp only [Deed.publications_append, Deed.publications_discard, Script.checkpoints_append, hp₀, hp₁,
      hclosing.2, hspeech.checkpoints_eq, List.append_nil]
    rfl

/-- Two calls in debug mode. The first one has no value, and its checkpoint no line. -/
theorem prints_are_checkpoints_without_value :
    let config : Config := { run := { debug := true } }
    let calls : List (Nat × Call) := [(0, .start "print();\nprint(1)" true)]
    let b := create Script.engine (fun _ => true) (.capture "") config
    let acts := b.history calls
    ∃ s ∈ (b.after calls).sessions, s.report? = some ⟨1, .completed, 2, 2, 0⟩ ∧
      Script.checkpoints (Act.eventsOf s.id acts) = [none, some 2] ∧
      ∃ (us : List Script.Utterance) (before during after : List Deed),
        Act.deedsOf s.id acts = before ++ during ++ after ∧ Script.Speech true us during ∧
        us.map Script.Utterance.shownLine = [none, some 2] := by
  intro config calls b acts
  have hend : (b.after calls).sessions.any (fun s => s.id = 1 ∧
      s.report? = some ⟨1, .completed, 2, 2, 0⟩) = true := by decide +kernel
  have hparses : (Script.parse "print();\nprint(1)").toOption.isSome = true := by decide +kernel
  have hgiven : (1, "print();\nprint(1)") ∈ b.programs calls := by decide +kernel
  have hlines : Script.checkpoints (Act.eventsOf 1 acts) = [none, some 2] := by decide +kernel
  obtain ⟨s, hs, hend⟩ := List.any_eq_true.mp hend
  obtain ⟨hid, hr⟩ := of_decide_eq_true hend
  refine ⟨s, hs, hr, hid ▸ hlines, ?_⟩
  cases hp : Script.parse "print();\nprint(1)" with
  | error f =>
    rw [hp] at hparses
    cases hparses
  | ok program =>
    obtain ⟨xs, us, before, during, after, -, -, hds, hspeech, -, -, hus⟩ :=
      prints_are_checkpoints (fun _ => true) (.capture "") config calls hs (hid ▸ hgiven) hp
    exact ⟨us, before, during, after, hds, hspeech, hus.symm.trans (hid ▸ hlines)⟩

end Bridge

end Conduit

import Conduit.Proofs.Bridge.Failure

/-!
Where the failures of scripts are shown. The text of a failure names its place and the place of every call
that it left. What is shown of it beside the text is one of these places, that of the outermost call, and
this one only is taken off the text.
-/
namespace Conduit

namespace Script
variable {source : String} {program : Program}

theorem Fault.diagnostic_text (f : Fault) :
    f.diagnostic.text = "line " ++ Decimal.natText f.outermost.line ++ ", column " ++
      Decimal.natText f.outermost.column ++ ": " ++ f.diagnostic.message := by
  rw [f.diagnostic_eq, f.outermost_eq_place]
  rfl

theorem reaches_of_unattended {α : Type} {b : Behaviour α} {a : α} (h : unattended b = some a) :
    ∃ ys, b.Reaches ys (.done a) := by
  induction b with
  | done a' =>
    cases h
    exact ⟨[], .refl _⟩
  | panic m => cases h
  | ask r next ih =>
    have hmore : ∀ reply, unattended (next reply) = some a →
        ∃ ys, (Behaviour.ask r next).Reaches ys (.done a) := by
      intro reply hreply
      obtain ⟨ys, hys⟩ := ih reply hreply
      exact ⟨_, .more hys⟩
    cases r <;> exact hmore _ h

/-- What goes wrong in a script that parses and has no console is a failure of its evaluation. -/
theorem reaches_of_evaluate (hp : parse source = .ok program) {d : Diagnostic}
    (h : evaluate source = some d) :
    ∃ ys f, ({ program, console := false } : Setting).run.Reaches ys (.done (some f)) ∧
      d = f.diagnostic := by
  simp only [evaluate, hp, Option.map_eq_some_iff, Option.bind_eq_some_iff] at h
  obtain ⟨f, ⟨failure, hrun, rfl⟩, rfl⟩ := h
  obtain ⟨ys, hys⟩ := reaches_of_unattended hrun
  exact ⟨ys, f, hys, rfl⟩

end Script

namespace Bridge
variable {s : Session} {r : RunReport} {source : String} {program : Script.Program}

/-- The run of a script that parses has failed if it says so, and what was printed for errors is the line of
that failure. -/
theorem complaint_of_runtimeError (grants : Nat → Bool) (sink : Sink) (config : Config)
    (calls : List (Nat × Call))
    (hs : s ∈ ((create Script.engine grants sink config).after calls).sessions)
    (hr : s.report? = some r)
    (hg : (s.id, source) ∈ (create Script.engine grants sink config).programs calls)
    (hp : Script.parse source = .ok program) (ho : r.outcome = .runtimeError) :
    let ds := Act.deedsOf s.id ((create Script.engine grants sink config).history calls)
    ∃ xs f, s.Transcript config.run.pause (Script.engine.drive config.run.debug source) xs ds ∧
      Script.Evaluates { program, debug := config.run.debug } xs (some f) ∧
      Dialogue.complaints xs = [Script.complaint f] ∧ .print (Script.complaint f) ∈ ds := by
  intro ds
  obtain ⟨-, source', xs, q, hg', h⟩ := (orderly_runs .script grants sink config calls).runs s hs
  obtain rfl := programs_unique hg hg'
  obtain ⟨finish, hfin, -, hv⟩ := h.exists_finish hr
  obtain ⟨rfl, hev, hd⟩ | ⟨rfl, f, ys, hev, hf, rfl, hd⟩ | ⟨hoff, hlook, hd⟩ :=
    Script.finishes_discreet hp h.path hfin
  · have hout := h.outcome_executed hv
    rw [List.count_eq_zero.mpr (Dialogue.runtimeError_not_mem hd _), ho] at hout
    cases hout
  · obtain ⟨lines, hds⟩ := h.deeds
    obtain ⟨es, hes, -⟩ := Script.deeds_failure config.run.pause {} ys (Script.complaint f) false
    refine ⟨_, f, h.toTranscript, hev, ?_, ?_⟩
    · rw [Dialogue.complaints, List.filterMap_append]
      exact congrArg (· ++ _) (Dialogue.complaints_eq_nil hd)
    · refine (congrArg (.print (Script.complaint f) ∈ ·) hds).mpr ?_
      rw [hes]
      simp
  · obtain rfl | rfl := hoff <;> cases (Option.some.inj hv).trans ho

/-- However a script that parses is evaluated, a failure that ends it comes from one of its sites, and its
text names that place and those of all calls it left. The line and the column shown are those of the
outermost of these calls, and of the failing expression itself if there are none; the message is the text
without the one place at its end. This is what is said of a script without a console and, after
"Runtime error: ", by the run of a script on a bridge. -/
theorem failures_shown_at_outermost_call (hp : Script.parse source = .ok program) :
    (∀ (s : Script.Setting) (ys : List Exchange) (f : Script.Fault), s.program = program →
      s.run.Reaches ys (.done (some f)) →
      f.Arises program (Script.Stmt.allSites program.body) ∧
      f.text = f.root.message ++ Script.Fault.ending f.origin ++
        String.join (f.calls.map Script.Fault.trail) ∧
      f.text = f.diagnostic.message ++ Script.Fault.ending f.outermost ∧
      f.diagnostic.line = some f.outermost.line ∧ f.diagnostic.column = some f.outermost.column) ∧
    (∀ d, Script.evaluate source = some d → ∃ ys f,
      ({ program, console := false } : Script.Setting).run.Reaches ys (.done (some f)) ∧
      d = f.diagnostic) ∧
    ∀ (grants : Nat → Bool) (sink : Sink) (config : Config) (calls : List (Nat × Call))
      (s : Session) (r : RunReport),
      s ∈ ((create Script.engine grants sink config).after calls).sessions → s.report? = some r →
      (s.id, source) ∈ (create Script.engine grants sink config).programs calls →
      r.outcome = .runtimeError →
      let ds := Act.deedsOf s.id ((create Script.engine grants sink config).history calls)
      ∃ xs f line, s.Transcript config.run.pause (Script.engine.drive config.run.debug source) xs ds ∧
        Script.Evaluates { program, debug := config.run.debug } xs (some f) ∧
        line = .line ("Runtime error: line " ++ Decimal.natText f.outermost.line ++ ", column " ++
          Decimal.natText f.outermost.column ++ ": " ++ f.diagnostic.message) ∧
        Dialogue.complaints xs = [line] ∧ .print line ∈ ds := by
  refine ⟨?_, fun d hd => Script.reaches_of_evaluate hp hd, ?_⟩
  · rintro s ys f rfl hrun
    have hd := f.diagnostic_eq
    rw [← f.outermost_eq_place] at hd
    refine ⟨s.arises hrun, f.text_eq_trail, ?_, ?_, ?_⟩
    · rw [hd, f.outermost_eq_place]
      exact f.text_eq_message
    · rw [hd]
    · rw [hd]
  · intro grants sink config calls s r hs hr hg ho ds
    obtain ⟨xs, f, ht, hev, hc, hprint⟩ :=
      complaint_of_runtimeError grants sink config calls hs hr hg hp ho
    refine ⟨xs, f, Script.complaint f, ht, hev, ?_, hc, hprint⟩
    have hwords : "Runtime error: line " = "Runtime error: " ++ "line " := rfl
    rw [Script.complaint, Script.Fault.diagnostic_text, hwords]
    simp only [String.append_assoc]

/-- A division by zero in a function that the second line calls. -/
theorem failures_shown_at_outermost_call_division :
    let source := "fn f(x) { x / 0 }\nf(3)"
    let calls : List (Nat × Call) := [(0, .start source true)]
    let b := create Script.engine (fun _ => true) (.capture "") {}
    ∃ program, Script.parse source = .ok program ∧
      (∃ f ys, ({ program, console := false } : Script.Setting).run.Reaches ys (.done (some f)) ∧
        f.Arises program (Script.Stmt.allSites program.body) ∧ f.origin = ⟨1, 13⟩ ∧
        f.calls = [("f", ⟨2, 1⟩)] ∧ f.diagnostic.line = some 2 ∧ f.diagnostic.column = some 1 ∧
        f.text = f.diagnostic.message ++ Script.Fault.ending ⟨2, 1⟩) ∧
      (∃ d, Script.evaluate source = some d ∧ d.line = some 2 ∧ d.column = some 1 ∧
        ∃ (f : Script.Fault), d = f.diagnostic) ∧
      ∃ s ∈ (b.after calls).sessions, s.report? = some ⟨1, .runtimeError, 0, 0, 0⟩ ∧
        ∃ (f : Script.Fault) (line : OutputEvent),
          line = .line ("Runtime error: line " ++ Decimal.natText f.outermost.line ++ ", column " ++
            Decimal.natText f.outermost.column ++ ": " ++ f.diagnostic.message) ∧
          .print line ∈ Act.deedsOf s.id (b.history calls) := by
  intro source calls b
  have hparses : (Script.parse source).toOption.isSome = true := by decide +kernel
  have hfails : (Script.parse source).toOption.bind (fun program =>
      ((Script.unattended ({ program, console := false } : Script.Setting).run).bind id).map
        fun f => (f.origin, f.calls)) = some (⟨1, 13⟩, [("f", ⟨2, 1⟩)]) := by decide +kernel
  have hshown : (Script.evaluate source).map (fun d => (d.line, d.column)) = some (some 2, some 1) := by
    decide +kernel
  have hend : (b.after calls).sessions.any (fun s => s.id = 1 ∧
      s.report? = some ⟨1, .runtimeError, 0, 0, 0⟩) = true := by decide +kernel
  have hgiven : (1, source) ∈ b.programs calls := by decide +kernel
  cases hp : Script.parse source with
  | error e =>
    rw [hp] at hparses
    cases hparses
  | ok program =>
    obtain ⟨heval, hevaluate, hbridge⟩ := failures_shown_at_outermost_call hp
    refine ⟨program, rfl, ?_, ?_, ?_⟩
    · rw [hp] at hfails
      obtain ⟨f, hf, hplaces⟩ := Option.map_eq_some_iff.mp hfails
      obtain ⟨failure, hrun, rfl⟩ := Option.bind_eq_some_iff.mp hf
      obtain ⟨ys, hys⟩ := Script.reaches_of_unattended hrun
      obtain ⟨horigin, hcalls⟩ := Prod.mk.inj hplaces
      obtain ⟨harises, -, htext, hline, hcolumn⟩ := heval _ ys f rfl hys
      have houtermost : f.outermost = ⟨2, 1⟩ := by simp [Script.Fault.outermost, hcalls]
      rw [houtermost] at htext hline hcolumn
      exact ⟨f, ys, hys, harises, horigin, hcalls, hline, hcolumn, htext⟩
    · obtain ⟨d, hd, hplace⟩ := Option.map_eq_some_iff.mp hshown
      obtain ⟨hline, hcolumn⟩ := Prod.mk.inj hplace
      obtain ⟨ys, f, -, hf⟩ := hevaluate d hd
      exact ⟨d, hd, hline, hcolumn, f, hf⟩
    · obtain ⟨s, hs, hend⟩ := List.any_eq_true.mp hend
      obtain ⟨hid, hr⟩ := of_decide_eq_true hend
      obtain ⟨xs, f, line, -, -, hline, -, hprint⟩ :=
        hbridge (fun _ => true) (.capture "") {} calls s _ hs hr (hid ▸ hgiven) rfl
      exact ⟨s, hs, hr, f, line, hline, hprint⟩

end Bridge

end Conduit

import Conduit.Command.Basic
import Conduit.Proofs.Bridge.Cancel
import Conduit.Proofs.Bridge.Rejection
import Conduit.Proofs.Bridge.Starting

/-!
A program at a terminal. Whatever is typed there, its run stays the only one of its bridge, so what is
known of the runs of a bridge decides how the command ends.
-/
namespace Conduit
open Bridge (Settled)

def Bridge.OnlyRuns (config : Config) (source : String) (b : Bridge) : Prop :=
  ∃ past, Settled config (Script.engine.drive config.run.debug) (fun ds s => ∃ source' xs q,
    source' = source ∧
      s.Orderly config.run.pause (Script.engine.drive config.run.debug source') xs q ds) past b

namespace Bridge.OnlyRuns
variable {config : Config} {source : String} {b : Bridge}

theorem create (config : Config) (source : String) (grants : Nat → Bool) (sink : Sink) :
    OnlyRuns config source (Bridge.create Script.engine grants sink config) :=
  ⟨[], settled_create _ _ _ _ _⟩

theorem perform (h : OnlyRuns config source b) (ticket : Nat) (call : Call)
    (hcall : ∀ source' told, call = .start source' told → source' = source) :
    OnlyRuns config source (b.perform ticket call).1 := by
  obtain ⟨past, h⟩ := h
  have hlasting := lasting_orderly .script config fun _ source' => source' = source
  exact ⟨_, h.perform hlasting ticket call hcall⟩

theorem note (h : OnlyRuns config source b) (level : Log.Level) (area : Log.Area)
    (message : String) : OnlyRuns config source (b.note .host level area message) := by
  obtain ⟨past, h⟩ := h
  exact ⟨past, { h with sound := { h.sound with } }⟩

end Bridge.OnlyRuns

namespace Terminal
variable {config : Config} {source : String} {t : Terminal}

theorem onlyRuns_command (h : t.bridge.OnlyRuns config source) (call : Bridge.Call)
    (hcall : ∀ source' told, call ≠ .start source' told) :
    (t.command call).bridge.OnlyRuns config source := by
  have hb := h.perform 2 call fun source' told hc => absurd hc (hcall source' told)
  unfold command
  simp only
  split
  · exact hb.note _ _ _
  · exact hb

theorem onlyRuns_accept (h : t.bridge.OnlyRuns config source) (line : Option String) :
    (t.accept line).bridge.OnlyRuns config source := by
  cases line with
  | none => exact h.note _ _ _
  | some line =>
    unfold accept
    simp only
    split
    · exact h.perform 2 (.submit line) nofun
    · exact onlyRuns_command h .resume nofun
    · exact onlyRuns_command h .stop nofun

theorem onlyRuns_acceptAll (h : t.bridge.OnlyRuns config source) (lines : List (Option String)) :
    (t.acceptAll lines).bridge.OnlyRuns config source := by
  induction lines generalizing t with
  | nil => exact h
  | cons line rest ih =>
    unfold acceptAll
    split
    · exact h
    · exact ih (onlyRuns_accept h line)

theorem onlyRuns_interrupt (h : t.bridge.OnlyRuns config source) :
    t.interrupt.bridge.OnlyRuns config source :=
  onlyRuns_command h (.cancel _) nofun

theorem report_command (h : t.bridge.OnlyRuns config source) (call : Bridge.Call)
    (hcall : ∀ source' told, call ≠ .start source' told) {s : Session}
    (hs : s ∈ (t.bridge.perform 2 call).1.sessions) (hid : s.id = t.session) :
    (t.command call).report? = s.report? := by
  obtain ⟨past, hsettled⟩ := h.perform 2 call fun source' told hc => absurd hc (hcall source' told)
  have hfind := hsettled.sound.find?_eq hs
  rw [hid] at hfind
  unfold report? command
  simp only
  split
  · exact congrArg (·.bind Session.report?) hfind
  · exact congrArg (·.bind Session.report?) hfind

theorem report_interrupt (h : t.bridge.OnlyRuns config source) {r : RunReport}
    (hr : t.report? = some r) : t.interrupt.report? = some r := by
  obtain ⟨past, hsettled⟩ := id h
  obtain ⟨s, hfind, hs⟩ := Option.bind_eq_some_iff.mp hr
  have hid : s.id = t.session := by simpa using List.find?_some hfind
  obtain ⟨⟨s', hs', hid', hr'⟩, -⟩ := Bridge.report_perform hsettled.sound
    (List.mem_of_find?_eq_some hfind) hs 2 (.cancel t.session)
  rw [interrupt, report_command h (.cancel _) nofun hs' (hid'.trans hid), hr']

theorem cancelled_interrupt (h : t.bridge.OnlyRuns config source) {s : Session}
    (hfind : t.bridge.find? t.session = some s) (hbegun : s.hasBegun = true)
    (hgoing : s.isFinished = false) :
    ∃ r, t.interrupt.report? = some r ∧ r.outcome = .cancelled := by
  obtain ⟨past, hsettled⟩ := id h
  have hs := List.mem_of_find?_eq_some hfind
  have hid : s.id = t.session := by simpa using List.find?_some hfind
  obtain ⟨hrest, source', xs, q, -, hrun⟩ := hsettled.runs s hs
  obtain ⟨c, s₁, s', hs', hid', ht, hn⟩ :=
    Bridge.exists_perform hsettled.sound 2 (.cancel t.session) hs
  have hoff : t.bridge.callsOff (.cancel t.session) s.id := hid
  obtain ⟨rfl, -⟩ := Bridge.applied_of_callsOff hsettled.sound hs hoff ht.applied hn.alike.id
  have hconfig : c.config.run.pause = config.run.pause := by rw [ht.config, hsettled.config]
  obtain ⟨⟨r, hr, ho⟩, -⟩ := hrun.called_off hrest hbegun hgoing hconfig
  refine ⟨r, ?_, ho⟩
  rw [interrupt, report_command h (.cancel _) nofun hs' (hid'.trans hid), ht.goes, hr]

theorem acceptAll_of_isFinished (h : t.isFinished = true) (lines : List (Option String)) :
    t.acceptAll lines = t := by
  cases lines with
  | nil => rfl
  | cons line rest => simp only [acceptAll, h, Bool.true_or, if_true]

theorem outcome_of_ok {program : Script.Program} (h : t.bridge.OnlyRuns config source)
    (hp : Script.parse source = .ok program) {r : RunReport} (hr : t.report? = some r) :
    r.outcome ≠ .analysisFailed := by
  obtain ⟨past, h⟩ := h
  obtain ⟨s, hfind, hs⟩ := Option.bind_eq_some_iff.mp hr
  obtain ⟨-, source', xs, q, rfl, hrun⟩ := h.runs s (List.mem_of_find?_eq_some hfind)
  exact hrun.outcome_of_ok hp hs

end Terminal

namespace Bridge
variable {b : Bridge} {s : Session} {config : Config} {source : String}

theorem canSpawn_of_started {id : Nat} (h : (b.start source).2 = .started id) :
    b.canSpawn = true ∧ b.nextId = id := by
  obtain ⟨-, -, hfailed⟩ | ⟨-, -, hfailed, -⟩ | ⟨-, hspawn, hid, -⟩ := start_cases b source
  · rw [hfailed] at h
    cases h
  · rw [hfailed] at h
    cases h
  · rw [hid] at h
    exact ⟨hspawn, Reply.started.inj h⟩

theorem firstPhase_of_nobody (hnone : b.sessions = []) (source : String) :
    b.firstPhase source = .ready (b.drive source) := by
  unfold firstPhase active
  rw [hnone]
  cases b.config.run.overlap <;> rfl

theorem launch (hb : b.Sound) (hnone : b.sessions = []) (hempty : b.channel.pending = []) {id : Nat}
    (hstarted : (b.start source).2 = .started id) :
    (b.start source).1.sessions = [{ id, phase := .ready (b.drive source) }] ∧
    (b.start source).1.channel.pending = [] := by
  obtain ⟨hspawn, rfl⟩ := canSpawn_of_started hstarted
  have hlines := (hb.accounts (steps_start b source)).lines
  have hquiet : Act.submitted b.startActs = [] := by
    unfold startActs makeWayActs
    rw [hspawn]
    cases b.config.run.overlap <;> simp [Act.submitted, Act.submitted?, Act.discards]
  rw [hempty, hquiet, List.nil_append, eq_comm, List.append_eq_nil_iff] at hlines
  refine ⟨?_, hlines.2⟩
  obtain ⟨journal, hstart⟩ := start_eq b source
  rw [hstart]
  simp only [sessions_makeWay_eq, hnone, newRuns, hspawn, firstPhase_of_nobody hnone, if_true,
    List.map_nil, List.nil_append]

theorem first_run (h : OnlyRuns config source b) (hnone : b.sessions = []) {ticket id : Nat}
    (hreply : (b.perform ticket (.start source true)).2.reply = some (.started id)) :
    ∃ s, (b.perform ticket (.start source true)).1.find? id = some s ∧
      s.hasBegun = true ∧ s.cancelled = false := by
  obtain ⟨past, h⟩ := h
  obtain ⟨hspawn, rfl⟩ := canSpawn_of_started (Option.some.inj hreply)
  have hids := ids_start b ticket source true
  rw [hnone, hspawn] at hids
  obtain ⟨s, hs, hsid⟩ := List.map_eq_singleton_iff.mp hids
  have hmem : s ∈ (b.perform ticket (.start source true)).1.sessions := hs ▸ List.mem_singleton_self s
  obtain ⟨c, s₁, ht, ⟨t, htm, -⟩ | ⟨-, hnew⟩⟩ := mem_perform h.sound hmem
  · rw [hnone] at htm
    cases htm
  obtain ⟨source', told, hcall, rfl⟩ := mem_newcomers hnew
  refine ⟨s, ?_, ?_, ?_⟩
  · simp [find?, hs, hsid]
  · rw [ht.goes]
    exact hasBegun_advance c
      (by simp [Session.hasBegun, Session.behind?, firstPhase_of_nobody hnone])
  · rw [ht.goes, cancelled_advance]

theorem OnlyRuns.outcome_of_error (h : OnlyRuns config source b) {f : Script.ParseFault}
    (hp : Script.parse source = .error f) (hs : s ∈ b.sessions) (hbegun : s.hasBegun = true)
    (hkept : s.cancelled = false) : ∃ r, s.report? = some r ∧ r.outcome = .analysisFailed := by
  obtain ⟨past, h⟩ := h
  obtain ⟨hrest, source', xs, q, rfl, hrun⟩ := h.runs s hs
  obtain ⟨r, hr⟩ := hrun.finished_of_error hp hrest hbegun
  obtain ⟨fin, hfin, -, hv⟩ := hrun.exists_finish hr
  obtain ⟨-, rfl⟩ | ⟨rfl, -⟩ := Script.finishes_of_error hp hfin
  · obtain ⟨⟩ | ⟨hm, ⟨⟩⟩ := hrun.path
    cases hm
    rw [hrun.off rfl] at hkept
    cases hkept
  · exact ⟨r, hr, (Option.some.inj hv).symm⟩

end Bridge

namespace Terminal
variable {grants : Nat → Bool} {config : Config} {events : Bool} {source : String} {t : Terminal}

theorem started_of_ofReply {reply : Bridge.Reply} {id : Nat} (h : ofReply reply = .ok id) :
    reply = .started id := by
  unfold ofReply at h
  split at h <;> cases h
  rfl

def idle (grants : Nat → Bool) (config : Config) (events : Bool) : Bridge :=
  let b := Bridge.create Script.engine grants (.capture "") config
  if events then (b.perform 0 .subscribe).1 else b

theorem onlyRuns_idle (grants : Nat → Bool) (config : Config) (events : Bool) (source : String) :
    (idle grants config events).OnlyRuns config source ∧
      (idle grants config events).sessions = [] := by
  have hcreate := Bridge.OnlyRuns.create config source grants (.capture "")
  cases events with
  | true => exact ⟨hcreate.perform 0 .subscribe nofun, rfl⟩
  | false => exact ⟨hcreate, rfl⟩

theorem start_eq_ok (h : start grants config events source = .ok t) :
    t = { bridge := ((idle grants config events).perform 1 (.start source true)).1, session := t.session
          controls := config.run.pause = .host } ∧
    ((idle grants config events).perform 1 (.start source true)).2.reply = some (.started t.session) := by
  simp only [start, ← idle.eq_1] at h
  split at h
  next session hreply =>
    cases h
    obtain ⟨reply, hanswer, hof⟩ := Option.map_eq_some_iff.mp hreply
    rw [started_of_ofReply hof] at hanswer
    exact ⟨rfl, hanswer⟩
  · cases h
  · cases h

theorem first_run (h : start grants config events source = .ok t) :
    t.bridge.OnlyRuns config source ∧
    ∃ s, t.bridge.find? t.session = some s ∧ s.hasBegun = true ∧ s.cancelled = false := by
  obtain ⟨honly, hnone⟩ := onlyRuns_idle grants config events source
  obtain ⟨ht, hreply⟩ := start_eq_ok h
  rw [ht]
  refine ⟨honly.perform 1 (.start source true) fun source' told hc => ?_,
    Bridge.first_run honly hnone hreply⟩
  cases hc
  rfl

end Terminal

namespace Command
variable {p : Place} {o : RunOptions} {r : Prepared} {t : Terminal}

theorem exists_ok_of_any {ε α : Type} {result : Except ε α} {f : α → Bool}
    (h : result.toOption.any f = true) : ∃ a, result = .ok a ∧ f a = true := by
  cases result with
  | error e => cases h
  | ok a => exact ⟨a, rfl, h⟩

theorem readProgram_of_prepare (h : prepare p o = .ok r) : readProgram p o.file = .ok r.source := by
  unfold prepare at h
  split at h
  · cases h
  · cases hread : readProgram p o.file with
    | error g => simp [hread, bind, Except.bind] at h
    | ok source =>
      cases hload : loadConfig p o.config with
      | error g => simp [hread, hload, bind, Except.bind] at h
      | ok loaded =>
        simp only [hread, hload, bind, Except.bind] at h
        split at h
        · cases h
        · cases h
          rfl

theorem exit_checkProgram {file source : String} (h : readProgram p file = .ok source) :
    (checkProgram p file).exit = 1 ↔ ∃ d, (Script.check source).problem = some d := by
  unfold checkProgram
  rw [h]
  simp only
  cases (Script.check source).problem <;> simp

theorem runProgram_eq (hr : prepare p o = .ok r)
    (ht : Terminal.start p.grants r.config o.events r.source = .ok t) (typed : List UInt8) :
    runProgram p o typed = await (t.acceptAll (typedLines typed)) { err := r.logs.map .log } := by
  simp only [runProgram, hr, ht]

theorem await_of_report {report : RunReport} (h : t.report? = some report) (before : Emission) :
    await t before = .finished (conclude t report before) := by
  simp only [await, h]

theorem await_of_none (h : t.report? = none) (before : Emission) :
    await t before = .waiting t before := by
  simp only [await, h]

/-- A check gives up a program exactly if a run of it at a terminal is turned down, interrupted or not, and
then the run gives up as well. -/
theorem exit_checkProgram_iff (hr : prepare p o = .ok r)
    (ht : Terminal.start p.grants r.config o.events r.source = .ok t) (typed : List UInt8) :
    (∀ u ∈ [t.acceptAll (typedLines typed), (t.acceptAll (typedLines typed)).interrupt],
      ((checkProgram p o.file).exit = 1 ↔
        ∃ report, u.report? = some report ∧ report.outcome = .analysisFailed)) ∧
    ((checkProgram p o.file).exit = 1 → ∃ f, runProgram p o typed = .finished f ∧ f.exit = 1) := by
  obtain ⟨honly, s, hfind, hbegun, hkept⟩ := Terminal.first_run ht
  have hcheck := exit_checkProgram (readProgram_of_prepare hr)
  have hall := Terminal.onlyRuns_acceptAll honly (typedLines typed)
  have honlies : ∀ u ∈ [t.acceptAll (typedLines typed), (t.acceptAll (typedLines typed)).interrupt],
      u.bridge.OnlyRuns r.config r.source :=
    List.forall_mem_cons.mpr
      ⟨hall, List.forall_mem_singleton.mpr (Terminal.onlyRuns_interrupt hall)⟩
  have hrefused : ∀ {f : Script.ParseFault}, Script.parse r.source = .error f →
      ∃ report, report.outcome = .analysisFailed ∧
        ∀ u ∈ [t.acceptAll (typedLines typed), (t.acceptAll (typedLines typed)).interrupt],
          u.report? = some report := by
    intro f hp
    obtain ⟨report, hreport, ho⟩ :=
      honly.outcome_of_error hp (List.mem_of_find?_eq_some hfind) hbegun hkept
    have hdone : t.report? = some report := by
      rw [Terminal.report?, hfind]
      exact hreport
    have hfinished : t.isFinished = true := Option.isSome_iff_exists.mpr ⟨report, hdone⟩
    rw [Terminal.acceptAll_of_isFinished hfinished]
    exact ⟨report, ho, List.forall_mem_cons.mpr
      ⟨hdone, List.forall_mem_singleton.mpr (Terminal.report_interrupt honly hdone)⟩⟩
  refine ⟨fun u hu => ?_, fun hexit => ?_⟩
  · rw [hcheck]
    cases hp : Script.parse r.source with
    | error f =>
      obtain ⟨report, ho, hreports⟩ := hrefused hp
      exact iff_of_true ⟨_, Script.problem_eq_some.mpr ⟨f, hp, rfl⟩⟩ ⟨report, hreports u hu, ho⟩
    | ok program =>
      refine iff_of_false ?_ ?_
      · rintro ⟨d, hd⟩
        obtain ⟨f, hf, -⟩ := Script.problem_eq_some.mp hd
        rw [hp] at hf
        cases hf
      · rintro ⟨report, hreport, ho⟩
        exact Terminal.outcome_of_ok (honlies u hu) hp hreport ho
  · obtain ⟨d, hd⟩ := hcheck.mp hexit
    obtain ⟨f, hp, -⟩ := Script.problem_eq_some.mp hd
    obtain ⟨report, ho, hreports⟩ := hrefused hp
    refine ⟨_, (runProgram_eq hr ht typed).trans
      (await_of_report (hreports _ List.mem_cons_self) _), ?_⟩
    rw [conclude, ho]
    rfl

open Bridge in
/-- A check objects to a program exactly if its runs are turned down, on a bridge with any settings and
at a terminal, interrupted there or not. A run that is turned down says what the check says and nothing
else, tells of no event of an execution, counts nothing and takes no line. -/
theorem check_agrees_with_run :
    (∀ (grants : Nat → Bool) (sink : Sink) (config : Config) (calls : List (Nat × Call))
        (s : Session) (source : String),
      s ∈ ((create Script.engine grants sink config).after calls).sessions →
      (s.id, source) ∈ (create Script.engine grants sink config).programs calls →
      s.hasBegun = true → ¬ (create Script.engine grants sink config).CalledOffUnbegun calls s.id →
      let acts := (create Script.engine grants sink config).history calls
      ((∃ d, (Script.check source).problem = some d) ↔
        ∃ r, s.report? = some r ∧ r.outcome = .analysisFailed) ∧
      ∀ d, (Script.check source).problem = some d →
        s.report? = some ⟨s.id, .analysisFailed, 0, 0, 0⟩ ∧
        Deed.prints (Act.deedsOf s.id acts) = [.line ("Syntax error: " ++ d.text)] ∧
        Act.eventsOf s.id acts = [.spawned, .analysisFinished false, .finished .analysisFailed] ∧
        Deed.receipts (Act.deedsOf s.id acts) = []) ∧
    ∀ (p : Place) (o : RunOptions) (r : Prepared) (t : Terminal) (typed : List UInt8),
      prepare p o = .ok r → Terminal.start p.grants r.config o.events r.source = .ok t →
      (∀ u ∈ [t.acceptAll (typedLines typed), (t.acceptAll (typedLines typed)).interrupt],
        ((checkProgram p o.file).exit = 1 ↔
          ∃ report, u.report? = some report ∧ report.outcome = .analysisFailed)) ∧
      ((checkProgram p o.file).exit = 1 → ∃ f, runProgram p o typed = .finished f ∧ f.exit = 1) :=
  ⟨fun grants sink config calls _ _ hs hg hbegun hkept =>
      turned_down_iff grants sink config calls hs hg hbegun hkept,
    fun _ _ _ _ typed hr ht => exit_checkProgram_iff hr ht typed⟩

open Bridge in
/-- A program that breaks off amid its first statement, with a line that it does not take. -/
theorem check_agrees_with_run_unfinished :
    let config : Config := { run := { pause := .host, debug := true } }
    let calls : List (Nat × Call) := [(0, .submit "x"), (1, .start "let" true)]
    let b := create Script.engine (fun _ => true) (.capture "") config
    let p : Place := { files := .dir [("a", .file (Text.encode "let"))], homeShown := "" }
    (∃ d, (Script.check "let").problem = some d ∧ ∃ s ∈ (b.after calls).sessions,
      s.report? = some ⟨s.id, .analysisFailed, 0, 0, 0⟩ ∧
      Deed.prints (Act.deedsOf s.id (b.history calls)) = [.line ("Syntax error: " ++ d.text)]) ∧
    (checkProgram p "a").exit = 1 ∧
      ∃ f, runProgram p { file := "a" } [] = .finished f ∧ f.exit = 1 := by
  intro config calls b p
  have hproblem : (Script.check "let").problem.isSome = true := by decide +kernel
  have hrun : (b.after calls).sessions.any (fun s => s.id = 1 ∧ s.hasBegun = true) = true := by
    decide +kernel
  have hgiven : (1, "let") ∈ b.programs calls := by decide +kernel
  have hkept : ((b.after [(0, .submit "x")]).apply 1 (.start "let" true)).1.sessions.all
      (fun x => x.cancelled = false) = true := by decide +kernel
  have hcheck : (checkProgram p "a").exit = 1 := by decide +kernel
  have hprepared : (prepare p { file := "a" }).toOption.any
      (fun r => (Terminal.start p.grants r.config false r.source).toOption.any fun _ => true) = true :=
        by decide +kernel
  obtain ⟨d, hd⟩ := Option.isSome_iff_exists.mp hproblem
  obtain ⟨s, hs, hrun⟩ := List.any_eq_true.mp hrun
  obtain ⟨hid, hbegun⟩ := of_decide_eq_true hrun
  have hnever : ¬ b.CalledOffUnbegun calls s.id := by
    rintro ⟨before, ticket, call, later, hcalls, x, hx, -, hoff, -⟩
    -- Before the first call there is no run, and the second one starts it.
    obtain - | ⟨c, - | ⟨c', before⟩⟩ := before
    · cases (List.cons.inj hcalls).1
      cases hx
    · obtain ⟨hfirst, hrest⟩ := List.cons.inj hcalls
      cases hfirst
      cases (List.cons.inj hrest).1
      have hon := of_decide_eq_true (List.all_eq_true.mp hkept x hx)
      rw [hon] at hoff
      cases hoff
    · simp [calls] at hcalls
  obtain ⟨r, hr, hstarted⟩ := exists_ok_of_any hprepared
  obtain ⟨t, ht, -⟩ := exists_ok_of_any hstarted
  obtain ⟨hbridge, hterminal⟩ := check_agrees_with_run
  obtain ⟨hreport, hprints, -⟩ :=
    (hbridge (fun _ => true) (.capture "") config calls s "let" hs (hid ▸ hgiven) hbegun hnever).2 d hd
  exact ⟨⟨d, hd, s, hs, hreport, hprints⟩, hcheck, (hterminal p { file := "a" } r t [] hr ht).2 hcheck⟩

end Command

end Conduit

import Conduit.Proofs.Command.Events
import Conduit.Proofs.Command.Running
import Conduit.Proofs.Text.Lines

/-!
What is typed at a terminal. The lines that are input reach the reads of its program, each the read of its
number, as they were typed.
-/
namespace Conduit
open Bridge (Call)

namespace Bridge
variable {b : Bridge} {line : String}

theorem writers_step {b' : Bridge} {acts : List Act} (h : Step b acts b') (hin : Act.submitted acts = []) :
    b'.channel.writers ⊆ b.channel.writers := by
  cases h with
  | advance before s after hs =>
    obtain ⟨he, -⟩ | ⟨b₁, s', he, hm, -⟩ := advanceAmong_cases hs <;> rw [he]
    · exact List.Subset.refl _
    · exact hm.writers
  | handOver | buffer | block => cases hin
  | take line channel served ht => exact Channel.writers_take? ht
  | clear => exact fun w hw => List.mem_of_mem_drop hw
  | cancel id => exact fun w hw => (List.mem_filter.mp hw).1
  | _ => exact List.Subset.refl _

theorem writers_steps {b' : Bridge} {acts : List Act} (h : Steps b acts b')
    (hin : Act.submitted acts = []) : b'.channel.writers ⊆ b.channel.writers := by
  induction h with
  | refl b => exact List.Subset.refl _
  | more h t ih =>
    rw [Act.submitted_append, List.append_eq_nil_iff] at hin
    exact fun w hw => writers_step h hin.1 (ih hin.2 hw)

theorem submitted_settleActs (rest : List Session) (b : Bridge) :
    Act.submitted (b.settleActs rest) = [] := by
  induction rest generalizing b with
  | nil => rfl
  | cons s rest ih => rw [settleActs, Act.submitted_append, Act.submitted_run, ih, List.append_nil]

theorem writers_perform (b : Bridge) (ticket : Nat) (call : Call) :
    (b.perform ticket call).1.channel.writers ⊆ (b.apply ticket call).1.channel.writers :=
  writers_steps (steps_settled b ticket call) (submitted_settleActs _ _)

theorem writers_submit (hroom : b.channel.writers = []) {ticket : Nat} {reply : Reply}
    (hreply : (b.submit ticket line).2 = some reply) :
    (b.submit ticket line).1.channel.writers = [] := by
  unfold submit at hreply ⊢
  cases htry : b.trySubmit line with
  | some b' =>
    obtain ⟨-, ⟨-, rfl⟩ | ⟨r, rs, -, rfl⟩⟩ := trySubmit_eq_some htry <;> exact hroom
  | none =>
    simp only [htry] at hreply ⊢
    cases hfull : b.channel.whenFull with
    | block =>
      rw [hfull] at hreply
      cases hreply
    | drop => exact hroom

/-- A line that waits for room where no run can take a step goes on waiting. -/
theorem writers_of_blocked (hb : b.Sound) (hr : ∀ s ∈ b.sessions, s.AtRest)
    (hbegun : ∀ s ∈ b.sessions, s.hasBegun = true) {ticket : Nat}
    (hreply : (b.submit ticket line).2 = none) :
    (b.perform ticket (.submit line)).1.channel.writers ≠ [] := by
  have hblocked : (b.apply ticket (.submit line)).1 =
      { b with channel := b.channel.enqueueWriter ⟨ticket, none, line⟩ } := by
    simp only [apply]
    unfold submit at hreply ⊢
    cases htry : b.trySubmit line with
    | some b' => simp only [htry, reduceCtorEq] at hreply
    | none =>
      simp only [htry] at hreply ⊢
      cases hfull : b.channel.whenFull with
      | block => rfl
      | drop => simp only [hfull, reduceCtorEq] at hreply
  have hsound := hb.apply ticket (.submit line)
  rw [hblocked] at hsound
  have hkept := (still_of_begun hsound hr hbegun).eq_of_ticks
    (ticks_settle { b with channel := b.channel.enqueueWriter ⟨ticket, none, line⟩, sessions := [] }
      b.sessions)
  have hwriters : (b.perform ticket (.submit line)).1.channel.writers =
      ((b.apply ticket (.submit line)).1.settle fun _ => false).channel.writers := rfl
  rw [hwriters, hblocked]
  unfold settle
  rw [hkept]
  simp [Channel.enqueueWriter]

end Bridge

namespace Terminal
variable {controls : Bool} {id : Nat} {config : Config} {work : Behaviour Ending} {inputs : List String}
  {typed rest : List (Option String)} {acts : List Act} {b₀ : Bridge}
  {grants : Nat → Bool} {t : Terminal} {events : Bool} {source line : String}

theorem command_keeps (t : Terminal) (call : Call) :
    (t.command call).controls = t.controls ∧ (t.command call).session = t.session ∧
    (t.command call).closed = t.closed ∧
    (t.command call).bridge.channel = (t.bridge.perform 2 call).1.channel := by
  unfold command
  simp only
  split <;> exact ⟨rfl, rfl, rfl, rfl⟩

theorem accept_keeps (t : Terminal) (line : Option String) :
    (t.accept line).controls = t.controls ∧ (t.accept line).session = t.session := by
  cases line with
  | none => exact ⟨rfl, rfl⟩
  | some line =>
    unfold accept
    simp only
    split
    · exact ⟨rfl, rfl⟩
    · exact ⟨(command_keeps t .resume).1, (command_keeps t .resume).2.1⟩
    · exact ⟨(command_keeps t .stop).1, (command_keeps t .stop).2.1⟩

theorem writers_command (hroom : t.bridge.channel.writers = []) {call : Call}
    (hin : Act.submitted (t.bridge.applyActs call) = []) :
    (t.command call).bridge.channel.writers = [] := by
  rw [(command_keeps t call).2.2.2]
  refine List.eq_nil_of_subset_nil fun w hw => ?_
  exact hroom ▸ Bridge.writers_steps (Bridge.steps_apply t.bridge 2 call) hin
    (Bridge.writers_perform t.bridge 2 call hw)

theorem session_acceptAll (t : Terminal) (lines : List (Option String)) :
    (t.acceptAll lines).session = t.session := by
  induction lines generalizing t with
  | nil => rfl
  | cons line lines ih =>
    unfold acceptAll
    split
    · rfl
    · rw [ih, (accept_keeps t line).2]

/-- The reader of the lines goes on after a line if and only if that does not wait for room. -/
theorem closed_accept (honly : t.bridge.OnlyRuns config source)
    (hbegun : ∀ s ∈ t.bridge.sessions, s.hasBegun = true) (hroom : t.bridge.channel.writers = [])
    (hopen : t.closed = false) (line : String) :
    (t.accept (some line)).closed = false ↔ (t.accept (some line)).bridge.channel.writers = [] := by
  unfold accept
  simp only
  split
  · obtain ⟨past, hsettled⟩ := honly
    unfold submit
    cases hreply : (t.bridge.submit 2 line).2 with
    | none =>
      have hwaits := Bridge.writers_of_blocked hsettled.sound (fun s hs => (hsettled.runs s hs).1) hbegun
        hreply
      refine iff_of_false ?_ hwaits
      change ¬ (t.bridge.submit 2 line).2.isNone = false
      rw [hreply]
      exact Bool.noConfusion
    | some reply =>
      refine iff_of_true ?_ (List.eq_nil_of_subset_nil fun w hw => ?_)
      · change (t.bridge.submit 2 line).2.isNone = false
        rw [hreply]
        rfl
      · exact Bridge.writers_submit hroom hreply ▸ Bridge.writers_perform t.bridge 2 (.submit line) hw
  · refine iff_of_true ((command_keeps t .resume).2.2.1.trans hopen) (writers_command hroom ?_)
    exact (Bridge.resumeActs_quiet t.bridge 0).1
  · exact iff_of_true ((command_keeps t .stop).2.2.1.trans hopen) (writers_command hroom rfl)

/-- A terminal looks at its lines until the program has ended, or to the last of them that the reader of
the lines can get to. -/
theorem goes_acceptAll (hstart : Attends controls id config work inputs [] typed b₀)
    (ls : List (List UInt8)) (hg : Goes controls id typed b₀ acts (ls.map Text.decode?) t.bridge)
    (hcontrols : t.controls = controls) (honly : t.bridge.OnlyRuns config source)
    (hclosed : t.closed = false ↔ t.bridge.channel.writers = []) :
    ∃ more rest, Goes controls id typed b₀ (acts ++ more) rest (t.acceptAll (decodedLines ls)).bridge ∧
      ((t.acceptAll (decodedLines ls)).isFinished = true ∨ rest = [] ∨
        (t.acceptAll (decodedLines ls)).bridge.channel.writers ≠ []) := by
  -- By induction on the lines. An open reader stands where no line waits for room, and so it does again
  -- behind a line that leaves it open.
  induction ls generalizing t acts with
  | nil => exact ⟨[], [], (List.append_nil acts).symm ▸ hg, .inr (.inl rfl)⟩
  | cons bytes ls ih =>
    by_cases hstop : t.isFinished = true ∨ t.closed = true
    · have hkept : t.acceptAll (decodedLines (bytes :: ls)) = t := by
        unfold decodedLines
        cases Text.decode? bytes <;> simp only [acceptAll, Bool.or_eq_true, hstop, if_true]
      rw [hkept]
      refine ⟨[], _, (List.append_nil acts).symm ▸ hg, hstop.imp_right fun hshut => .inr fun hroom => ?_⟩
      rw [hclosed.mpr hroom] at hshut
      cases hshut
    · obtain ⟨hgoing, hopen⟩ := not_or.mp hstop
      have hroom := hclosed.mp (Bool.eq_false_of_not_eq_true hopen)
      unfold decodedLines
      cases hdecode : Text.decode? bytes with
      | none =>
        simp only [acceptAll, Bool.or_eq_true, hstop, if_false]
        rw [List.map_cons, hdecode] at hg
        refine ⟨[] ++ [], [], ?_, .inr (.inl rfl)⟩
        rw [← List.append_assoc]
        exact (hg.more (.giveUp rfl hroom)).more (.aside _ _ _ _ _)
      | some line =>
        simp only [acceptAll, Bool.or_eq_true, hstop, if_false]
        rw [List.map_cons, hdecode] at hg
        obtain ⟨more, hnext⟩ := hg.accept hcontrols hroom
        obtain ⟨later, rest, hlater, hend⟩ := ih hnext ((accept_keeps t _).1.trans hcontrols)
          (onlyRuns_accept honly _)
          (closed_accept honly (hstart.goes hg).hasBegun hroom (Bool.eq_false_of_not_eq_true hopen) line)
        exact ⟨_, rest, List.append_assoc acts more later ▸ hlater, hend⟩

theorem launch_start (h : start grants config events source = .ok t) :
    let b₀ := ((idle grants config events).apply 1 (.start source true)).1
    b₀.sessions = [{ id := t.session, phase := .ready ((idle grants config events).drive source) }] ∧
    b₀.channel.pending = [] := by
  obtain ⟨⟨past, hsettled⟩, hnone⟩ := onlyRuns_idle grants config events source
  have hempty : (idle grants config events).channel.pending = [] := by cases events <;> rfl
  exact Bridge.launch hsettled.sound hnone hempty (Option.some.inj (start_eq_ok h).2)

theorem attends_start (h : start grants config events source = .ok t) (typed : List (Option String))
    (hroom : config.input.whenFull = .block ∨
      (inputOf t.controls typed).length ≤ config.input.capacity) :
    Attends t.controls t.session config (Script.engine.drive config.run.debug source)
      (inputOf t.controls typed) [] typed
      ((idle grants config events).apply 1 (.start source true)).1 := by
  obtain ⟨⟨past, hsettled⟩, hnone⟩ := onlyRuns_idle grants config events source
  obtain ⟨hsessions, hpending⟩ := launch_start h
  have ha :=
    hsettled.sound.accounts (Bridge.steps_apply (idle grants config events) 1 (.start source true))
  have hchannel : (idle grants config events).channel =
      Channel.ofCapacity config.input.capacity config.input.whenFull := by cases events <;> rfl
  have hlisted : (idle grants config events).Listed := fun s hs => by
    rw [hnone] at hs
    cases hs
  refine ⟨ha.sound, hlisted.apply hsettled.sound 1 (.start source true), ha.config.trans hsettled.config,
    ?_, ⟨_, [], hsessions, rfl, hsettled.drive ▸ .newcomer _ _ _⟩, ?_⟩
  · rw [ha.whenFull, ha.limit, hchannel]
    exact hroom.imp_right fun hfits => hfits.trans (Nat.le_max_left _ _)
  · rw [hpending]
    rfl

theorem closed_start (h : start grants config events source = .ok t) :
    t.closed = false ↔ t.bridge.channel.writers = [] := by
  obtain ⟨-, hpending⟩ := launch_start h
  have hnone := List.map_eq_nil_iff.mp (List.append_eq_nil_iff.mp hpending).2
  rw [(start_eq_ok h).1]
  refine iff_of_true rfl (List.eq_nil_of_subset_nil fun w hw => ?_)
  exact hnone ▸ Bridge.writers_perform (idle grants config events) 1 (.start source true) hw

theorem goes_start (h : start grants config events source = .ok t) (typed : List (Option String)) :
    ∃ acts, Goes t.controls t.session typed
      ((idle grants config events).apply 1 (.start source true)).1 acts typed t.bridge := by
  have hbridge : t.bridge = ((idle grants config events).perform 1 (.start source true)).1 :=
    congrArg Terminal.bridge (start_eq_ok h).1
  obtain ⟨more, hg⟩ := Goes.perform
    (.start : Goes t.controls t.session typed
      ((idle grants config events).apply 1 (.start source true)).1 [] typed
      ((idle grants config events).apply 1 (.start source true)).1)
  rw [hbridge]
  exact ⟨_, hg⟩

/-- The lines of what is typed that are input: those before the first that is no text and, where the host
resumes, without its commands. -/
def inputLines (pause : PausePolicy) (ls : List (List UInt8)) : List String :=
  let texts := ((ls.map Text.decode?).takeWhile Option.isSome).reduceOption
  match pause with
  | .autoResume => texts
  | .host => texts.filter fun line => Text.trim line ≠ ":resume" ∧ Text.trim line ≠ ":stop"

theorem inputOf_start (h : start grants config events source = .ok t) (ls : List (List UInt8)) :
    inputOf t.controls (ls.map Text.decode?) = inputLines config.run.pause ls := by
  have hcontrols : t.controls = decide (config.run.pause = .host) :=
    congrArg Terminal.controls (start_eq_ok h).1
  rw [inputOf_eq, hcontrols]
  unfold inputLines
  cases config.run.pause with
  | autoResume => exact List.filter_eq_self.mpr fun _ _ => rfl
  | host =>
    refine List.filter_congr fun line _ => ?_
    simp only [actionOf, decide_true, if_true]
    split
    · simp [*]
    · split <;> simp [*]

end Terminal

namespace Command
open Terminal

/-- What is typed at a terminal reaches the reads of its program. Whenever between the steps of the run the
lines are looked at, and whenever it is called off, the read of each number gets the line of that number
among those that are input, as it was typed, unless the run is called off. At a read that no line is left
for, all of them have been read. Where writes block this is so however many lines the channel holds; where
lines are dropped, it has to hold those that are input. What a terminal does with its lines is one of the
ways, in which it looks at them until the program has ended or nothing more can happen, and so it is with
Ctrl+C after that. The command finishes with a program that has ended; with one that waits it goes on
waiting until Ctrl+C calls the program off. -/
theorem reads_follow_typed_lines {p : Place} {o : RunOptions} {r : Prepared} {t : Terminal}
    {bytes : List UInt8} {ls : List (List UInt8)} (hr : prepare p o = .ok r)
    (ht : Terminal.start p.grants r.config o.events r.source = .ok t)
    (hls : Text.Lined 10 13 bytes ls) (hroom : r.config.input.whenFull = .block ∨
      (inputLines r.config.run.pause ls).length ≤ r.config.input.capacity) :
    let inputs := inputLines r.config.run.pause ls
    let work := Script.engine.drive r.config.run.debug r.source
    let b₀ := ((idle p.grants r.config o.events).apply 1 (.start r.source true)).1
    (∀ acts unread b, Goes t.controls t.session (ls.map Text.decode?) b₀ acts unread b →
      (∃ s xs, b.sessions = [s] ∧
        s.Underway r.config.run.pause work xs (Act.deedsOf t.session acts) ∧
        (∀ (k : Nat) reply, (Dialogue.replies xs)[k]? = some reply →
          (∃ line, reply = some line ∧ inputs[k]? = some line) ∨ reply = none ∧ s.cancelled = true) ∧
        (s.isReading = true → unread = [] ∨ b.channel.writers ≠ [] →
          Dialogue.replies xs = inputs.map some)) ∧
      ∃ more rest c, Goes t.controls t.session (ls.map Text.decode?) b₀ (acts ++ more) rest c ∧
        Halted rest c) ∧
    (∀ place env k line, (Script.Eval.consoleFunction "read_line" [] place env k).Reaches
      [⟨.read true, some line⟩, ⟨.isCancelled, false⟩, ⟨.tell (.readExecuted place.line), ()⟩]
      (k (.ok ⟨.text line, none⟩) env)) ∧
    let u := t.acceptAll (typedLines bytes)
    let before : Emission := { err := r.logs.map .log }
    (∃ acts unread, Goes t.controls t.session (ls.map Text.decode?) b₀ acts unread u.bridge ∧
      (u.isFinished = true ∨ Halted unread u.bridge)) ∧
    (∃ acts unread, Goes t.controls t.session (ls.map Text.decode?) b₀ acts unread
      u.interrupt.bridge) ∧
    (∀ report, u.report? = some report →
      runProgram p o bytes = .finished (conclude u report before)) ∧
    (u.report? = none → runProgram p o bytes = .waiting u before ∧
      ∃ report, u.interrupt.report? = some report ∧ report.outcome = .cancelled ∧
        (runProgram p o bytes).interrupt = .finished (conclude u.interrupt report before)) := by
  intro inputs work b₀
  obtain rfl : Text.byteLines bytes = ls := (Text.lined_iff (by decide)).mp hls
  rw [← inputOf_start ht] at hroom
  have hstart := attends_start ht ((Text.byteLines bytes).map Text.decode?) hroom
  rw [inputOf_start ht] at hstart
  obtain ⟨honly, -⟩ := Terminal.first_run ht
  obtain ⟨acts₀, hbegin⟩ := goes_start ht ((Text.byteLines bytes).map Text.decode?)
  obtain ⟨more, rest, hall, hend⟩ := goes_acceptAll hstart (Text.byteLines bytes) hbegin rfl honly
    (closed_start ht)
  have hbegun := (hstart.goes hall).hasBegun
  have honlies := onlyRuns_acceptAll honly (typedLines bytes)
  have hrun := runProgram_eq hr ht bytes
  refine ⟨fun acts unread b hg => ⟨?_, hg.exists_halted⟩,
    fun place env k line => .more (.more (.more (.refl _))), ?_⟩
  · have h := hstart.goes hg
    obtain ⟨s, xs, hs, -, hrun⟩ := h.run
    refine ⟨s, xs, hs, hrun, fun k reply hk => ?_, fun hread hend => ?_⟩
    · refine (hrun.reply_eq hk).imp_left fun ⟨line, hreply, hline⟩ => ⟨line, hreply, ?_⟩
      obtain ⟨later, hlater⟩ := h.receipts_first
      change (inputLines r.config.run.pause (Text.byteLines bytes))[k]? = some line
      rw [← hlater, List.getElem?_append_left (List.getElem?_eq_some_iff.mp hline).1, hline]
    · rw [hrun.replies_eq (hrun.reading hread), h.receipts_eq (hs ▸ List.mem_singleton_self s) hread hend]
  · intro u before
    refine ⟨?_, ?_, fun report hreport => hrun.trans (await_of_report hreport before),
      fun hwaits => ?_⟩
    · obtain ⟨past, hsettled⟩ := honlies
      have hstill := Bridge.still_of_begun hsettled.sound (fun s hs => (hsettled.runs s hs).1) hbegun
      exact ⟨_, rest, hall, hend.imp_right fun hlast => ⟨hstill, hlast⟩⟩
    · have hoff := hall.more (.interrupt 2)
      rw [← session_acceptAll t (typedLines bytes)] at hoff ⊢
      obtain ⟨later, hended⟩ := hoff.command
      exact ⟨_, rest, hended⟩
    · have hwaiting : runProgram p o bytes = .waiting u before :=
        hrun.trans (await_of_none hwaits before)
      obtain ⟨s, xs, hs, hid, -⟩ := (hstart.goes hall).run
      have hfind : u.bridge.find? u.session = some s := by
        rw [session_acceptAll t (typedLines bytes), ← hid]
        exact Bridge.find?_of_mem (hs ▸ List.mem_singleton_self s) fun v hv _ =>
          List.mem_singleton.mp (hs ▸ hv)
      have hgoing : s.isFinished = false := by
        rw [Terminal.report?, hfind, Option.bind_some] at hwaits
        rw [Session.isFinished, hwaits]
        rfl
      obtain ⟨report, hreport, ho⟩ := cancelled_interrupt honlies hfind
        (hbegun s (hs ▸ List.mem_singleton_self s)) hgoing
      refine ⟨hwaiting, report, hreport, ho, ?_⟩
      rw [hwaiting]
      exact await_of_report hreport before

/-- Room for one line, a command between two lines of input, and bytes that are no text. -/
theorem reads_follow_typed_lines_one_place :
    let p : Place :=
      { files := .dir [("a", .file (Text.encode "pause(); read_line(); print(read_line())")),
          ("c", .file (Text.encode "[input]\ncapacity = 1\n"))]
        homeShown := "" }
    let o : RunOptions := { file := "a", config := some "c", pause := some .host }
    let bytes := Text.encode "x\r\n :resume\nb \n" ++ [0xFF, 10] ++ Text.encode "c\n"
    let ls := [Text.encode "x", Text.encode " :resume", Text.encode "b ", [0xFF], Text.encode "c"]
    ∃ r t, prepare p o = .ok r ∧ Terminal.start p.grants r.config o.events r.source = .ok t ∧
      r.config.input.whenFull = .block ∧ r.config.input.capacity = 1 ∧ Text.Lined 10 13 bytes ls ∧
      ∀ acts unread b, Goes t.controls t.session (ls.map Text.decode?)
          ((idle p.grants r.config o.events).apply 1 (.start r.source true)).1 acts unread b →
        ∃ s xs, b.sessions = [s] ∧
          s.Underway r.config.run.pause (Script.engine.drive r.config.run.debug r.source) xs
            (Act.deedsOf t.session acts) ∧
          (∀ (k : Nat) reply, (Dialogue.replies xs)[k]? = some reply →
            (∃ line, reply = some line ∧ ["x", "b "][k]? = some line) ∨
              reply = none ∧ s.cancelled = true) ∧
          (s.isReading = true → unread = [] ∨ b.channel.writers ≠ [] →
            Dialogue.replies xs = [some "x", some "b "]) := by
  intro p o bytes ls
  have hprepared : (prepare p o).toOption.any (fun r => r.config.input.whenFull = .block ∧
      r.config.input.capacity = 1 ∧ r.config.run.pause = .host ∧
      (Terminal.start p.grants r.config o.events r.source).toOption.any fun _ => true) = true := by
    decide +kernel
  obtain ⟨r, hr, hchecked⟩ := exists_ok_of_any hprepared
  obtain ⟨hblock, hone, hpause, hstarted⟩ := of_decide_eq_true hchecked
  obtain ⟨t, ht, -⟩ := exists_ok_of_any hstarted
  have hls : Text.Lined 10 13 bytes ls := (Text.lined_iff (by decide)).mpr (by decide +kernel)
  have hinputs : inputLines .host ls = ["x", "b "] := by decide +kernel
  refine ⟨r, t, hr, ht, hblock, hone, hls, fun acts unread b hg => ?_⟩
  obtain ⟨⟨s, xs, hs, hrun, hreplies, hlast⟩, -⟩ :=
    (reads_follow_typed_lines hr ht hls (.inl hblock)).1 acts unread b hg
  rw [hpause, hinputs] at hreplies hlast
  exact ⟨s, xs, hs, hrun, hreplies, hlast⟩

end Command

end Conduit

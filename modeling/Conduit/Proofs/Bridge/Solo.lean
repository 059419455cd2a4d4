import Conduit.Proofs.Bridge.Account
import Conduit.Proofs.Bridge.Calls
import Conduit.Proofs.Bridge.Course

/-!
A bridge with one run that nobody calls off. However the host mixes its submissions and resumes with
the work of the run, the run goes along its course on the lines in the order of their submission.
-/
namespace Conduit.Bridge

namespace Call

def isObserver : Call → Bool
  | .waitIdle | .join _ | .subscribe | .leave _ | .receive _ => true
  | _ => false

def isCalm : Call → Bool
  | .submit _ | .resume | .resumeSession _ => true
  | call => call.isObserver

def line? : Call → Option String
  | .submit line => some line
  | _ => none

theorem isCalm_of_isObserver {call : Call} (h : call.isObserver = true) : call.isCalm = true := by
  cases call <;> first | rfl | exact h

theorem line?_of_isObserver {call : Call} (h : call.isObserver = true) : call.line? = none := by
  cases call <;> first | rfl | cases h

end Call

def submissions (calls : List (Nat × Call)) : List String := calls.filterMap fun c => c.2.line?

theorem submissions_cons (c : Nat × Call) (calls : List (Nat × Call)) :
    submissions (c :: calls) = c.2.line?.toList ++ submissions calls := by
  rw [submissions, List.filterMap_cons]
  cases c.2.line? <;> rfl

theorem submissions_of_observers {calls : List (Nat × Call)}
    (h : ∀ c ∈ calls, c.2.isObserver = true) : submissions calls = [] :=
  List.filterMap_eq_nil_iff.mpr fun c hc => Call.line?_of_isObserver (h c hc)

variable {b₀ b : Bridge} {work : Behaviour Ending} {lines : List String} {ds : List Deed}
  {s : Session}

/-! Calm hosts -/

/-- A statement about a bridge and the lines that were handed in, which calm hosts leave true. -/
structure CalmInvariant (P : List String → Bridge → Prop) : Prop where
  note : ∀ {lines b} hub journal admitted waits, P lines b →
    P lines { b with hub, journal, admitted, waits }
  submit : ∀ {lines b} ticket line, P lines b → b.Sound →
    P (lines ++ [line]) (b.submit ticket line).1
  resumeSession : ∀ {lines b} id, P lines b → P lines (b.resumeSession id)
  settle : ∀ {lines b}, P lines b → P lines (b.settle fun _ => false)

namespace CalmInvariant
variable {P : List String → Bridge → Prop}

theorem resume (hP : CalmInvariant P) (h : P lines b) : P lines b.resume.1 := by
  have hall : ∀ (paused : List Session) (b : Bridge), P lines b →
      P lines (paused.foldl (fun b s => (b.resumeSession s.id).publish s.id .resumed) b) := by
    intro paused
    induction paused with
    | nil => exact fun b h => h
    | cons s paused ih =>
      exact fun b h => ih _ (hP.note _ _ _ _ (hP.resumeSession s.id h))
  unfold Bridge.resume
  split
  · exact h
  · exact hall _ b h

theorem apply (hP : CalmInvariant P) (h : P lines b) (hs : b.Sound) (ticket : Nat) {call : Call}
    (hc : call.isCalm = true) : P (lines ++ call.line?.toList) (b.apply ticket call).1 := by
  have hwait : ∀ w, P lines (b.await ticket w).1 := by
    intro w
    unfold await
    split
    · exact h
    · exact hP.note b.hub b.journal b.admitted _ h
  have hnil : lines ++ (none : Option String).toList = lines := List.append_nil lines
  cases call with
  | submit line => exact hP.submit ticket line h hs
  | resume => exact hnil.symm ▸ hP.resume h
  | resumeSession id => exact hnil.symm ▸ hP.resumeSession id h
  | waitIdle => exact hnil.symm ▸ hwait (.idle (b.active.map Session.id))
  | join id => exact hnil.symm ▸ hwait (.finish id)
  | subscribe | leave id | receive id =>
    exact hnil.symm ▸ hP.note _ b.journal b.admitted b.waits h
  | _ => cases hc

theorem settled (hP : CalmInvariant P) {ticket : Nat} {call : Call}
    (h : P lines (b.apply ticket call).1) : P lines (b.perform ticket call).1 :=
  hP.note _ _ _ _ (hP.settle h)

theorem after (hP : CalmInvariant P) (h : P lines b) (hs : b.Sound) {calls : List (Nat × Call)}
    (hc : ∀ c ∈ calls, c.2.isCalm = true) : P (lines ++ submissions calls) (b.after calls) := by
  induction calls generalizing b lines with
  | nil => exact (List.append_nil lines).symm ▸ h
  | cons c calls ih =>
    have h' := hP.settled (hP.apply h hs c.1 (hc c List.mem_cons_self))
    rw [submissions_cons, ← List.append_assoc]
    exact ih h' (hs.accounts (steps_perform b c.1 c.2)).sound fun c hm =>
      hc c (List.mem_cons_of_mem _ hm)

end CalmInvariant

/-! Without a run -/

structure Vacant (b₀ : Bridge) (lines : List String) (b : Bridge) : Prop where
  sessions : b.sessions = []
  config : b.config = b₀.config
  drive : b.drive = b₀.drive
  sink : b.sink = b₀.sink
  nextId : b.nextId = b₀.nextId
  lines : b.channel.pending = lines
  whenFull : b.channel.whenFull = .block

theorem Vacant.submit (h : Vacant b₀ lines b) (hs : b.Sound) (ticket : Nat) (line : String) :
    Vacant b₀ (lines ++ [line]) (b.submit ticket line).1 := by
  unfold Bridge.submit
  cases ht : b.trySubmit line with
  | none =>
    simp only [h.whenFull]
    refine ⟨h.sessions, h.config, h.drive, h.sink, h.nextId, ?_, h.whenFull⟩
    rw [Channel.pending_enqueueWriter, h.lines]
  | some b' =>
    obtain ⟨hf, ⟨hr, rfl⟩ | ⟨r, rs, hr, rfl⟩⟩ := trySubmit_eq_some ht
    · refine ⟨h.sessions, h.config, h.drive, h.sink, h.nextId, ?_, h.whenFull⟩
      have hw := hs.channel.no_writers_of_room hf
      simp [← h.lines, Channel.pending, hw]
    · obtain ⟨-, t, ht, -⟩ := hs.readers r (by simp [hr])
      rw [h.sessions] at ht
      cases ht

theorem vacant_calm (b₀ : Bridge) : CalmInvariant (Vacant b₀) where
  note _ _ _ _ h := ⟨h.sessions, h.config, h.drive, h.sink, h.nextId, h.lines, h.whenFull⟩
  submit ticket line h hs := h.submit hs ticket line
  resumeSession id h := by
    refine ⟨?_, h.config, h.drive, h.sink, h.nextId, h.lines, h.whenFull⟩
    simp [Bridge.resumeSession, mapSession, h.sessions]
  settle {lines b} h := by
    have hs : b.settle (fun _ => false) = { b with sessions := [] } := by
      rw [Bridge.settle, h.sessions]
      rfl
    rw [hs]
    exact ⟨rfl, h.config, h.drive, h.sink, h.nextId, h.lines, h.whenFull⟩

/-! With one run -/

/-- The bridge `b₀` since its one run was given its work: the run did the deeds `ds`, and `lines` were
handed in. -/
structure Solo (b₀ : Bridge) (work : Behaviour Ending) (lines : List String) (ds : List Deed)
    (s : Session) (b : Bridge) : Prop where
  sessions : b.sessions = [s]
  id : s.id = b₀.nextId
  config : b.config = b₀.config
  sink : b.sink = b₀.sink.feed (Deed.prints ds)
  lines : lines = Deed.receipts ds ++ b.channel.pending
  whenFull : b.channel.whenFull = .block
  course : OnCourse (b₀.workerName b₀.nextId) b₀.config.run.pause work ds s

theorem Solo.settle (h : Solo b₀ work lines ds s b) :
    ∃ ds' s', Solo b₀ work lines ds' s' (b.settle fun _ => false) := by
  have hname : ({ b with sessions := [] }.workerName s.id) = b₀.workerName b₀.nextId := by
    rw [h.id, workerName, workerName, h.config]
  have hpause : { b with sessions := [] }.config.run.pause = b₀.config.run.pause := by
    simp only [h.config]
  have hcourse := h.course
  rw [← hname, ← hpause] at hcourse
  have hadv := onCourse_advance hcourse
  rw [hname, hpause] at hadv
  have hsettle : b.settle (fun _ => false) =
      advanceAndKeep (fun _ => false) { b with sessions := [] } s := by
    rw [Bridge.settle, h.sessions]
    rfl
  have hrem := removals_advanceDeeds { b with sessions := [] } h.course.begun
  rw [hsettle, advanceAndKeep]
  obtain ⟨he, -⟩ | ⟨hm, -⟩ := advance_cases { b with sessions := [] } s
  · rw [he]
    exact ⟨ds, s, rfl, h.id, h.config, h.sink, h.lines, h.whenFull, h.course⟩
  · refine ⟨_, _, ?_, hm.id.trans h.id, ?_, ?_, ?_, hm.whenFull.trans h.whenFull, hadv⟩
    · simp only [sessions_advance, List.nil_append]
    · have hc : ({ b with sessions := [] }.advance (fun _ => false) s).1.config = b.config := by
        rw [hm.frame]
      exact hc.trans h.config
    · rw [Deed.prints_append, Sink.feed_append, ← h.sink]
      exact hm.sink
    · rw [Deed.receipts_append, List.append_assoc, ← hrem, h.lines]
      exact congrArg _ hm.pending

/-- A line that is handed in waits for its turn, or the run that stands at a read has it at once. -/
theorem Solo.submit (h : Solo b₀ work lines ds s b) (hs : b.Sound) (ticket : Nat) (line : String) :
    ∃ ds' s', Solo b₀ work (lines ++ [line]) ds' s' (b.submit ticket line).1 := by
  unfold Bridge.submit
  cases ht : b.trySubmit line with
  | none =>
    simp only [h.whenFull]
    refine ⟨ds, s, h.sessions, h.id, h.config, h.sink, ?_, h.whenFull, h.course⟩
    rw [Channel.pending_enqueueWriter, h.lines, List.append_assoc]
  | some b' =>
    obtain ⟨hf, ⟨hr, rfl⟩ | ⟨r, rs, hr, rfl⟩⟩ := trySubmit_eq_some ht
    · refine ⟨ds, s, h.sessions, h.id, h.config, h.sink, ?_, h.whenFull, h.course⟩
      have hw := hs.channel.no_writers_of_room hf
      simp [h.lines, Channel.pending, hw]
    · obtain ⟨-, t, ht, htid, hread⟩ := hs.readers r (by simp [hr])
      rw [h.sessions, List.mem_singleton] at ht
      subst ht
      refine ⟨_, t.receive line, ?_, (Session.alike_receive line t).id.trans h.id, h.config, ?_, ?_,
        h.whenFull, h.course.receive hread line⟩
      · simp [mapSession, h.sessions, htid]
      · rw [Deed.prints_append, Sink.feed_append]
        exact h.sink
      · have hn : b.channel.readers ≠ [] := by simp [hr]
        have hl := hs.channel.empty hn
        have hw := hs.channel.no_writers hn
        simp [h.lines, Channel.pending, mapSession, hl, hw, Deed.receipts, Deed.received?]

theorem Solo.resumeSession (h : Solo b₀ work lines ds s b) (id : Nat) :
    Solo b₀ work lines ds (if s.id = id then { s with gate := s.gate.resume } else s)
      (b.resumeSession id) := by
  refine ⟨?_, ?_, h.config, h.sink, h.lines, h.whenFull, ?_⟩
  · simp [Bridge.resumeSession, mapSession, h.sessions]
  · split <;> exact h.id
  · split
    · exact h.course.resume
    · exact h.course

theorem solo_calm (b₀ : Bridge) (work : Behaviour Ending) :
    CalmInvariant fun lines b => ∃ ds s, Solo b₀ work lines ds s b where
  note := by
    rintro lines b hub journal admitted waits ⟨ds, s, h⟩
    exact ⟨ds, s, h.sessions, h.id, h.config, h.sink, h.lines, h.whenFull, h.course⟩
  submit := by
    rintro lines b ticket line ⟨ds, s, h⟩ hs
    exact h.submit hs ticket line
  resumeSession := by
    rintro lines b id ⟨ds, s, h⟩
    exact ⟨ds, _, h.resumeSession id⟩
  settle := by
    rintro lines b ⟨ds, s, h⟩
    exact h.settle

/-- Whatever lines are still to come, the run printed what its course prints first. -/
theorem Solo.prints_prefix (h : Solo b₀ work lines ds s b) (later : List String) :
    Deed.prints ds <+: Deed.prints (work.course (b₀.workerName b₀.nextId) b₀.config.run.pause {}
      (lines ++ later)).1 := by
  rw [h.lines, List.append_assoc]
  obtain ⟨rest, hw⟩ | ⟨r, hr⟩ := s.work?_or_report?
  · rw [h.course.goes rest hw, Behaviour.before, Deed.prints_append]
    exact List.prefix_append _ _
  · obtain ⟨-, es, hds, hstop⟩ := h.course.ends r hr
    obtain ⟨stop, hc, -⟩ := hstop (b.channel.pending ++ later)
    rw [hc, hds, Deed.prints_append]
    exact ⟨[], by rw [List.append_nil]; exact List.append_nil _⟩

/-- Once the run has finished, its output and its report are those of its course. -/
theorem Solo.report_eq (h : Solo b₀ work lines ds s b) {r : RunReport} (hr : s.report? = some r)
    (later : List String) :
    ∃ es stop, work.course (b₀.workerName b₀.nextId) b₀.config.run.pause {} (lines ++ later) =
        (es, stop) ∧
      b.sink = b₀.sink.feed (Deed.prints es) ∧
      stop.outcome? (({} : Tally).after es) = some r.outcome ∧
      r = { session := b₀.nextId, outcome := r.outcome,
            pauses := (({} : Tally).after es).pauses, resumes := .ofNat (Deed.resumes es),
            reads := (({} : Tally).after es).reads } := by
  obtain ⟨hrep, es, hds, hstop⟩ := h.course.ends r hr
  obtain ⟨stop, hc, ho⟩ := hstop (b.channel.pending ++ later)
  have htally : s.tally = ({} : Tally).after es := by
    rw [h.course.tally, hds, Tally.after_append]
    rfl
  refine ⟨es, stop, ?_, ?_, ?_, ?_⟩
  · rw [h.lines, List.append_assoc, hc]
  · rw [h.sink, hds, Deed.prints_append]
    exact congrArg _ (List.append_nil _)
  · rw [← htally]
    exact ho
  · have hn : s.gate.resumed = .ofNat (Deed.resumes es) := by
      rw [h.course.resumed, hds, Deed.resumes_append]
      rfl
    rw [← htally, ← hn, ← h.id]
    exact hrep

/-! Starting the run -/

theorem sessions_makeWay (hb : b.sessions = []) (id : Nat) : (b.makeWay id).sessions = [] := by
  have ha : b.active = [] := by rw [active, hb, List.filter_nil]
  unfold makeWay
  simp only [ha]
  cases b.config.run.overlap with
  | queue => exact hb
  | interleave | supersede =>
    obtain ⟨journal, admitted, h⟩ := clearInput_eq b .host
    simp only [List.isEmpty_nil, if_true, List.foldl_nil, h, hb]

theorem startActs_quiet (b : Bridge) :
    Act.printed b.startActs = [] ∧ Act.submitted b.startActs = [] := by
  have hw : Act.printed b.makeWayActs = [] ∧ Act.submitted b.makeWayActs = [] := by
    unfold makeWayActs
    split
    · exact ⟨rfl, rfl⟩
    · exact ⟨Act.printed_discards _, Act.submitted_discards _⟩
    · exact ⟨Act.printed_discards _, Act.submitted_discards _⟩
  rw [startActs, Act.printed_append, Act.submitted_append, hw.1, hw.2]
  split <;> exact ⟨rfl, rfl⟩

theorem Vacant.firstPhase (h : Vacant b₀ lines b) (source : String) :
    b.firstPhase source = .ready (b₀.drive source) := by
  have ha : b.active = [] := by rw [active, h.sessions, List.filter_nil]
  rw [Bridge.firstPhase, ha, h.drive]
  cases b.config.run.overlap <;> rfl

/-- The first start gives the bridge its one run, unless there is no worker to be had. -/
theorem Vacant.start (h : Vacant b₀ [] b) (hs : b.Sound) (ticket : Nat) (source : String)
    (told : Bool) :
    (∃ s, Solo b₀ (b₀.drive source) [] [] s (b.apply ticket (.start source told)).1) ∨
      Vacant { b₀ with nextId := b₀.nextId + 1 } [] (b.apply ticket (.start source told)).1 := by
  have ha := hs.accounts (steps_apply b ticket (.start source told))
  have hq := startActs_quiet b
  have hlines := ha.lines
  rw [applyActs, hq.2, h.lines] at hlines
  obtain ⟨-, hlines⟩ := List.append_eq_nil_iff.mp hlines.symm
  have hsink := ha.sink
  rw [applyActs, hq.1, h.sink] at hsink
  have hfull := ha.whenFull.trans h.whenFull
  have hconfig := ha.config.trans h.config
  obtain ⟨journal, hj⟩ := apply_start_eq b ticket source told
  have hsessions : (b.apply ticket (.start source told)).1.sessions = b.newRuns source := by
    rw [hj]
    simp only [sessions_makeWay h.sessions, List.nil_append]
  unfold newRuns at hsessions
  split at hsessions
  · refine .inl ⟨_, hsessions, h.nextId, hconfig, hsink, hlines.symm, hfull, ?_⟩
    rw [h.firstPhase]
    exact OnCourse.start _ _ _ _
  · refine .inr ⟨hsessions, hconfig, ha.drive.trans h.drive, hsink, ?_, hlines, hfull⟩
    rw [hj]
    exact congrArg (· + 1) h.nextId

end Conduit.Bridge

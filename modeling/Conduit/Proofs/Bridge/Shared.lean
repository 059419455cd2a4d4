import Conduit.Bridge.Shared
import Conduit.Engine.Scripted
import Conduit.Proofs.Bridge.Calls

/-!
The bridge of a process and the first one that was installed. What is asked of the one is asked of the
other: calls that came too early and installs that were refused leave no trace in it.
-/
namespace Conduit

def Bridge.answers (b : Bridge) : List (Nat × Call) → List Answer
  | [] => []
  | (ticket, call) :: calls =>
    (b.perform ticket call).2 :: (b.perform ticket call).1.answers calls

namespace Shared

inductive Use where
  | install (b : Bridge)
  | get
  | require
  | call (ticket : Nat) (call : Bridge.Call)

namespace Use

def call? : Use → Option (Nat × Bridge.Call)
  | call ticket c => some (ticket, c)
  | _ => none

def bridge? : Use → Option Bridge
  | install b => some b
  | _ => none

def warning? : Use → Option Log.Entry
  | call _ (.submit _) => some ⟨.host, .warn, .shared, submitTooEarly⟩
  | call _ (.start _ false) => some ⟨.host, .warn, .shared, runTooEarly⟩
  | _ => none

end Use

def calls (uses : List Use) : List (Nat × Bridge.Call) := uses.filterMap Use.call?

def offered (uses : List Use) : List Bridge := uses.filterMap Use.bridge?

inductive Result where
  | installed (capacity : Except Error Nat)
  | found (b : Option Bridge)
  | required (b : Except Error Bridge)
  | answered (a : Bridge.Answer)

def use (s : Shared) : Use → Shared × Result
  | .install b => ((s.install b).1, .installed (s.install b).2)
  | .get => (s, .found s.get)
  | .require => (s, .required s.require)
  | .call ticket c => ((s.perform ticket c).1, .answered (s.perform ticket c).2)

def after (s : Shared) (uses : List Use) : Shared := uses.foldl (fun s u => (s.use u).1) s

def answers (s : Shared) : List Use → List Bridge.Answer
  | [] => []
  | u :: uses =>
    match (s.use u).2 with
    | .answered a => a :: (s.use u).1.answers uses
    | _ => (s.use u).1.answers uses

variable {s : Shared} {b : Bridge} {uses : List Use}

theorem after_append (s : Shared) (uses more : List Use) :
    s.after (uses ++ more) = (s.after uses).after more :=
  List.foldl_append

theorem calls_cons (u : Use) (uses : List Use) : calls (u :: uses) = u.call?.toList ++ calls uses := by
  cases hc : u.call? <;> simp [calls, hc]

theorem offered_cons (u : Use) (uses : List Use) :
    offered (u :: uses) = u.bridge?.toList ++ offered uses := by
  cases hb : u.bridge? <;> simp [offered, hb]

/-- Without a bridge a use that brings none is mentioned in the log at most. -/
theorem use_of_none (h : s.bridge = none) {u : Use} (hu : u.bridge? = none) :
    (s.use u).1 = { s with journal := s.journal ++ u.warning?.toList } := by
  obtain ⟨bridge, journal⟩ := s
  obtain rfl : bridge = none := h
  cases u with
  | install b => cases hu
  | get | require => simp [use, Use.warning?]
  | call ticket c =>
    cases c with
    | submit line => rfl
    | start source told => cases told <;> simp [use, perform, note, Use.warning?]
    | _ => simp [use, perform, Use.warning?]

theorem after_of_none (h : s.bridge = none) (huses : offered uses = []) :
    s.after uses = { s with journal := s.journal ++ uses.filterMap Use.warning? } := by
  induction uses generalizing s with
  | nil => simp [after]
  | cons u uses ih =>
    rw [offered_cons, List.append_eq_nil_iff, Option.toList_eq_nil_iff] at huses
    have hstep := use_of_none h huses.1
    have hafter := ih (s := (s.use u).1) (by rw [hstep]; exact h) huses.2
    rw [after, List.foldl_cons, ← after, hafter, hstep]
    cases hw : u.warning? <;> simp [hw]

/-- With a bridge a use that is no call leaves it as it is, and of a bridge that is refused only what it
logged is kept. -/
theorem use_of_some (h : s.bridge = some b) (u : Use) :
    (s.use u).1 =
      { bridge := some (b.after u.call?.toList)
        journal := s.journal ++ u.bridge?.toList.flatMap Bridge.journal } := by
  obtain ⟨bridge, journal⟩ := s
  obtain rfl : bridge = some b := h
  cases u <;> simp [use, install, perform, Use.call?, Use.bridge?, Bridge.after]

theorem after_of_some (h : s.bridge = some b) (uses : List Use) :
    s.after uses =
      { bridge := some (b.after (calls uses))
        journal := s.journal ++ (offered uses).flatMap Bridge.journal } := by
  induction uses generalizing s b with
  | nil => simp [after, calls, offered, Bridge.after, ← h]
  | cons u uses ih =>
    have hstep := use_of_some h u
    have hafter := ih (s := (s.use u).1) (by rw [hstep])
    rw [after, List.foldl_cons, ← after, hafter, hstep, calls_cons, offered_cons,
      Bridge.after_append, List.flatMap_append, List.append_assoc]

/-- Calls are answered as the bridge itself answers them, whatever comes between them. -/
theorem answers_of_some (h : s.bridge = some b) (uses : List Use) :
    s.answers uses = b.answers (calls uses) := by
  induction uses generalizing s b with
  | nil => rfl
  | cons u uses ih =>
    have hstep : (s.use u).1.bridge = some (b.after u.call?.toList) := by rw [use_of_some h u]
    have hanswers := ih hstep
    rw [calls_cons]
    cases u with
    | call ticket c =>
      have hreply : (s.perform ticket c).2 = (b.perform ticket c).2 := by simp only [perform, h]
      exact congrArg₂ List.cons hreply hanswers
    | install | get | require => exact hanswers

theorem results_of_none (h : s.bridge = none) :
    (∀ ticket line, (s.use (.call ticket (.submit line))).2 = .answered { reply := some .done }) ∧
    (∀ ticket source, (s.use (.call ticket (.start source false))).2 =
      .answered { reply := some .done }) ∧
    (s.use .get).2 = .found none ∧ (s.use .require).2 = .required (.error .notInstalled) := by
  simp [use, perform, get, require, h]

theorem results_of_some (h : s.bridge = some b) :
    (∀ ticket c, (s.use (.call ticket c)).2 = .answered (b.perform ticket c).2) ∧
    (s.use .get).2 = .found (some b) ∧ (s.use .require).2 = .required (.ok b) ∧
    ∀ refused, s.use (.install refused) =
      ({ s with journal := s.journal ++ refused.journal }, .installed (.error .alreadyInstalled)) := by
  simp [use, install, perform, get, require, h]

/-- Until a bridge is installed, calls to hand in a line or to start a run leave but a warning in the log and
there is no bridge to be had. The first install succeeds. From then on the bridge of the process is, after
any uses, the bridge that was installed after the calls among them, and it answers as that one does; every
other install is refused and leaves but the log entries of the bridge it came with. -/
theorem first_bridge_stays (before : List Use) (hbefore : offered before = []) (b : Bridge)
    (later : List Use) :
    let early := ({} : Shared).after before
    let s := ({} : Shared).after (before ++ .install b :: later)
    let direct := b.after (calls later)
    early = { bridge := none, journal := before.filterMap Use.warning? } ∧
    (∀ ticket line, (early.use (.call ticket (.submit line))).2 =
      .answered { reply := some .done }) ∧
    (∀ ticket source, (early.use (.call ticket (.start source false))).2 =
      .answered { reply := some .done }) ∧
    (early.use .get).2 = .found none ∧ (early.use .require).2 = .required (.error .notInstalled) ∧
    early.use (.install b) = ({ early with bridge := some b }, .installed (.ok b.channel.limit)) ∧
    s = { bridge := some direct
          journal := early.journal ++ (offered later).flatMap Bridge.journal } ∧
    (early.use (.install b)).1.answers later = b.answers (calls later) ∧
    (∀ ticket c, (s.use (.call ticket c)).2 = .answered (direct.perform ticket c).2) ∧
    (s.use .get).2 = .found (some direct) ∧ (s.use .require).2 = .required (.ok direct) ∧
    ∀ refused, s.use (.install refused) =
      ({ s with journal := s.journal ++ refused.journal }, .installed (.error .alreadyInstalled)) := by
  intro early s direct
  have hearly : early = { bridge := none, journal := before.filterMap Use.warning? } :=
    after_of_none rfl hbefore
  have hfirst : early.use (.install b) =
      ({ early with bridge := some b }, .installed (.ok b.channel.limit)) := by
    rw [hearly]
    rfl
  have hs : s = { bridge := some direct
                  journal := early.journal ++ (offered later).flatMap Bridge.journal } := by
    have hinstalled : (early.use (.install b)).1.bridge = some b := by rw [hfirst]
    have hlater := after_of_some hinstalled later
    rw [hfirst] at hlater
    simp only [s, after_append, after, List.foldl_cons]
    exact (congrArg (List.foldl _ · later) (congrArg Prod.fst hfirst)).trans hlater
  obtain ⟨hsubmit, hrun, hget, hrequire⟩ := results_of_none (s := early) (by rw [hearly])
  exact ⟨hearly, hsubmit, hrun, hget, hrequire, hfirst, hs, answers_of_some (by rw [hfirst]) later,
    results_of_some (by rw [hs])⟩

/-- Two calls that come too early, and a second bridge. -/
theorem first_bridge_stays_greeting :
    let b := Bridge.create Scripted.engine (fun _ => true) (.capture "") {}
    let other := Bridge.create Scripted.engine (fun _ => true) (.capture "other") {}
    let before : List Use := [.call 0 (.submit "ignored"), .call 1 (.start "println ignored" false)]
    let later : List Use :=
      [.install other, .call 2 (.start "read Hello, " false), .get, .call 3 (.submit "World")]
    let s := ({} : Shared).after (before ++ .install b :: later)
    offered before = [] ∧
    s.bridge.map (fun b => b.sink.contents) = some "Hello, World\n" ∧
    s.journal = [⟨.host, .warn, .shared, submitTooEarly⟩, ⟨.host, .warn, .shared, runTooEarly⟩] ++
      other.journal ∧
    (s.use (.install other)).2 = .installed (.error .alreadyInstalled) := by
  intro b other before later s
  obtain ⟨hearly, -, -, -, -, -, hs, -, -, -, -, hrefused⟩ := first_bridge_stays before rfl b later
  have hoffered : (offered later).flatMap Bridge.journal = other.journal := List.append_nil _
  have hcontents : (b.after (calls later)).sink.contents = "Hello, World\n" := by decide +kernel
  refine ⟨rfl, ?_, ?_, congrArg Prod.snd (hrefused other)⟩
  · rw [congrArg Shared.bridge hs]
    exact congrArg some hcontents
  · rw [congrArg Shared.journal hs, hearly, hoffered]
    rfl

end Shared

end Conduit

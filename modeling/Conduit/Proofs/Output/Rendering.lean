import Conduit.Output
import Conduit.Proofs.Text.Utf8
import Mathlib.Data.List.Basic
import Mathlib.Data.List.TakeDrop

/-!
What reaches a sink. Whichever way a call comes, a sink is given the text of its event: a mailbox, a
capture and a writer end up with one and the same text, and a writer that fills up has the beginning of it.
-/
namespace Conduit

namespace ByteWriter

variable {w w' w'' : ByteWriter} {bytes more : List UInt8}

theorem room_le (w : ByteWriter) (n : Nat) : w.room n ≤ n := by
  unfold room
  split <;> omega

structure Wrote (w w' : ByteWriter) (bytes : List UInt8) : Prop where
  limit : w'.limit = w.limit
  written : w'.written = w.written ++ bytes.take (w.room bytes.length)

theorem Wrote.refl (w : ByteWriter) : Wrote w w [] := ⟨rfl, by simp⟩

/-- What is written in two parts takes the room of the whole; if the first part does not fit, nothing is
left for the second. -/
theorem Wrote.room_append (h : Wrote w w' bytes) (n : Nat) :
    w.room (bytes.length + n) = w.room bytes.length + w'.room n ∧
      (w.room bytes.length < bytes.length → w'.room n = 0) := by
  have hlength : w'.written.length = w.written.length + w.room bytes.length := by
    rw [h.written, List.length_append, List.length_take, Nat.min_eq_left (w.room_le _)]
  cases hl : w.limit with
  | none => simp [room, h.limit, hl]
  | some limit =>
    simp only [room, h.limit, hl] at hlength ⊢
    omega

theorem Wrote.trans (h : Wrote w w' bytes) (h' : Wrote w' w'' more) :
    Wrote w w'' (bytes ++ more) := by
  refine ⟨h'.limit.trans h.limit, ?_⟩
  obtain ⟨hroom, hfull⟩ := h.room_append more.length
  have hle := w.room_le bytes.length
  have htake : (bytes ++ more).take (w.room (bytes ++ more).length) =
      bytes.take (w.room bytes.length) ++ more.take (w'.room more.length) := by
    rw [List.length_append, hroom, List.take_append]
    by_cases hfits : w.room bytes.length = bytes.length
    · rw [hfits, List.take_of_length_le (Nat.le_add_right _ _), List.take_length,
        Nat.add_sub_cancel_left]
    · rw [hfull (by omega), Nat.add_zero, Nat.sub_eq_zero_of_le hle]
  rw [h'.written, h.written, htake, List.append_assoc]

theorem Wrote.all_iff (h : Wrote w w' bytes) :
    w'.written = w.written ++ bytes ↔ w.room bytes.length = bytes.length := by
  have hle := w.room_le bytes.length
  rw [h.written, List.append_cancel_left_eq, List.take_eq_self_iff]
  omega

/-- The writer is flushed, and the write succeeds, exactly if all of the bytes were written. -/
theorem wrote_write (w : ByteWriter) (bytes : List UInt8) :
    let w' := (w.write bytes).1
    Wrote w w' bytes ∧ (w.write bytes).2 = decide (w'.written = w.written ++ bytes) ∧
      w'.flushes = w.flushes + (w.write bytes).2.toNat := by
  intro w'
  have hwrote : Wrote w w' bytes := by
    by_cases h : w.room bytes.length = bytes.length
    · simp only [w', write, h, if_true]
      exact ⟨rfl, by rw [h]⟩
    · simp only [w', write, h, if_false]
      exact ⟨rfl, rfl⟩
  refine ⟨hwrote, ?_⟩
  have hall : decide (w'.written = w.written ++ bytes) = decide (w.room bytes.length = bytes.length) :=
    decide_eq_decide.mpr hwrote.all_iff
  rw [hall]
  by_cases h : w.room bytes.length = bytes.length
  · simp [w', write, h]
  · simp [w', write, h]

end ByteWriter

def OutputEvent.rendered (es : List OutputEvent) : String := String.join (es.map render)

theorem OutputEvent.rendered_append (es fs : List OutputEvent) :
    rendered (es ++ fs) = rendered es ++ rendered fs := by
  induction es with
  | nil => simp [rendered]
  | cons e es ih =>
    have hcons : ∀ gs, rendered (e :: gs) = e.render ++ rendered gs := fun gs => String.join_cons
    rw [List.cons_append, hcons, hcons, ih, String.append_assoc]

theorem OutputEvent.rendered_singleton (e : OutputEvent) : rendered [e] = e.render := by
  simp [rendered, String.join]

namespace Sink

theorem emit_mailbox (waiting : List OutputEvent) (e : OutputEvent) :
    (mailbox true waiting).emit e = (.mailbox true (waiting ++ [e]), true) := by
  cases e <;> rfl

theorem emit_capture (contents : String) (e : OutputEvent) :
    (capture contents).emit e = (.capture (contents ++ e.render), true) := by
  cases e with
  | text t => rfl
  | line t => simp only [emit, println, OutputEvent.render, String.append_assoc]
  | newline => rfl

theorem emit_writer (w : ByteWriter) (e : OutputEvent) :
    (writer w).emit e = (.writer (w.write (Text.encode e.render)).1,
      (w.write (Text.encode e.render)).2) := by
  cases e <;> rfl

def written : Sink → List UInt8
  | .writer w => w.written
  | _ => []

end Sink

namespace Output

inductive Use where
  | call (thread : Log.Thread) (printer : Option Stream) (e : OutputEvent)
  | drain
  | take
deriving DecidableEq, Repr

def Use.event? : Use → Option OutputEvent
  | .call _ _ e => some e
  | _ => none

def events (uses : List Use) : List OutputEvent := uses.filterMap Use.event?

theorem events_cons (u : Use) (uses : List Use) : events (u :: uses) = events [u] ++ events uses :=
  List.filterMap_append (l := [u])

def call (thread : Log.Thread) : Option Stream → Sink → OutputEvent → Sink × List Log.Entry
  | none => forward thread
  | some stream => print thread stream

def isWarning (x : Log.Entry) : Bool := x.level = .warn

/-- A call leaves a warning exactly if the sink failed, whichever way it comes. -/
theorem call_eq (thread : Log.Thread) (printer : Option Stream) (s : Sink) (e : OutputEvent) :
    (call thread printer s e).1 = (s.emit e).1 ∧
      (call thread printer s e).2.countP isWarning = (!(s.emit e).2).toNat := by
  rcases h : s.emit e with ⟨s', ok⟩
  cases printer with
  | none => cases ok <;> simp [call, forward, h, isWarning, failureEntry]
  | some stream => cases ok <;> simp [call, print, forward, h, isWarning, failureEntry]

structure Reception where
  sink : Sink
  events : List OutputEvent := []
  text : String := ""
  journal : List Log.Entry := []

namespace Reception

def use (r : Reception) : Use → Reception
  | .call thread printer e =>
    let (sink, logs) := call thread printer r.sink e
    { r with sink, journal := r.journal ++ logs }
  | .drain =>
    let (sink, events) := r.sink.drain
    { r with sink, events := r.events ++ events.getD [] }
  | .take =>
    let (sink, text) := r.sink.takeContents
    { r with sink, text := r.text ++ text }

def after (r : Reception) (uses : List Use) : Reception := uses.foldl use r

def warnings (r : Reception) : Nat := r.journal.countP isWarning

def takesAll (r : Reception) : Use → Bool
  | .call thread printer e =>
    (r.use (.call thread printer e)).sink.written = r.sink.written ++ Text.encode e.render
  | _ => false

def takenInFull (r : Reception) : List Use → Nat
  | [] => 0
  | u :: uses => (r.takesAll u).toNat + (r.use u).takenInFull uses

variable {r : Reception} {es : List OutputEvent} {text : String} {w : ByteWriter}

def Posts (r : Reception) (es : List OutputEvent) : Prop :=
  ∃ waiting, r.sink = .mailbox true waiting ∧ r.events ++ waiting = es ∧ r.warnings = 0

theorem Posts.use (h : r.Posts es) (u : Use) : (r.use u).Posts (es ++ Output.events [u]) := by
  obtain ⟨waiting, hs, he, hw⟩ := h
  cases u with
  | call thread printer e =>
    obtain ⟨hsink, hlogs⟩ := call_eq thread printer r.sink e
    rw [hs, Sink.emit_mailbox] at hsink hlogs
    refine ⟨waiting ++ [e], ?_, ?_, ?_⟩
    · simpa only [Reception.use, hs] using hsink
    · rw [← List.append_assoc]
      exact congrArg (· ++ [e]) he
    · simpa [warnings, Reception.use, List.countP_append, hs, hlogs] using hw
  | drain =>
    have hsink : (r.use .drain).sink = .mailbox true [] := by simp [Reception.use, hs, Sink.drain]
    have hevents : (r.use .drain).events = es := by simpa [Reception.use, hs, Sink.drain] using he
    exact ⟨[], hsink, congrArg (· ++ []) hevents, hw⟩
  | take =>
    have hsink : (r.use .take).sink = .mailbox true waiting := by
      simp [Reception.use, hs, Sink.takeContents]
    exact ⟨waiting, hsink, he.trans (List.append_nil es).symm, hw⟩

def Captures (r : Reception) (text : String) : Prop :=
  ∃ contents, r.sink = .capture contents ∧ r.text ++ contents = text ∧ r.warnings = 0

theorem Captures.use (h : r.Captures text) (u : Use) :
    (r.use u).Captures (text ++ OutputEvent.rendered (Output.events [u])) := by
  obtain ⟨contents, hs, rfl, hw⟩ := h
  cases u with
  | call thread printer e =>
    obtain ⟨hsink, hlogs⟩ := call_eq thread printer r.sink e
    rw [hs, Sink.emit_capture] at hsink hlogs
    refine ⟨contents ++ e.render, ?_, ?_, ?_⟩
    · simpa only [Reception.use, hs] using hsink
    · rw [← String.append_assoc, ← OutputEvent.rendered_singleton]
      rfl
    · simpa [warnings, Reception.use, List.countP_append, hs, hlogs] using hw
  | drain =>
    have hsink : (r.use .drain).sink = .capture contents := by simp [Reception.use, hs, Sink.drain]
    exact ⟨contents, hsink, String.append_empty.symm, hw⟩
  | take =>
    have hsink : (r.use .take).sink = .capture "" := by simp [Reception.use, hs, Sink.takeContents]
    have htext : (r.use .take).text = r.text ++ contents := by
      simp [Reception.use, hs, Sink.takeContents]
    exact ⟨"", hsink, congrArg (· ++ "") htext, hw⟩

theorem use_call (h : r.sink = .writer w) (thread : Log.Thread) (printer : Option Stream)
    (e : OutputEvent) :
    let u := Use.call thread printer e
    let wrote := w.write (Text.encode e.render)
    (r.use u).sink = .writer wrote.1 ∧ r.takesAll u = wrote.2 ∧
      (r.use u).warnings = r.warnings + (!wrote.2).toNat := by
  intro u wrote
  obtain ⟨hsink, hlogs⟩ := call_eq thread printer r.sink e
  rw [h, Sink.emit_writer] at hsink hlogs
  have hs : (r.use u).sink = .writer wrote.1 := by simpa only [Reception.use, u, h] using hsink
  refine ⟨hs, ?_, ?_⟩
  · obtain ⟨-, hok, -⟩ := w.wrote_write (Text.encode e.render)
    rw [hok, takesAll, hs, h]
    rfl
  · rw [← hlogs, ← h]
    exact List.countP_append

/-- From `r` to `r'` the text was given to the writer `w` in `n` calls, `k` of which it took in full; the
others left a warning. -/
structure Writes (r r' : Reception) (w : ByteWriter) (text : String) (k n : Nat) : Prop where
  sink : ∃ w', r'.sink = .writer w' ∧ w.Wrote w' (Text.encode text) ∧ w'.flushes = w.flushes + k
  warnings : r'.warnings + k = r.warnings + n

theorem Writes.use (h : r.sink = .writer w) (u : Use) :
    Writes r (r.use u) w (OutputEvent.rendered (Output.events [u])) (r.takesAll u).toNat
      (Output.events [u]).length := by
  have hkeep : ∀ r' : Reception, r'.sink = r.sink → r'.warnings = r.warnings →
      Writes r r' w "" 0 0 :=
    fun r' hs hw => ⟨⟨w, hs.trans h, .refl w, rfl⟩, congrArg (· + 0) hw⟩
  cases u with
  | call thread printer e =>
    obtain ⟨hs, htakes, hw⟩ := use_call h thread printer e
    obtain ⟨hwrote, -, hflushes⟩ := w.wrote_write (Text.encode e.render)
    have hevents : Output.events [.call thread printer e] = [e] := rfl
    rw [htakes, hevents, OutputEvent.rendered_singleton]
    refine ⟨⟨_, hs, hwrote, hflushes⟩, ?_⟩
    rw [hw, Nat.add_assoc]
    cases (w.write (Text.encode e.render)).2 <;> rfl
  | drain => exact hkeep _ (by simp [Reception.use, h, Sink.drain]) rfl
  | take => exact hkeep _ (by simp [Reception.use, h, Sink.takeContents]) rfl

theorem Writes.trans {r r' r'' : Reception} {w w' : ByteWriter} {text more : String} {k n k' n' : Nat}
    (h : Writes r r' w text k n) (hs : r'.sink = .writer w') (h' : Writes r' r'' w' more k' n') :
    Writes r r'' w (text ++ more) (k + k') (n + n') := by
  obtain ⟨⟨v, hv, hwrote, hflushes⟩, hwarnings⟩ := h
  obtain rfl : v = w' := by simpa [hs] using hv.symm
  obtain ⟨⟨w'', hs'', hwrote', hflushes'⟩, hwarnings'⟩ := h'
  refine ⟨⟨w'', hs'', ?_, by omega⟩, by omega⟩
  rw [Text.encode_append]
  exact hwrote.trans hwrote'

theorem Posts.after (h : r.Posts es) (uses : List Use) :
    (r.after uses).Posts (es ++ Output.events uses) := by
  induction uses generalizing r es with
  | nil => exact (List.append_nil es).symm ▸ h
  | cons u uses ih =>
    rw [events_cons, ← List.append_assoc]
    exact ih (h.use u)

theorem Captures.after (h : r.Captures text) (uses : List Use) :
    (r.after uses).Captures (text ++ OutputEvent.rendered (Output.events uses)) := by
  induction uses generalizing r text with
  | nil => exact String.append_empty.symm ▸ h
  | cons u uses ih =>
    rw [events_cons, OutputEvent.rendered_append, ← String.append_assoc]
    exact ih (h.use u)

theorem Writes.after (h : r.sink = .writer w) (uses : List Use) :
    Writes r (r.after uses) w (OutputEvent.rendered (Output.events uses)) (r.takenInFull uses)
      (Output.events uses).length := by
  induction uses generalizing r w with
  | nil => exact ⟨⟨w, h, .refl w, rfl⟩, rfl⟩
  | cons u uses ih =>
    have hfirst := Writes.use h u
    obtain ⟨w', hs, -⟩ := hfirst.sink
    rw [events_cons, OutputEvent.rendered_append, List.length_append]
    exact hfirst.trans hs (ih hs)

theorem takenInFull_unlimited (h : r.sink = .writer w) (hl : w.limit = none) (uses : List Use) :
    r.takenInFull uses = (Output.events uses).length := by
  induction uses generalizing r w with
  | nil => rfl
  | cons u uses ih =>
    have hfirst : (r.takesAll u).toNat = (Output.events [u]).length := by
      cases u with
      | call thread printer e =>
        rw [(use_call h thread printer e).2.1]
        simp [ByteWriter.write, ByteWriter.room, hl, Output.events, Use.event?]
      | drain => rfl
      | take => rfl
    obtain ⟨w', hs, hwrote, -⟩ := (Writes.use h u).sink
    rw [events_cons, List.length_append, takenInFull, hfirst, ih hs (hwrote.limit.trans hl)]

/-- A writer with a limit takes a text in full if it is empty or within the limit with all that came
before it. -/
theorem takesAll_limited {limit : Nat} (before : List Use) (thread : Log.Thread)
    (printer : Option Stream) (e : OutputEvent) :
    (after { sink := .writer { limit := some limit } } before).takesAll (.call thread printer e) = true ↔
      e.render = "" ∨
        (Text.encode (OutputEvent.rendered (Output.events before ++ [e]))).length ≤ limit := by
  let r : Reception := { sink := .writer { limit := some limit } }
  obtain ⟨w, hs, hwrote, -⟩ := (Writes.after (r := r) rfl before).sink
  obtain ⟨-, htakes, -⟩ := use_call hs thread printer e
  obtain ⟨hnow, hok, -⟩ := w.wrote_write (Text.encode e.render)
  have hwritten := congrArg List.length hwrote.written
  rw [htakes, hok, decide_eq_true_eq, hnow.all_iff, OutputEvent.rendered_append, Text.encode_append,
    OutputEvent.rendered_singleton, ← Text.encode_eq_nil, ← List.length_eq_zero_iff]
  simp only [ByteWriter.room, hwrote.limit, List.length_append, List.length_take,
    List.length_nil] at hwritten ⊢
  omega

end Reception

/-- Whatever calls are made, straight or through printers, and whenever the host takes what is there for
it: the events that a mailbox posts, the text that a capture collects and the bytes that a writer writes
are one text. A writer that accepts so many bytes in all has the first of them; it is flushed after each
call whose text it takes in full, also an empty one when it is full already, and any other call leaves a
warning. -/
theorem sinks_render_one_text (uses : List Use) :
    let text := OutputEvent.rendered (events uses)
    (let r := Reception.after { sink := .mailbox true [] } uses
      ∃ waiting, r.sink = .mailbox true waiting ∧ r.events ++ waiting = events uses ∧
        OutputEvent.rendered (r.events ++ waiting) = text ∧ r.warnings = 0) ∧
    (let r := Reception.after { sink := .capture "" } uses
      ∃ contents, r.sink = .capture contents ∧ r.text ++ contents = text ∧ r.warnings = 0) ∧
    (let r := Reception.after { sink := .writer {} } uses
      ∃ w, r.sink = .writer w ∧ w.written = Text.encode text ∧ w.flushes = (events uses).length ∧
        r.warnings = 0) ∧
    ∀ limit : Nat,
      let start : Reception := { sink := .writer { limit := some limit } }
      (∃ w, (start.after uses).sink = .writer w ∧
        w.written = (Text.encode text).take (min limit (Text.encode text).length) ∧
        w.flushes = start.takenInFull uses ∧
        (start.after uses).warnings + w.flushes = (events uses).length) ∧
      ∀ (before : List Use) (thread : Log.Thread) (printer : Option Stream) (e : OutputEvent),
        (start.after before).takesAll (.call thread printer e) = true ↔
          e.render = "" ∨
            (Text.encode (OutputEvent.rendered (events before ++ [e]))).length ≤ limit := by
  intro text
  refine ⟨?_, ?_, ?_, fun limit => ⟨?_, fun before thread printer e => ?_⟩⟩
  · have hposts : Reception.Posts { sink := .mailbox true [] } [] := ⟨[], rfl, rfl, rfl⟩
    obtain ⟨waiting, hs, he, hw⟩ := hposts.after uses
    exact ⟨waiting, hs, he, congrArg OutputEvent.rendered he, hw⟩
  · have hcaptures : Reception.Captures { sink := .capture "" } "" := ⟨"", rfl, rfl, rfl⟩
    obtain ⟨contents, hs, ht, hw⟩ := hcaptures.after uses
    exact ⟨contents, hs, ht.trans String.empty_append, hw⟩
  · let start : Reception := { sink := .writer {} }
    obtain ⟨⟨w, hs, hwrote, hflushes⟩, hwarnings⟩ := Reception.Writes.after (r := start) rfl uses
    rw [Reception.takenInFull_unlimited (r := start) rfl rfl] at hflushes hwarnings
    refine ⟨w, hs, ?_, hflushes.trans (Nat.zero_add _), Nat.add_right_cancel hwarnings⟩
    exact hwrote.written.trans (List.take_length)
  · let start : Reception := { sink := .writer { limit := some limit } }
    obtain ⟨⟨w, hs, hwrote, hflushes⟩, hwarnings⟩ := Reception.Writes.after (r := start) rfl uses
    have hk : w.flushes = start.takenInFull uses := hflushes.trans (Nat.zero_add _)
    refine ⟨w, hs, ?_, hk, ?_⟩
    · rw [Nat.min_comm]
      exact hwrote.written
    · rw [hk]
      exact hwarnings.trans (Nat.zero_add _)
  · exact Reception.takesAll_limited before thread printer e

/-- A writer may fill up inside a character; an empty text is still taken after that. -/
example : (Reception.after { sink := .writer { limit := some 2 } }
    [.call .host none (.text "a€"), .call .host (some .err) (.text ""), .call .host none .newline]).sink =
      .writer { limit := some 2, written := [0x61, 0xE2], flushes := 1 } := by rfl

end Output

end Conduit

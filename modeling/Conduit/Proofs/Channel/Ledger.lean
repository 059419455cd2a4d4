import Conduit.Channel.Desk
import Conduit.Proofs.Channel.Basic
import Mathlib.Data.List.Nodup

/-!
What a host can write down that sees every answer of a channel: which writes stand, which of them were
told that their line is in the channel, which lines left it and which reads still wait. Whatever the
channel does can be told from the ledger.
-/
namespace Conduit.ChannelDesk
open Channel

inductive Removal where
  | read (ticket : Nat) (line : String)
  | discard (ticket : Nat) (line : String)
deriving DecidableEq, Repr

namespace Removal

def line : Removal → String
  | read _ line | discard _ line => line

def reader? : Removal → Option Nat
  | read ticket _ => some ticket
  | discard _ _ => none

end Removal

structure Ledger where
  /-- The writes that were neither refused nor called off, in the order of the calls. -/
  standing : List (Nat × String) := []
  /-- Those of them whose line is in the channel, in the order in which they were told so. -/
  accepted : List (Nat × String) := []
  removed : List Removal := []
  /-- The reads that have no answer yet, in the order of the calls. -/
  asking : List Nat := []

def Answer.replies (a : Answer) (ticket : Nat) : List (Nat × Reply) :=
  (a.reply.map fun r => (ticket, r)).toList ++ a.completed

def acceptedNow (ticket : Nat) : Call → Option Reply → List (Nat × String)
  | .write line _, some .queued | .tryWrite line, some .accepted => [(ticket, line)]
  | .fill line _, some (.count n) =>
    (List.range n).map fun i => (ticket, line ++ Decimal.natText i)
  | _, _ => []

def blockedNow (ticket : Nat) : Call → Option Reply → List (Nat × String)
  | .write line _, none => [(ticket, line)]
  | _, _ => []

def askingNow (ticket : Nat) : Call → Option Reply → List Nat
  | .read _ _, none => [ticket]
  | _, _ => []

def acceptedLater (standing : List (Nat × String)) (completed : List (Nat × Reply)) :
    List (Nat × String) :=
  completed.filterMap fun (t, r) =>
    if r = .queued then (standing.lookup t).map fun line => (t, line) else none

def delivered (replies : List (Nat × Reply)) : List Removal :=
  replies.filterMap fun
    | (t, .line text) => some (.read t text)
    | _ => none

/- A read that is called off may be answered with an empty line, which never was in the channel. -/
def removedBy (d : ChannelDesk) (ticket : Nat) (a : Answer) : Call → List Removal
  | .cancel _ => []
  | .clear => d.channel.lines.map (.discard ticket)
  | .read token _ => if d.calledOff token then [] else delivered (a.replies ticket)
  | _ => delivered (a.replies ticket)

def Ledger.enter (l : Ledger) (d : ChannelDesk) (ticket : Nat) (call : Call) : Ledger :=
  let a := (d.perform ticket call).2
  { standing :=
      (l.standing ++ acceptedNow ticket call a.reply ++ blockedNow ticket call a.reply).filter
        fun w => (w.1, Reply.cancelled) ∉ a.completed
    accepted :=
      l.accepted ++ acceptedNow ticket call a.reply ++ acceptedLater l.standing a.completed
    removed := l.removed ++ removedBy d ticket a call
    asking :=
      (l.asking ++ askingNow ticket call a.reply).filter fun t => t ∉ a.completed.map Prod.fst }

def run (d : ChannelDesk) (l : Ledger) : List (Nat × Call) → ChannelDesk × Ledger
  | [] => (d, l)
  | (ticket, call) :: calls => run (d.perform ticket call).1 (l.enter d ticket call) calls

/-! Tickets -/

/-- The tickets of the writes that were told that their lines are in the channel, of the reads that
got a line, and of the reads and writes that wait, given that no two calls of `used` share one. -/
structure Tickets (used accepted served readers writers : List Nat) : Prop where
  blocked : (readers ++ writers).Nodup
  unserved : ∀ t ∈ readers ++ writers, t ∉ accepted
  once : (served ++ readers).Nodup
  known : ∀ t ∈ accepted ++ served ++ (readers ++ writers), t ∈ used

namespace Tickets
variable {used as ss rs ws vs : List Nat} {t r : Nat}

theorem mono (h : Tickets used as ss rs ws) (t : Nat) : Tickets (t :: used) as ss rs ws :=
  { h with known := fun u hu => List.mem_cons_of_mem t (h.known u hu) }

theorem fresh (h : Tickets used as ss rs ws) (ht : t ∉ used) : t ∉ rs ++ ws := fun hm =>
  ht (h.known t (List.mem_append_right _ hm))

theorem accept (h : Tickets used as ss rs ws) (ht : t ∈ used) (hn : t ∉ rs ++ ws) :
    Tickets used (as ++ [t]) ss rs ws where
  blocked := h.blocked
  unserved := fun u hu hm => by
    rcases List.mem_append.mp hm with hm | hm
    · exact h.unserved u hu hm
    · exact hn (List.mem_singleton.mp hm ▸ hu)
  once := h.once
  known := fun u hu => by
    have hk := h.known u
    grind

theorem serve (h : Tickets used as ss (r :: rs) ws) : Tickets used as (ss ++ [r]) rs ws where
  blocked := (List.nodup_cons.mp h.blocked).2
  unserved := fun u hu => h.unserved u (List.mem_cons_of_mem r hu)
  once := by
    rw [List.append_assoc]
    exact h.once
  known := fun u hu => by
    have hk := h.known u
    grind

theorem receive (h : Tickets used as ss rs ws) (ht : t ∈ used) (hn : t ∉ ss ++ rs) :
    Tickets used as (ss ++ [t]) rs ws where
  blocked := h.blocked
  unserved := h.unserved
  once := by
    have ho := h.once
    grind
  known := fun u hu => by
    have hk := h.known u
    grind

theorem promote (h : Tickets used as ss rs (vs ++ ws)) : Tickets used (as ++ vs) ss rs ws where
  blocked := by
    have hb := h.blocked
    grind
  unserved := fun u hu => by
    have hb := h.blocked
    have hn := h.unserved u
    grind
  once := h.once
  known := fun u hu => by
    have hk := h.known u
    grind

theorem blockWrite (h : Tickets used as ss rs ws) (ht : t ∉ used) :
    Tickets (t :: used) as ss rs (ws ++ [t]) where
  blocked := by
    rw [← List.append_assoc, List.nodup_append]
    refine ⟨h.blocked, List.nodup_singleton t, fun u hu v hv he => ?_⟩
    rw [he, List.mem_singleton.mp hv] at hu
    exact h.fresh ht hu
  unserved := fun u hu => by
    have hn := h.unserved u
    have hk := h.known u
    grind
  once := h.once
  known := fun u hu => by
    have hk := h.known u
    grind

theorem blockRead (h : Tickets used as ss rs ws) (ht : t ∉ used) :
    Tickets (t :: used) as ss (rs ++ [t]) ws where
  blocked := by
    have hb := h.blocked
    have hf := h.fresh ht
    grind
  unserved := fun u hu => by
    have hn := h.unserved u
    have hk := h.known u
    grind
  once := by
    have ho := h.once
    have hk := h.known t
    grind
  known := fun u hu => by
    have hk := h.known u
    grind

theorem sublist {rs' ws' : List Nat} (h : Tickets used as ss rs ws) (hr : rs'.Sublist rs)
    (hw : ws'.Sublist ws) : Tickets used as ss rs' ws' where
  blocked := h.blocked.sublist (hr.append hw)
  unserved := fun u hu => h.unserved u ((hr.append hw).subset hu)
  once := h.once.sublist ((List.Sublist.refl _).append hr)
  known := fun u hu => h.known u
    ((List.Sublist.append (List.Sublist.refl _) (hr.append hw)).subset hu)

end Tickets

/-! The ledger and the channel agree. -/

def readerTickets (c : Channel) : List Nat := c.readers.map (·.ticket)
def writerTickets (c : Channel) : List Nat := c.writers.map (·.ticket)
def blockedWrites (c : Channel) : List (Nat × String) := c.writers.map fun w => (w.ticket, w.line)

def calledOffReplies (c : Channel) (token : Nat) (reply : Reader → Reply) : List (Nat × Reply) :=
  (c.readersOf token).map (fun r => (r.ticket, reply r)) ++
    (c.writersOf token).map fun w => (w.ticket, .cancelled)

/-- The ledger tells what the channel holds, given that no two calls of `used` share a ticket. -/
structure Agrees (l : Ledger) (c : Channel) (used : List Nat) : Prop where
  sound : c.Sound
  lines : l.accepted.map Prod.snd = l.removed.map Removal.line ++ c.lines
  order : l.standing = l.accepted ++ blockedWrites c
  asking : l.asking = readerTickets c
  tickets : Tickets used (l.accepted.map Prod.fst) (l.removed.filterMap Removal.reader?)
    (readerTickets c) (writerTickets c)

namespace Agrees
variable {l : Ledger} {c c' : Channel} {used : List Nat} {t : Nat} {line : String}
  {served : List Served}

theorem mono (h : Agrees l c used) (t : Nat) : Agrees l c (t :: used) :=
  { h with tickets := h.tickets.mono t }

theorem buffer (h : Agrees l c used) (hf : c.isFull = false) (hr : c.readers = []) (ht : t ∈ used)
    (line : String) :
    Agrees { l with standing := l.standing ++ [(t, line)], accepted := l.accepted ++ [(t, line)] }
      { c with lines := c.lines ++ [line] } used := by
  have hs := h.sound.accept hf line
  have hw := h.sound.no_writers_of_room hf
  have hn : t ∉ readerTickets c ++ writerTickets c := by simp [readerTickets, writerTickets, hr, hw]
  rw [accept_of_no_readers hr] at hs
  refine ⟨hs, ?_, ?_, h.asking, ?_⟩
  · simp [h.lines]
  · simp [h.order, blockedWrites, hw]
  · rw [List.map_append]
    exact h.tickets.accept ht hn

theorem handOver (h : Agrees l c used) {r : Reader} {rs : List Reader} (hr : c.readers = r :: rs)
    (ht : t ∈ used) (hn : t ∉ readerTickets c) (line : String) :
    Agrees
      { standing := l.standing ++ [(t, line)]
        accepted := l.accepted ++ [(t, line)]
        removed := l.removed ++ [.read r.ticket line]
        asking := rs.map (·.ticket) }
      { c with readers := rs } used := by
  have hne : c.readers ≠ [] := by simp [hr]
  have he := h.sound.empty hne
  have hw := h.sound.no_writers hne
  have hall : t ∉ readerTickets c ++ writerTickets c := by simpa [writerTickets, hw] using hn
  have hk := h.tickets.accept ht hall
  rw [readerTickets, hr, List.map_cons] at hk
  refine ⟨⟨h.sound.room, h.sound.bounded, fun hn => absurd hw hn, fun _ => he⟩, ?_, ?_, rfl, ?_⟩
  · simp [h.lines, he, Removal.line]
  · simp [h.order, blockedWrites, hw]
  · rw [List.map_append, List.filterMap_append]
    exact hk.serve

/-- A line that is taken in goes to the oldest read that waits, or else to the end of the buffer. -/
theorem accept (h : Agrees l c used) (hf : c.isFull = false) (ht : t ∈ used)
    (hn : t ∉ readerTickets c) (ha : c.accept line = (c', served)) :
    Agrees
      { standing := l.standing ++ [(t, line)]
        accepted := l.accepted ++ [(t, line)]
        removed := l.removed ++ delivered (served.map servedReply)
        asking := readerTickets c' }
      c' used ∧
    readerTickets c = (served.map servedReply).map Prod.fst ++ readerTickets c' ∧
    ∀ x ∈ served, ∃ u text, x = .read u text := by
  cases hr : c.readers with
  | nil =>
    rw [accept_of_no_readers hr] at ha
    obtain ⟨rfl, rfl⟩ := Prod.mk.inj ha
    have hb := h.buffer hf hr ht line
    rw [h.asking] at hb
    simpa [delivered, readerTickets] using hb
  | cons r rs =>
    rw [accept_of_readers hr] at ha
    obtain ⟨rfl, rfl⟩ := Prod.mk.inj ha
    have hb := h.handOver hr ht hn line
    refine ⟨by simpa [delivered, servedReply, readerTickets] using hb, ?_, ?_⟩
    · simp [readerTickets, servedReply, hr]
    · simp

theorem fill (h : Agrees l c used) (ht : t ∈ used) (hn : t ∉ readerTickets c) (line : String)
    (i count : Nat) {n : Nat} (hf : fillFrom c line i count = (c', served, n)) :
    Agrees
      { standing := l.standing ++ (List.range n).map fun k => (t, line ++ Decimal.natText (i + k))
        accepted := l.accepted ++ (List.range n).map fun k => (t, line ++ Decimal.natText (i + k))
        removed := l.removed ++ delivered (served.map servedReply)
        asking := readerTickets c' }
      c' used ∧
    readerTickets c = (served.map servedReply).map Prod.fst ++ readerTickets c' ∧
    ∀ x ∈ served, ∃ u text, x = .read u text := by
  induction count generalizing l c i n served with
  | zero =>
    simp only [fillFrom, Prod.mk.injEq] at hf
    obtain ⟨rfl, rfl, rfl⟩ := hf
    refine ⟨?_, by simp, by simp⟩
    simpa [delivered, ← h.asking] using h
  | succ count ih =>
    simp only [fillFrom] at hf
    split at hf
    · simp only [Prod.mk.injEq] at hf
      obtain ⟨rfl, rfl, rfl⟩ := hf
      refine ⟨?_, by simp, by simp⟩
      simpa [delivered, ← h.asking] using h
    · rename_i c₁ first hw
      obtain ⟨hroom, ha⟩ := tryWrite_eq_some hw
      obtain ⟨h₁, hr₁, hx₁⟩ := h.accept hroom ht hn ha.symm
      have hn₁ : t ∉ readerTickets c₁ := fun hm => hn (hr₁ ▸ List.mem_append_right _ hm)
      cases hrest : fillFrom c₁ line (i + 1) count with
      | mk c₂ more =>
        obtain ⟨served₂, n₂⟩ := more
        rw [hrest] at hf
        simp only [Prod.mk.injEq] at hf
        obtain ⟨rfl, rfl, rfl⟩ := hf
        obtain ⟨h₂, hr₂, hx₂⟩ := ih h₁ hn₁ (i + 1) hrest
        refine ⟨?_, by simp [hr₁, hr₂], ?_⟩
        · have hi (k : Nat) : i + 1 + k = i + (k + 1) := by omega
          simpa [List.range_succ_eq_map, Function.comp_def, delivered, hi] using h₂
        · intro x hx
          exact (List.mem_append.mp hx).elim (hx₁ x) (hx₂ x)

/-- A buffered line is taken by a call, and the oldest blocked write gets its place. -/
theorem take (h : Agrees l c used) (hk : c.take? = some (line, c', served)) (ht : t ∈ used)
    (hn : t ∉ l.removed.filterMap Removal.reader?) :
    Agrees
      { l with
        accepted := l.accepted ++ (blockedWrites c).take 1
        removed := l.removed ++ [.read t line] }
      c' used := by
  have hs := h.sound.take? hk
  obtain ⟨rest, hl, hc⟩ := take?_cases hk
  have hr : readerTickets c = [] := by
    rw [readerTickets, List.map_eq_nil_iff]
    by_contra hr
    simpa [hl] using h.sound.empty hr
  have hlines := h.lines
  rw [hl] at hlines
  have hall : t ∉ l.removed.filterMap Removal.reader? ++ readerTickets c := by simpa [hr] using hn
  have htickets := h.tickets.receive ht hall
  obtain ⟨hw, rfl, -⟩ | ⟨w, ws, hw, rfl, -⟩ := hc
  · refine ⟨hs, ?_, ?_, h.asking, ?_⟩
    · simp [hlines, Removal.line, blockedWrites, hw]
    · simp [h.order, blockedWrites, hw]
    · have hb : blockedWrites c = [] := by rw [blockedWrites, hw, List.map_nil]
      rw [hb, List.take_nil, List.append_nil, List.filterMap_append]
      exact htickets
  · refine ⟨hs, ?_, ?_, h.asking, ?_⟩
    · simp [hlines, Removal.line, blockedWrites, hw]
    · simp [h.order, blockedWrites, hw]
    · rw [writerTickets, hw, List.map_cons, ← List.singleton_append] at htickets
      rw [blockedWrites, hw, List.map_append, List.filterMap_append]
      exact htickets.promote

theorem blockWrite (h : Agrees l c used) (hf : c.isFull = true) (ht : t ∉ used)
    (token : Option Nat) (line : String) :
    Agrees { l with standing := l.standing ++ [(t, line)] } (c.enqueueWriter ⟨t, token, line⟩)
      (t :: used) := by
  refine ⟨h.sound.enqueueWriter hf _, h.lines, ?_, h.asking, ?_⟩
  · simp [h.order, blockedWrites, enqueueWriter]
  · rw [writerTickets, enqueueWriter, List.map_append]
    exact h.tickets.blockWrite ht

theorem blockRead (h : Agrees l c used) (he : c.lines = []) (ht : t ∉ used) (token : Option Nat) :
    Agrees { l with asking := l.asking ++ [t] } (c.enqueueReader ⟨t, token⟩) (t :: used) := by
  refine ⟨h.sound.enqueueReader he _, h.lines, h.order, ?_, ?_⟩
  · simp [h.asking, readerTickets, enqueueReader]
  · rw [readerTickets, enqueueReader, List.map_append]
    exact h.tickets.blockRead ht

theorem clear (h : Agrees l c used) (t : Nat) :
    Agrees
      { l with
        accepted := l.accepted ++ (blockedWrites c).take c.limit
        removed := l.removed ++ c.lines.map (.discard t) }
      c.clear.1 used := by
  have hd : (c.lines.map (Removal.discard t)).filterMap Removal.reader? = [] := by
    simp [Removal.reader?]
  have hl : (c.lines.map (Removal.discard t)).map Removal.line = c.lines := by
    simp [Function.comp_def, Removal.line]
  have hfirst : ((blockedWrites c).take c.limit).map Prod.fst = (writerTickets c).take c.limit := by
    simp [blockedWrites, writerTickets, ← List.map_take]
  have hrest : writerTickets c.clear.1 = (writerTickets c).drop c.limit := by
    simp [writerTickets, Channel.clear]
  have hlater : blockedWrites c.clear.1 = (blockedWrites c).drop c.limit := by
    simp [blockedWrites, Channel.clear]
  have ht := h.tickets
  rw [← List.take_append_drop c.limit (writerTickets c)] at ht
  refine ⟨h.sound.clear, ?_, ?_, h.asking, ?_⟩
  · simp [h.lines, hl, blockedWrites, Channel.clear, ← List.map_take, Function.comp_def]
  · rw [hlater, List.append_assoc, List.take_append_drop]
    exact h.order
  · rw [hrest, List.map_append, hfirst, List.filterMap_append, hd, List.append_nil]
    exact ht.promote

/- A ticket names one blocked call, so that the tickets of the calls that were called off pick out
those calls and no others. -/
theorem writer_calledOff (h : Agrees l c used) {w : Writer} (hw : w ∈ c.writers) (token : Nat)
    (reply : Reader → Reply) :
    (w.ticket, Reply.cancelled) ∈ calledOffReplies c token reply ↔ w.token = some token := by
  obtain ⟨-, hn, hd⟩ := List.nodup_append.mp h.tickets.blocked
  simp only [calledOffReplies, readersOf, writersOf, List.mem_append, List.mem_map, List.mem_filter,
    decide_eq_true_eq, Prod.mk.injEq, and_true]
  constructor
  · rintro (⟨r, ⟨hr, -⟩, ht, -⟩ | ⟨v, ⟨hv, hv'⟩, ht⟩)
    · exact absurd ht (hd _ (List.mem_map_of_mem hr) _ (List.mem_map_of_mem hw))
    · exact List.inj_on_of_nodup_map hn hv hw ht ▸ hv'
  · exact fun hk => .inr ⟨w, ⟨hw, hk⟩, rfl⟩

theorem reader_calledOff (h : Agrees l c used) {r : Reader} (hr : r ∈ c.readers) (token : Nat)
    (reply : Reader → Reply) :
    r.ticket ∈ (calledOffReplies c token reply).map Prod.fst ↔ r.token = some token := by
  obtain ⟨hn, -, hd⟩ := List.nodup_append.mp h.tickets.blocked
  simp only [calledOffReplies, readersOf, writersOf, List.map_append, List.map_map,
    Function.comp_def, List.mem_append, List.mem_map, List.mem_filter, decide_eq_true_eq]
  constructor
  · rintro (⟨q, ⟨hq, hq'⟩, ht⟩ | ⟨w, ⟨hw, -⟩, ht⟩)
    · exact List.inj_on_of_nodup_map hn hq hr ht ▸ hq'
    · exact absurd ht.symm (hd _ (List.mem_map_of_mem hr) _ (List.mem_map_of_mem hw))
  · exact fun hk => .inl ⟨r, ⟨hr, hk⟩, rfl⟩

theorem accepted_kept (h : Agrees l c used) {w : Nat × String} (hw : w ∈ l.accepted) (token : Nat)
    (reply : Reader → Reply) : (w.1, Reply.cancelled) ∉ calledOffReplies c token reply := by
  intro hm
  refine h.tickets.unserved w.1 ?_ (List.mem_map_of_mem hw)
  rcases List.mem_append.mp hm with hm | hm
  · obtain ⟨r, hr, he⟩ := List.mem_map.mp hm
    rw [← congrArg Prod.fst he]
    exact List.mem_append_left _ (List.mem_map_of_mem (List.mem_filter.mp hr).1)
  · obtain ⟨v, hv, he⟩ := List.mem_map.mp hm
    rw [← congrArg Prod.fst he]
    exact List.mem_append_right _ (List.mem_map_of_mem (List.mem_filter.mp hv).1)

theorem abandon (h : Agrees l c used) (token : Nat) (reply : Reader → Reply) :
    Agrees
      { l with
        standing := l.standing.filter fun w =>
          (w.1, Reply.cancelled) ∉ calledOffReplies c token reply
        asking := l.asking.filter fun t => t ∉ (calledOffReplies c token reply).map Prod.fst }
      (c.abandon token) used := by
  refine ⟨h.sound.abandon token, h.lines, ?_, ?_, h.tickets.sublist ?_ ?_⟩
  · have hkept : l.accepted.filter (fun w =>
        (w.1, Reply.cancelled) ∉ calledOffReplies c token reply) = l.accepted :=
      List.filter_eq_self.mpr fun w hw => by simpa using h.accepted_kept hw token reply
    rw [h.order, List.filter_append, hkept, blockedWrites, List.filter_map]
    refine congrArg (l.accepted ++ List.map _ ·) (List.filter_congr fun w hw => ?_)
    simp only [Function.comp_def, h.writer_calledOff hw, ne_eq]
  · rw [h.asking, readerTickets, List.filter_map]
    refine congrArg (List.map _) (List.filter_congr fun r hr => ?_)
    simp only [Function.comp_def, h.reader_calledOff hr, ne_eq]
  · exact List.filter_sublist.map _
  · exact List.filter_sublist.map _

end Agrees

end Conduit.ChannelDesk

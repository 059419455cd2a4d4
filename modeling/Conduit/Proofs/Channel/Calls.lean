import Conduit.Proofs.Channel.Ledger

/-!
The ledger over any number of calls. Lines leave the channel in the order in which the writes were
called, and none is lost, doubled or overtaken.
-/
namespace Conduit.ChannelDesk
open Channel

/-! One call -/

theorem cancelled_not_served (t : Nat) (served : List Served) :
    (t, Reply.cancelled) ∉ served.map servedReply := by
  intro h
  obtain ⟨x, -, hx⟩ := List.mem_map.mp h
  cases x <;> simp [servedReply] at hx

theorem Agrees.lookup {l : Ledger} {c : Channel} {used : List Nat} (h : Agrees l c used) {w : Writer}
    (hw : w ∈ c.writers) : l.standing.lookup w.ticket = some w.line := by
  obtain ⟨before, after, hs⟩ := List.append_of_mem hw
  have hb := (List.nodup_append.mp h.tickets.blocked).2.1
  have hu := h.tickets.unserved w.ticket
    (List.mem_append_right _ (List.mem_map_of_mem (f := Writer.ticket) hw))
  rw [List.lookup_eq_some_iff]
  refine ⟨l.accepted ++ before.map fun w => (w.ticket, w.line),
    after.map fun w => (w.ticket, w.line), ?_, ?_⟩
  · simp [h.order, blockedWrites, hs]
  · intro p hp
    simp only [writerTickets, hs, List.map_append, List.map_cons, List.nodup_append, List.mem_map,
      List.mem_cons] at hb
    simp only [List.mem_append, List.mem_map] at hp
    simp only [bne_iff_ne, ne_eq]
    rintro he
    obtain hp | ⟨w', hw', rfl⟩ := hp
    · exact hu (he ▸ List.mem_map_of_mem hp)
    · exact hb.2.2 _ ⟨w', hw', rfl⟩ _ (.inl rfl) he.symm

theorem Agrees.acceptedLater_wrote {l : Ledger} {c : Channel} {used : List Nat} (h : Agrees l c used)
    (ws : List Writer) (hws : ws ⊆ c.writers) :
    acceptedLater l.standing ((ws.map fun w => Served.wrote w.ticket).map servedReply) =
      ws.map fun w => (w.ticket, w.line) := by
  induction ws with
  | nil => rfl
  | cons w ws ih =>
    have hw := h.lookup (hws List.mem_cons_self)
    have hi := ih fun x hx => hws (List.mem_cons_of_mem w hx)
    simp only [acceptedLater] at hi ⊢
    simp only [List.map_cons, List.filterMap_cons, servedReply, ↓reduceIte, hw, Option.map_some]
    rw [hi]

theorem acceptedLater_reads {served : List Served} (h : ∀ x ∈ served, ∃ u text, x = .read u text)
    (standing : List (Nat × String)) : acceptedLater standing (served.map servedReply) = [] := by
  simp only [acceptedLater, List.filterMap_map, List.filterMap_eq_nil_iff]
  intro x hx
  obtain ⟨u, text, rfl⟩ := h x hx
  simp [servedReply]

theorem filter_notMem_append {xs ys : List Nat} (h : (xs ++ ys).Nodup) :
    (xs ++ ys).filter (fun u => u ∉ xs) = ys := by
  have hd := (List.nodup_append.mp h).2.2
  have hx : xs.filter (fun u => u ∉ xs) = [] := by simp
  have hy : ys.filter (fun u => u ∉ xs) = ys := by
    apply List.filter_eq_self.mpr
    intro u hu
    simpa using fun hm => hd u hm u hu rfl
  rw [List.filter_append, hx, hy, List.nil_append]

theorem enter_of_served {l : Ledger} {d d' : ChannelDesk} {t : Nat} {call : Call}
    {reply : Option Reply} {logs : List Log.Entry} (served : List Served)
    (hp : d.perform t call = (d', ⟨reply, served.map servedReply, logs⟩)) :
    l.enter d t call =
      { standing := l.standing ++ acceptedNow t call reply ++ blockedNow t call reply
        accepted :=
          l.accepted ++ acceptedNow t call reply ++ acceptedLater l.standing (served.map servedReply)
        removed := l.removed ++ removedBy d t ⟨reply, served.map servedReply, logs⟩ call
        asking := (l.asking ++ askingNow t call reply).filter
          fun u => u ∉ (served.map servedReply).map Prod.fst } := by
  simp only [Ledger.enter, hp, Ledger.mk.injEq, and_true]
  apply List.filter_eq_self.mpr
  intro w _
  simpa using cancelled_not_served w.1 served

theorem Agrees.enter_idle {l : Ledger} {d : ChannelDesk} {used : List Nat} {t : Nat} {call : Call}
    {reply : Reply} {logs : List Log.Entry} (h : Agrees l d.channel used)
    (hp : d.perform t call = (d, ⟨some reply, [], logs⟩))
    (ha : acceptedNow t call (some reply) = []) (hb : blockedNow t call (some reply) = [])
    (hr : removedBy d t ⟨some reply, [], logs⟩ call = [])
    (hk : askingNow t call (some reply) = []) :
    Agrees (l.enter d t call) (d.perform t call).1.channel (t :: used) := by
  rw [enter_of_served [] hp, hp]
  simpa [ha, hb, hr, hk, acceptedLater] using h.mono t

theorem Agrees.enter_taken {l : Ledger} {d : ChannelDesk} {used : List Nat} {t : Nat} {call : Call}
    {reply : Reply} {c : Channel} {lines : List (Nat × String)} {served : List Served}
    {logs : List Log.Entry} (h : Agrees l d.channel used)
    (h' : Agrees
      { standing := l.standing ++ lines
        accepted := l.accepted ++ lines
        removed := l.removed ++ delivered (served.map servedReply)
        asking := readerTickets c } c (t :: used))
    (hs : readerTickets d.channel = (served.map servedReply).map Prod.fst ++ readerTickets c)
    (hx : ∀ x ∈ served, ∃ u text, x = .read u text)
    (hp : d.perform t call = ({ d with channel := c }, ⟨some reply, served.map servedReply, logs⟩))
    (ha : acceptedNow t call (some reply) = lines) (hb : blockedNow t call (some reply) = [])
    (hr : removedBy d t ⟨some reply, served.map servedReply, logs⟩ call =
      delivered (served.map servedReply))
    (hk : askingNow t call (some reply) = []) :
    Agrees (l.enter d t call) (d.perform t call).1.channel (t :: used) := by
  have hd := (List.nodup_append.mp h.tickets.blocked).1
  rw [hs] at hd
  rw [enter_of_served _ hp, hp, ha, hb, hr, hk, acceptedLater_reads hx, h.asking, hs,
    List.append_nil, List.append_nil, List.append_nil, filter_notMem_append hd]
  exact h'

theorem Agrees.enter_take {l : Ledger} {d : ChannelDesk} {used : List Nat} {t : Nat} {call : Call}
    {line : String} {c : Channel} {served : List Served} {logs : List Log.Entry}
    (h : Agrees l d.channel used) (ht : t ∉ used)
    (hw : d.channel.take? = some (line, c, served))
    (hp : d.perform t call =
      ({ d with channel := c }, ⟨some (.line line), served.map servedReply, logs⟩))
    (ha : acceptedNow t call (some (.line line)) = [])
    (hb : blockedNow t call (some (.line line)) = [])
    (hr : removedBy d t ⟨some (.line line), served.map servedReply, logs⟩ call =
      delivered ((t, .line line) :: served.map servedReply))
    (hk : askingNow t call (some (.line line)) = []) :
    Agrees (l.enter d t call) (d.perform t call).1.channel (t :: used) := by
  have hn : t ∉ l.removed.filterMap Removal.reader? := fun hm =>
    ht (h.tickets.known t (List.mem_append_left _ (List.mem_append_right _ hm)))
  have h' := (h.mono t).take hw List.mem_cons_self hn
  obtain ⟨rest, hl, hc⟩ := take?_cases hw
  have hempty : l.asking = [] := by
    rw [h.asking, readerTickets, List.map_eq_nil_iff]
    by_contra hne
    simpa [hl] using h.sound.empty hne
  rw [enter_of_served _ hp, hp, ha, hb, hr, hk]
  obtain ⟨hnone, -, rfl⟩ | ⟨w, ws, hsome, -, rfl⟩ := hc
  · simpa [delivered, acceptedLater, blockedWrites, hnone] using h'
  · have hlater := h.acceptedLater_wrote [w] (by simp [hsome])
    simp only [List.map_cons, List.map_nil, servedReply] at hlater
    simpa [delivered, servedReply, hlater, blockedWrites, hsome, hempty] using h'

theorem Agrees.enter_clear {l : Ledger} {d : ChannelDesk} {used : List Nat} (h : Agrees l d.channel used)
    (t : Nat) : Agrees (l.enter d t .clear) (d.perform t .clear).1.channel (t :: used) := by
  have hlater := h.acceptedLater_wrote _ (List.take_subset d.channel.limit d.channel.writers)
  have hasking : l.asking.filter (fun u => u ∉
      (d.channel.clear.2.map servedReply).map Prod.fst) = l.asking := by
    apply List.filter_eq_self.mpr
    intro u hu
    rw [h.asking] at hu
    have hd := (List.nodup_append.mp h.tickets.blocked).2.2 u hu
    simp only [Channel.clear, List.map_map, List.mem_map, Function.comp_def, servedReply,
      decide_eq_true_eq]
    rintro ⟨w, hw, rfl⟩
    exact hd _ (List.mem_map_of_mem (List.mem_of_mem_take hw)) rfl
  rw [enter_of_served d.channel.clear.2 rfl]
  simp only [acceptedNow, blockedNow, askingNow, removedBy, List.append_nil, hasking]
  rw [show d.channel.clear.2 = (d.channel.writers.take d.channel.limit).map
    fun w => Served.wrote w.ticket from rfl, hlater]
  simpa [blockedWrites, List.map_take, perform] using (h.mono t).clear t

theorem Agrees.enter_cancel {l : Ledger} {d : ChannelDesk} {used : List Nat}
    (h : Agrees l d.channel used) (t token : Nat) :
    Agrees (l.enter d t (.cancel token)) (d.perform t (.cancel token)).1.channel (t :: used) := by
  by_cases hk : d.isCancelled token = true
  · have hp : d.perform t (.cancel token) = (d, ⟨some .done, [], []⟩) := by
      simp [perform, cancel, hk]
    exact h.enter_idle hp rfl rfl rfl rfl
  · have h' := (h.mono t).abandon token fun r => cancelReply (d.onCancelOf r.ticket)
    have hlater : acceptedLater l.standing
        ((d.channel.readersOf token).map (fun r => (r.ticket, cancelReply (d.onCancelOf r.ticket))) ++
          (d.channel.writersOf token).map fun w => (w.ticket, Reply.cancelled)) = [] := by
      simp only [acceptedLater, List.filterMap_eq_nil_iff, List.mem_append, List.mem_map]
      rintro _ (⟨r, -, rfl⟩ | ⟨w, -, rfl⟩)
      · cases d.onCancelOf r.ticket <;> simp [cancelReply]
      · simp
    simpa [Ledger.enter, perform, cancel, hk, acceptedNow, blockedNow, askingNow, removedBy, hlater,
      calledOffReplies] using h'

theorem Agrees.enter_write {l : Ledger} {d : ChannelDesk} {used : List Nat} {t : Nat}
    (h : Agrees l d.channel used) (ht : t ∉ used) (line : String) (token : Option Nat) :
    Agrees (l.enter d t (.write line token)) (d.perform t (.write line token)).1.channel
      (t :: used) := by
  by_cases hc : d.channel.whenFull = .block ∧ d.calledOff token = true
  · have hp : d.perform t (.write line token) = (d, ⟨some .cancelled, [],
        [entry .host .debug "input write abandoned: already cancelled"]⟩) := by
      simp [perform, write, hc.1, hc.2]
    exact h.enter_idle hp rfl rfl rfl rfl
  cases hw : d.channel.tryWrite line with
  | some taken =>
    obtain ⟨c, served⟩ := taken
    have hp : d.perform t (.write line token) =
        ({ d with channel := c }, ⟨some .queued, served.map servedReply, []⟩) := by
      cases hpol : d.channel.whenFull <;> simp_all [perform, write]
    obtain ⟨hf, ha⟩ := tryWrite_eq_some hw
    have hn : t ∉ readerTickets d.channel := fun hm => h.tickets.fresh ht (List.mem_append_left _ hm)
    obtain ⟨h', hs, hx⟩ := (h.mono t).accept hf List.mem_cons_self hn ha.symm
    exact h.enter_taken h' hs hx hp rfl rfl (by simp [removedBy, Answer.replies, delivered]) rfl
  | none =>
    have hf := tryWrite_eq_none.mp hw
    cases hpol : d.channel.whenFull with
    | drop =>
      have hp : d.perform t (.write line token) = (d, ⟨some .dropped, [],
          [entry .host .warn (droppedMessage d.channel.limit line)]⟩) := by
        simp [perform, write, hpol, hw]
      exact h.enter_idle hp rfl rfl rfl rfl
    | block =>
      have hp : d.perform t (.write line token) =
          ({ d with channel := d.channel.enqueueWriter ⟨t, token, line⟩ },
            ⟨none, ([] : List Served).map servedReply, []⟩) := by
        have hoff : d.calledOff token = false := by simpa [hpol] using hc
        simp [perform, write, hpol, hoff, hw]
      rw [enter_of_served _ hp, hp]
      simpa [acceptedNow, blockedNow, askingNow, removedBy, Answer.replies, delivered,
        acceptedLater] using h.blockWrite hf ht token line

theorem Agrees.enter_read {l : Ledger} {d : ChannelDesk} {used : List Nat} {t : Nat}
    (h : Agrees l d.channel used) (ht : t ∉ used) (token : Option Nat) (onCancel : OnCancel) :
    Agrees (l.enter d t (.read token onCancel)) (d.perform t (.read token onCancel)).1.channel
      (t :: used) := by
  by_cases hc : d.calledOff token = true
  · have hp : d.perform t (.read token onCancel) =
        (d, ⟨some (cancelReply onCancel), [], cancelLogs .host onCancel⟩) := by
      simp [perform, read, hc]
    exact h.enter_idle hp rfl rfl (by simp [removedBy, hc]) rfl
  cases hw : d.channel.take? with
  | some taken =>
    obtain ⟨line, c, served⟩ := taken
    have hp : d.perform t (.read token onCancel) =
        ({ d with channel := c }, ⟨some (.line line), served.map servedReply, []⟩) := by
      simp [perform, read, hc, hw]
    exact h.enter_take ht hw hp rfl rfl (by simp [removedBy, hc, Answer.replies]) rfl
  | none =>
    have he := take?_eq_none.mp hw
    have hp : d.perform t (.read token onCancel) =
        ({ d with
            channel := d.channel.enqueueReader ⟨t, token⟩
            reads := d.reads ++ [(t, onCancel)] }, ⟨none, ([] : List Served).map servedReply, []⟩) := by
      simp [perform, read, hc, hw]
    rw [enter_of_served _ hp, hp]
    simpa [acceptedNow, blockedNow, askingNow, removedBy, Answer.replies, delivered, acceptedLater]
      using h.blockRead he ht token

/-- Whatever is asked of the channel, the ledger goes on telling what it holds. -/
theorem Agrees.enter {l : Ledger} {d : ChannelDesk} {used : List Nat} {t : Nat}
    (h : Agrees l d.channel used) (ht : t ∉ used) (call : Call) :
    Agrees (l.enter d t call) (d.perform t call).1.channel (t :: used) := by
  have hn : t ∉ readerTickets d.channel := fun hm => h.tickets.fresh ht (List.mem_append_left _ hm)
  cases call with
  | write line token => exact h.enter_write ht line token
  | read token onCancel => exact h.enter_read ht token onCancel
  | clear => exact h.enter_clear t
  | cancel token => exact h.enter_cancel t token
  | tryWrite line =>
    cases hw : d.channel.tryWrite line with
    | some taken =>
      obtain ⟨c, served⟩ := taken
      obtain ⟨hf, ha⟩ := tryWrite_eq_some hw
      obtain ⟨h', hs, hx⟩ := (h.mono t).accept hf List.mem_cons_self hn ha.symm
      have hp : d.perform t (.tryWrite line) =
          ({ d with channel := c }, ⟨some .accepted, served.map servedReply, []⟩) := by
        simp [perform, hw]
      exact h.enter_taken h' hs hx hp rfl rfl (by simp [removedBy, Answer.replies, delivered]) rfl
    | none =>
      have hp : d.perform t (.tryWrite line) = (d, ⟨some (.full d.channel.limit), [], []⟩) := by
        simp [perform, hw]
      exact h.enter_idle hp rfl rfl rfl rfl
  | fill line count =>
    cases hw : fillFrom d.channel line 0 count with
    | mk c taken =>
      obtain ⟨served, n⟩ := taken
      obtain ⟨h', hs, hx⟩ := (h.mono t).fill List.mem_cons_self hn line 0 count hw
      have hp : d.perform t (.fill line count) =
          ({ d with channel := c }, ⟨some (.count n), served.map servedReply, []⟩) := by
        simp [perform, hw]
      exact h.enter_taken h' hs hx hp (by simp [acceptedNow]) rfl
        (by simp [removedBy, Answer.replies, delivered]) rfl
  | tryRead =>
    cases hw : d.channel.take? with
    | some taken =>
      obtain ⟨line, c, served⟩ := taken
      have hp : d.perform t .tryRead =
          ({ d with channel := c }, ⟨some (.line line), served.map servedReply, []⟩) := by
        simp [perform, hw]
      exact h.enter_take ht hw hp rfl rfl (by simp [removedBy, Answer.replies]) rfl
    | none =>
      have hp : d.perform t .tryRead = (d, ⟨some .nothing, [], []⟩) := by simp [perform, hw]
      exact h.enter_idle hp rfl rfl rfl rfl

/-! Any number of calls -/

theorem Agrees.run {l : Ledger} {d : ChannelDesk} {used : List Nat} (h : Agrees l d.channel used)
    (calls : List (Nat × Call)) (hd : (calls.map Prod.fst).Nodup)
    (hu : ∀ t ∈ calls.map Prod.fst, t ∉ used) :
    ∃ used', Agrees (run d l calls).2 (run d l calls).1.channel used' := by
  induction calls generalizing l d used with
  | nil => exact ⟨used, h⟩
  | cons head calls ih =>
    obtain ⟨t, call⟩ := head
    simp only [List.map_cons, List.nodup_cons, List.mem_cons] at hd hu
    refine ih (h.enter (hu t (.inl rfl)) call) hd.2 ?_
    intro u hm hc
    rcases List.mem_cons.mp hc with rfl | hc
    · exact hd.1 hm
    · exact hu u (.inr hm) hc

theorem limit_fillFrom (c : Channel) (line : String) (i count : Nat) :
    (fillFrom c line i count).1.limit = c.limit := by
  induction count generalizing c i with
  | zero => rfl
  | succ count ih =>
    simp only [fillFrom]
    split
    · rfl
    · rename_i c' first hw
      obtain ⟨-, ha⟩ := tryWrite_eq_some hw
      have hl := limit_accept c (line ++ Decimal.natText i)
      rw [← ha] at hl
      exact (ih c' (i + 1)).trans hl

theorem limit_perform (d : ChannelDesk) (t : Nat) (call : Call) :
    (d.perform t call).1.channel.limit = d.channel.limit := by
  have hwrite {line : String} {c : Channel} {served : List Served}
      (hw : d.channel.tryWrite line = some (c, served)) : c.limit = d.channel.limit := by
    obtain ⟨-, ha⟩ := tryWrite_eq_some hw
    have hl := limit_accept d.channel line
    rwa [← ha] at hl
  cases call with
  | write line token =>
    simp only [perform, write]
    repeat' split
    all_goals first | rfl | exact hwrite ‹_›
  | tryWrite line =>
    simp only [perform]
    split
    · exact hwrite ‹_›
    · rfl
  | fill line count => exact limit_fillFrom d.channel line 0 count
  | read token onCancel =>
    simp only [perform, read]
    repeat' split
    all_goals first | rfl | exact limit_take? ‹_›
  | tryRead =>
    simp only [perform]
    split
    · exact limit_take? ‹_›
    · rfl
  | clear => rfl
  | cancel token =>
    simp only [perform, cancel]
    split <;> rfl

theorem limit_run (d : ChannelDesk) (l : Ledger) (calls : List (Nat × Call)) :
    (run d l calls).1.channel.limit = d.channel.limit := by
  induction calls generalizing d l with
  | nil => rfl
  | cons head calls ih => exact (ih _ _).trans (limit_perform d head.1 head.2)

theorem agrees_empty (capacity : Nat) (whenFull : FullPolicy) :
    Agrees {} (ofCapacity capacity whenFull) [] := by
  refine ⟨sound_ofCapacity capacity whenFull, rfl, rfl, rfl, .nil, ?_, .nil, ?_⟩ <;>
    simp [readerTickets, writerTickets, ofCapacity]

/-- For every sequence of calls: the accepted lines are those removed, in the order of their removal,
and then the buffered ones, and a read gets at most one line. The buffer keeps to its capacity; a write
waits only while it is full, a read only while it is empty. The writes that stand, in the order of
their calls, are the accepted ones and then those that wait, so that none overtakes another. -/
theorem lines_leave_in_call_order (capacity : Nat) (whenFull : FullPolicy)
    (calls : List (Nat × Call)) (distinct : (calls.map Prod.fst).Nodup) :
    let c := (run { channel := ofCapacity capacity whenFull } {} calls).1.channel
    let l := (run { channel := ofCapacity capacity whenFull } {} calls).2
    l.accepted.map Prod.snd = l.removed.map Removal.line ++ c.lines ∧
    (l.removed.filterMap Removal.reader?).Nodup ∧
    c.lines.length ≤ max capacity 1 ∧
    (c.writers ≠ [] → c.lines.length = max capacity 1) ∧
    (c.readers ≠ [] → c.lines = []) ∧
    (c.writers = [] ∨ c.readers = []) ∧
    l.asking = c.readers.map (·.ticket) ∧
    l.standing = l.accepted ++ c.writers.map (fun w => (w.ticket, w.line)) ∧
    l.standing.map Prod.snd = l.removed.map Removal.line ++ c.lines ++ c.writers.map (·.line) := by
  intro c l
  obtain ⟨used, h⟩ := (agrees_empty capacity whenFull).run
    (d := { channel := ofCapacity capacity whenFull }) calls distinct (by simp)
  have hlimit : c.limit = max capacity 1 := limit_run _ _ calls
  have hbound := h.sound.bounded
  have hfull := h.sound.full
  have horder := h.order
  refine ⟨h.lines, (List.nodup_append.mp h.tickets.once).1, hlimit ▸ hbound, hlimit ▸ hfull, h.sound.empty,
    ?_, h.asking, horder, ?_⟩
  · by_cases hr : c.readers = []
    · exact .inr hr
    · exact .inl (h.sound.no_writers hr)
  · rw [horder, List.map_append, h.lines]
    simp [blockedWrites, Function.comp_def, c, l]

/-- A write that waited is accepted before a later one, which found the channel full again. -/
theorem lines_leave_in_call_order_waiting_write :
    let calls := [(0, Call.write "a" none), (1, .write "b" none), (2, .tryWrite "c"),
      (3, .read none .report), (4, .write "d" (some 7)), (5, .tryRead), (6, .cancel 7)]
    let r := run { channel := ofCapacity 1 .block } {} calls
    (calls.map Prod.fst).Nodup ∧
    r.2.standing.map Prod.snd =
      r.2.removed.map Removal.line ++ r.1.channel.lines ++ r.1.channel.writers.map (·.line) ∧
    r.2.removed = [.read 3 "a", .read 5 "b"] ∧ r.1.channel.lines = ["d"] := by
  refine ⟨by decide, ?_, by decide, by decide⟩
  exact (lines_leave_in_call_order 1 .block _ (by decide)).2.2.2.2.2.2.2.2

end Conduit.ChannelDesk

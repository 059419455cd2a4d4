import Conduit.Proofs.Channel.Calls
import Conduit.Proofs.Channel.Erasure

/-!
Cancelling a token. The blocked calls that hold it are answered and leave the queues, and nothing else
moves; after that a call with the token is answered before it looks at the channel.
-/
namespace Conduit.ChannelDesk
open Channel
variable {d : ChannelDesk} {l : Ledger} {t k token : Nat} {used : List Nat}
  {calls before later : List (Nat × Call)}

/-! Any number of calls -/

theorem run_append (d : ChannelDesk) (l : Ledger) (calls later : List (Nat × Call)) :
    run d l (calls ++ later) = run (run d l calls).1 (run d l calls).2 later := by
  induction calls generalizing d l with
  | nil => rfl
  | cons head calls ih => exact ih _ _

theorem Rooted.run (h : Rooted d before) (distinct : ((before ++ calls).map Prod.fst).Nodup)
    (l : Ledger) : Rooted (run d l calls).1 (before ++ calls) := by
  induction calls generalizing d before l with
  | nil => rwa [List.append_nil]
  | cons head calls ih =>
    obtain ⟨t, call⟩ := head
    have hassoc : before ++ (t, call) :: calls = (before ++ [(t, call)]) ++ calls := by simp
    have ht : t ∉ before.map Prod.fst := by
      rw [List.map_append, List.nodup_append] at distinct
      exact fun hm => distinct.2.2 t hm t (by simp) rfl
    rw [hassoc] at distinct ⊢
    exact ih (h.shift ht (shift_perform d t call)) distinct _

theorem whenFull_run (d : ChannelDesk) (l : Ledger) (calls : List (Nat × Call)) :
    (run d l calls).1.channel.whenFull = d.channel.whenFull := by
  induction calls generalizing d l with
  | nil => rfl
  | cons head calls ih => exact (ih _ _).trans (shift_perform d head.1 head.2).whenFull

theorem keeps_cancelled_run (d : ChannelDesk) (l : Ledger) (calls : List (Nat × Call)) :
    d.cancelled ⊆ (run d l calls).1.cancelled := by
  induction calls generalizing d l with
  | nil => exact fun _ h => h
  | cons head calls ih =>
    exact fun _ h => ih _ _ ((shift_perform d head.1 head.2).keeps_cancelled h)

theorem fst_of_mem_acceptedNow {call : Call} {reply : Option Reply} {w : Nat × String}
    (h : w ∈ acceptedNow t call reply) : w.1 = t := by
  unfold acceptedNow at h
  split at h
  · rw [List.mem_singleton.mp h]
  · rw [List.mem_singleton.mp h]
  · obtain ⟨i, -, rfl⟩ := List.mem_map.mp h
    rfl
  · cases h

theorem fst_of_mem_blockedNow {call : Call} {reply : Option Reply} {w : Nat × String}
    (h : w ∈ blockedNow t call reply) : w.1 = t := by
  unfold blockedNow at h
  split at h
  · rw [List.mem_singleton.mp h]
  · cases h

theorem standing_enter {call : Call} {w : Nat × String} (h : w ∈ (l.enter d t call).standing) :
    w ∈ l.standing ∨ w.1 = t := by
  have hm := (List.mem_filter.mp h).1
  rcases List.mem_append.mp hm with hm | hm
  · exact (List.mem_append.mp hm).imp_right fst_of_mem_acceptedNow
  · exact .inr (fst_of_mem_blockedNow hm)

theorem standing_run {w : Nat × String} (h : w ∈ (run d l calls).2.standing) :
    w ∈ l.standing ∨ w.1 ∈ calls.map Prod.fst := by
  induction calls generalizing d l with
  | nil => exact .inl h
  | cons head calls ih =>
    rcases ih h with h | h
    · exact (standing_enter h).imp_right fun he => by simp [he]
    · exact .inr (List.mem_cons_of_mem _ h)

/-! The cancellation -/

theorem completed_cancel (h : Rooted d calls) (token : Nat) :
    (d.cancel token).2.completed =
      calledOffReplies d.channel token fun r => cancelReply (d.onCancelOf r.ticket) := by
  unfold cancel
  split
  · rw [calledOffReplies, h.no_readers ‹_›, h.no_writers ‹_›]
    rfl
  · rfl

theorem channel_cancel (h : Rooted d calls) (token : Nat) :
    (d.cancel token).1.channel = d.channel.abandon token := by
  unfold cancel
  split
  · have hr := List.filter_eq_nil_iff.mp (h.no_readers ‹_›)
    have hw := List.filter_eq_nil_iff.mp (h.no_writers ‹_›)
    have hr' : d.channel.readers.filter (fun r => r.token ≠ some token) = d.channel.readers :=
      List.filter_eq_self.mpr fun r hm => by simpa using hr r hm
    have hw' : d.channel.writers.filter (fun w => w.token ≠ some token) = d.channel.writers :=
      List.filter_eq_self.mpr fun w hm => by simpa using hw w hm
    rw [abandon, hr', hw']
  · rfl

theorem mem_cancelled_cancel (d : ChannelDesk) (token : Nat) :
    token ∈ (d.cancel token).1.cancelled := by
  unfold cancel
  split
  · exact List.contains_iff_mem.mp ‹_›
  · exact List.mem_cons_self

theorem eq_of_ticket (distinct : (calls.map Prod.fst).Nodup) {a b : Call} (ha : (t, a) ∈ calls)
    (hb : (t, b) ∈ calls) : a = b :=
  congrArg Prod.snd (List.inj_on_of_nodup_map distinct ha hb rfl)

/-- The calls that a cancellation answers are the blocked reads and writes that were made with the
token. -/
theorem mem_completed_cancel (h : Rooted d calls) (distinct : (calls.map Prod.fst).Nodup)
    (token k : Nat) (reply : Reply) :
    (k, reply) ∈ (d.cancel token).2.completed ↔
      (∃ onCancel, (k, .read (some token) onCancel) ∈ calls ∧ k ∈ readerTickets d.channel ∧
        reply = cancelReply onCancel) ∨
      (∃ line, (k, .write line (some token)) ∈ calls ∧ k ∈ writerTickets d.channel ∧
        reply = .cancelled) := by
  rw [completed_cancel h, calledOffReplies, List.mem_append]
  refine or_congr (Iff.intro ?_ ?_) (Iff.intro ?_ ?_)
  · intro hm
    obtain ⟨r, hr, he⟩ := List.mem_map.mp hm
    obtain ⟨rfl, rfl⟩ := Prod.mk.inj he
    obtain ⟨hr, hk⟩ := List.mem_filter.mp hr
    obtain ⟨-, onCancel, hl, hc⟩ := h.readers r hr
    rw [of_decide_eq_true hk] at hc
    exact ⟨onCancel, hc, List.mem_map_of_mem hr, by rw [onCancelOf, hl]; rfl⟩
  · rintro ⟨onCancel, hm, hk, hr⟩
    obtain ⟨r, hm', rfl⟩ := List.mem_map.mp hk
    obtain ⟨-, onCancel', hl, hc⟩ := h.readers r hm'
    obtain ⟨ht, rfl⟩ := Call.read.inj (eq_of_ticket distinct hc hm)
    have ho : d.onCancelOf r.ticket = onCancel' := by rw [onCancelOf, hl]; rfl
    refine List.mem_map.mpr ⟨r, List.mem_filter.mpr ⟨hm', decide_eq_true ht⟩, ?_⟩
    rw [ho, hr]
  · intro hm
    obtain ⟨w, hw, he⟩ := List.mem_map.mp hm
    obtain ⟨rfl, rfl⟩ := Prod.mk.inj he
    obtain ⟨hw, hk⟩ := List.mem_filter.mp hw
    have hc := (h.writers w hw).2
    rw [of_decide_eq_true hk] at hc
    exact ⟨w.line, hc, List.mem_map_of_mem hw, rfl⟩
  · rintro ⟨line, hm, hk, hr⟩
    obtain ⟨w, hm', rfl⟩ := List.mem_map.mp hk
    obtain ⟨-, ht⟩ := Call.write.inj (eq_of_ticket distinct (h.writers w hm').2 hm)
    exact List.mem_map.mpr ⟨w, List.mem_filter.mpr ⟨hm', decide_eq_true ht⟩, by rw [hr]⟩

theorem nodup_completed_cancel (h : Rooted d calls) (ha : Agrees l d.channel used) (token : Nat) :
    ((d.cancel token).2.completed.map Prod.fst).Nodup := by
  rw [completed_cancel h, calledOffReplies, List.map_append, List.map_map, List.map_map]
  exact ha.tickets.blocked.sublist
    ((List.filter_sublist.map Reader.ticket).append (List.filter_sublist.map Writer.ticket))

theorem not_standing_cancel (h : Rooted d calls) {w : Writer} (hw : w ∈ d.channel.writers)
    (hk : w.token = some token) (l : Ledger) (t : Nat) :
    w.ticket ∉ (l.enter d t (.cancel token)).standing.map Prod.fst := by
  intro hm
  obtain ⟨p, hp, he⟩ := List.mem_map.mp hm
  have hn := of_decide_eq_true (List.mem_filter.mp hp).2
  refine hn ?_
  rw [he]
  change _ ∈ (d.cancel token).2.completed
  rw [completed_cancel h]
  exact List.mem_append_right _
    (List.mem_map.mpr ⟨w, List.mem_filter.mpr ⟨hw, decide_eq_true hk⟩, rfl⟩)

theorem not_standing_later (h : Rooted d calls)
    (distinct : ((calls ++ (t, .cancel token) :: later).map Prod.fst).Nodup) {w : Writer}
    (hw : w ∈ d.channel.writers) (hk : w.token = some token) (l : Ledger) :
    w.ticket ∉ (run (d.cancel token).1 (l.enter d t (.cancel token)) later).2.standing.map
      Prod.fst := by
  intro hm
  obtain ⟨p, hp, he⟩ := List.mem_map.mp hm
  rcases standing_run hp with hp | hp
  · exact not_standing_cancel h hw hk l t (List.mem_map.mpr ⟨p, hp, he⟩)
  · have hc := List.mem_map_of_mem (f := Prod.fst) (h.writers w hw).2
    rw [List.map_append, List.nodup_append] at distinct
    exact distinct.2.2 _ hc _ (List.mem_cons_of_mem _ hp) he.symm

/-! Calls with a token that has been cancelled -/

theorem calledOff_of_mem (h : token ∈ d.cancelled) : d.calledOff (some token) = true := by
  simpa [calledOff, isCancelled] using h

theorem perform_read_calledOff (h : token ∈ d.cancelled) (t : Nat) (onCancel : OnCancel) :
    d.perform t (.read (some token) onCancel) =
      (d, ⟨some (cancelReply onCancel), [], cancelLogs .host onCancel⟩) := by
  simp [perform, read, calledOff_of_mem h]

theorem perform_write_calledOff (h : token ∈ d.cancelled) (hb : d.channel.whenFull = .block)
    (t : Nat) (line : String) :
    d.perform t (.write line (some token)) =
      (d, ⟨some .cancelled, [], [entry .host .debug "input write abandoned: already cancelled"]⟩) := by
  simp [perform, write, hb, calledOff_of_mem h]

theorem perform_write_drop (hd : d.channel.whenFull = .drop) (t : Nat) (line : String)
    (holder : Option Nat) : d.perform t (.write line holder) = d.perform t (.write line none) := by
  simp [perform, write, hd]

theorem cancel_mem_of_without {calls others : List (Nat × Call)}
    (he : others.map (fun p => (p.1, p.2.without token)) =
      calls.map fun p => (p.1, p.2.without token))
    (h : (k, .cancel token) ∈ others) : (k, .cancel token) ∈ calls := by
  have hm := List.mem_map_of_mem (f := fun p : Nat × Call => (p.1, p.2.without token)) h
  rw [he] at hm
  obtain ⟨⟨t, call⟩, hc, he⟩ := List.mem_map.mp hm
  obtain ⟨rfl, he⟩ := Prod.mk.inj he
  cases call <;> cases he
  exact hc

theorem answers_eq_of_without {others plain : List (Nat × Call)} (hd : d.without token = d)
    (hout : token ∉ d.cancelled) (hn : ∀ k, (k, .cancel token) ∉ others)
    (he : plain.map (fun p => (p.1, p.2.without token)) =
      others.map fun p => (p.1, p.2.without token)) : d.answers plain = d.answers others := by
  have ho := answers_without hout others hn
  have hp := answers_without hout plain fun k hk => hn k (cancel_mem_of_without he hk)
  rw [hd] at ho hp
  rw [← hp, he, ho]

/-- Cancelling a token, at whatever point of a sequence of calls: each blocked call that holds it is
answered, once, as it wants to be told; the other blocked calls keep their order and the lines are left
alone, and a write that was called off is never accepted, so that no one gets its line. From then on a
read with the token, and under the blocking policy a write with it, is answered at once and changes
nothing, while under the dropping policy no write looks at its token. Calls that never cancel the token
are answered the same whether they are made with it or without any. -/
theorem cancel_ends_its_holders_only (capacity : Nat) (whenFull : FullPolicy)
    (calls later : List (Nat × Call)) (ticket token : Nat)
    (distinct : ((calls ++ (ticket, .cancel token) :: later).map Prod.fst).Nodup) :
    let new : ChannelDesk := { channel := ofCapacity capacity whenFull }
    let d := (run new {} calls).1
    let answer := (d.perform ticket (.cancel token)).2
    let final := run new {} (calls ++ (ticket, .cancel token) :: later)
    answer.reply = some .done ∧
    (∀ k reply, (k, reply) ∈ answer.completed ↔
      (∃ onCancel, (k, .read (some token) onCancel) ∈ calls ∧ k ∈ readerTickets d.channel ∧
        reply = cancelReply onCancel) ∨
      (∃ line, (k, .write line (some token)) ∈ calls ∧ k ∈ writerTickets d.channel ∧
        reply = .cancelled)) ∧
    (answer.completed.map Prod.fst).Nodup ∧
    (d.perform ticket (.cancel token)).1.channel =
      { d.channel with
        readers := d.channel.readers.filter fun r => r.token ≠ some token
        writers := d.channel.writers.filter fun w => w.token ≠ some token } ∧
    final.2.accepted.map Prod.snd = final.2.removed.map Removal.line ++ final.1.channel.lines ∧
    (∀ w ∈ d.channel.writers, w.token = some token →
      w.ticket ∉ final.2.accepted.map Prod.fst) ∧
    (∀ k onCancel, final.1.perform k (.read (some token) onCancel) =
      (final.1, ⟨some (cancelReply onCancel), [], cancelLogs .host onCancel⟩)) ∧
    (whenFull = .block → ∀ k line, final.1.perform k (.write line (some token)) =
      (final.1, ⟨some .cancelled, [],
        [entry .host .debug "input write abandoned: already cancelled"]⟩)) ∧
    (whenFull = .drop → ∀ k line holder,
      final.1.perform k (.write line holder) = final.1.perform k (.write line none)) ∧
    ∀ others plain, (∀ k, (k, .cancel token) ∉ others) →
      plain.map (fun p => (p.1, p.2.without token)) =
        others.map (fun p => (p.1, p.2.without token)) →
      new.answers plain = new.answers others := by
  intro new d answer final
  have hbefore : (calls.map Prod.fst).Nodup :=
    distinct.sublist ((List.sublist_append_left _ _).map Prod.fst)
  obtain ⟨used, ha⟩ := (agrees_empty capacity whenFull).run (d := new) calls hbefore (by simp)
  obtain ⟨used', haf⟩ := (agrees_empty capacity whenFull).run (d := new) _ distinct (by simp)
  have hroot : Rooted d calls := (rooted_new capacity whenFull).run hbefore {}
  have hpolicy : final.1.channel.whenFull = whenFull := whenFull_run new {} _
  have hfinal : final = run (d.cancel token).1 ((run new {} calls).2.enter d ticket (.cancel token))
      later := by
    simp only [final, run_append]
    rfl
  have hoff : token ∈ final.1.cancelled := by
    rw [hfinal]
    exact keeps_cancelled_run _ _ _ (mem_cancelled_cancel d token)
  refine ⟨?_, mem_completed_cancel hroot hbefore token, nodup_completed_cancel hroot ha token,
    channel_cancel hroot token, haf.lines, ?_, perform_read_calledOff hoff,
    fun hb => perform_write_calledOff hoff (hpolicy.trans hb),
    fun hd => perform_write_drop (hpolicy.trans hd),
    fun others plain hn he => answers_eq_of_without rfl List.not_mem_nil hn he⟩
  · change (d.cancel token).2.reply = some .done
    unfold cancel
    split <;> rfl
  · intro w hw hk hm
    have hs : w.ticket ∈ final.2.standing.map Prod.fst := by
      rw [haf.order, List.map_append]
      exact List.mem_append_left _ hm
    rw [hfinal] at hs
    exact not_standing_later hroot distinct hw hk _ hs

/-- Of three blocked writes the middle one is called off; the lines of the others come out in order. -/
theorem cancel_ends_its_holders_only_middle_write :
    let calls := [(0, Call.write "a" none), (1, .write "b" (some 8)), (2, .write "c" (some 7)),
      (3, .write "d" none)]
    let later := [(5, Call.tryRead), (6, .tryRead), (7, .read (some 8) .report)]
    let d := (run { channel := ofCapacity 1 .block } {} calls).1
    let final := run { channel := ofCapacity 1 .block } {} (calls ++ (4, .cancel 7) :: later)
    ((calls ++ (4, .cancel 7) :: later).map Prod.fst).Nodup ∧
    (2, Reply.cancelled) ∈ (d.perform 4 (.cancel 7)).2.completed ∧
    2 ∉ final.2.accepted.map Prod.fst ∧
    final.2.removed = [.read 5 "a", .read 6 "b", .read 7 "d"] ∧
    (final.1.perform 8 (.read (some 7) .emptyLine)).2.reply = some (.line "") := by
  intro calls later d final
  have hd : ((calls ++ (4, .cancel 7) :: later).map Prod.fst).Nodup := by decide
  obtain ⟨-, hdone, -, -, -, hlost, hread, -⟩ :=
    cancel_ends_its_holders_only 1 .block calls later 4 7 hd
  refine ⟨hd, ?_, ?_, by decide, ?_⟩
  · exact (hdone 2 .cancelled).mpr (.inr ⟨"c", by decide, by decide, rfl⟩)
  · exact hlost ⟨2, some 7, "c"⟩ (by decide) rfl
  · rw [hread]
    rfl

end Conduit.ChannelDesk

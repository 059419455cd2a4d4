import Conduit.Channel.Desk
import Conduit.Proofs.Channel.Basic

/-!
The queues of blocked calls. A call joins a queue when it blocks, with its own ticket and token, and
leaves it when it is served or called off; so each blocked call is one that was made, and none holds a
cancelled token.
-/
namespace Conduit

namespace Channel
variable {c c' : Channel} {line : String} {served : List Served}

structure Shrinks (c c' : Channel) : Prop where
  readers : c'.readers ⊆ c.readers
  writers : c'.writers ⊆ c.writers
  whenFull : c'.whenFull = c.whenFull

namespace Shrinks

theorem refl (c : Channel) : c.Shrinks c := ⟨fun _ h => h, fun _ h => h, rfl⟩

theorem trans {c'' : Channel} (h : c.Shrinks c') (h' : c'.Shrinks c'') : c.Shrinks c'' :=
  ⟨fun _ hr => h.readers (h'.readers hr), fun _ hw => h.writers (h'.writers hw),
    h'.whenFull.trans h.whenFull⟩

theorem accept (c : Channel) (line : String) : c.Shrinks (c.accept line).1 := by
  cases hr : c.readers with
  | nil => rw [accept_of_no_readers hr]; exact ⟨fun _ h => h, fun _ h => h, rfl⟩
  | cons r rs =>
    rw [accept_of_readers hr]
    exact ⟨fun x h => hr ▸ List.mem_cons_of_mem r h, fun _ h => h, rfl⟩

theorem tryWrite (h : c.tryWrite line = some (c', served)) : c.Shrinks c' := by
  have ha := accept c line
  rwa [← (tryWrite_eq_some h).2] at ha

theorem take? (h : c.take? = some (line, c', served)) : c.Shrinks c' :=
  ⟨fun _ hr => readers_take? h ▸ hr, writers_take? h, whenFull_take? h⟩

theorem clear (c : Channel) : c.Shrinks c.clear.1 :=
  ⟨fun _ h => h, List.drop_subset _ _, rfl⟩

end Shrinks

end Channel

namespace ChannelDesk
open Channel
variable {d d' : ChannelDesk} {t token : Nat} {call : Call} {calls : List (Nat × Call)}

theorem shrinks_fillFrom (c : Channel) (line : String) (i count : Nat) :
    c.Shrinks (fillFrom c line i count).1 := by
  induction count generalizing c i with
  | zero => exact .refl c
  | succ count ih =>
    simp only [fillFrom]
    split
    · exact .refl c
    · rename_i hw
      exact (Shrinks.tryWrite hw).trans (ih _ _)

inductive Shift (d : ChannelDesk) (t : Nat) : Call → ChannelDesk → Prop where
  | served {call : Call} {c : Channel} (h : d.channel.Shrinks c) : Shift d t call { d with channel := c }
  | readBlocked (holder : Option Nat) (onCancel : OnCancel) (h : d.calledOff holder = false) :
      Shift d t (.read holder onCancel)
        { d with
          channel := d.channel.enqueueReader ⟨t, holder⟩
          reads := d.reads ++ [(t, onCancel)] }
  | writeBlocked (line : String) (holder : Option Nat) (h : d.calledOff holder = false) :
      Shift d t (.write line holder)
        { d with channel := d.channel.enqueueWriter ⟨t, holder, line⟩ }
  | cancelled (token : Nat) :
      Shift d t (.cancel token)
        { d with channel := d.channel.abandon token, cancelled := token :: d.cancelled }

theorem Shift.idle (d : ChannelDesk) (t : Nat) (call : Call) : Shift d t call d :=
  .served (.refl d.channel)

theorem shift_write (d : ChannelDesk) (t : Nat) (line : String) (holder : Option Nat) :
    Shift d t (.write line holder) (d.write t line holder).1 := by
  unfold write
  cases hw : d.channel.tryWrite line with
  | some p =>
    have hs : Shift d t (.write line holder) { d with channel := p.1 } := .served (.tryWrite hw)
    split
    · exact hs
    · split
      · exact .idle d t _
      · exact hs
  | none =>
    split
    · exact .idle d t _
    · split
      · exact .idle d t _
      · exact .writeBlocked line holder (Bool.eq_false_iff.mpr ‹_›)

theorem shift_read (d : ChannelDesk) (t : Nat) (holder : Option Nat) (onCancel : OnCancel) :
    Shift d t (.read holder onCancel) (d.read t holder onCancel).1 := by
  unfold read
  split
  · exact .idle d t _
  · split
    · exact .served (.take? ‹_›)
    · exact .readBlocked holder onCancel (Bool.eq_false_iff.mpr ‹_›)

theorem shift_perform (d : ChannelDesk) (t : Nat) (call : Call) :
    Shift d t call (d.perform t call).1 := by
  cases call with
  | write line holder => exact shift_write d t line holder
  | read holder onCancel => exact shift_read d t holder onCancel
  | clear => exact .served (.clear d.channel)
  | fill line count => exact .served (shrinks_fillFrom d.channel line 0 count)
  | tryWrite line =>
    simp only [perform]
    split
    · exact .served (.tryWrite ‹_›)
    · exact .idle d t _
  | tryRead =>
    simp only [perform]
    split
    · exact .served (.take? ‹_›)
    · exact .idle d t _
  | cancel token =>
    simp only [perform, cancel]
    split
    · exact .idle d t _
    · exact .cancelled token

namespace Shift

theorem whenFull (h : Shift d t call d') : d'.channel.whenFull = d.channel.whenFull := by
  cases h with
  | served h => exact h.whenFull
  | readBlocked | writeBlocked | cancelled => rfl

theorem keeps_cancelled (h : Shift d t call d') : d.cancelled ⊆ d'.cancelled := by
  cases h with
  | cancelled token => exact List.subset_cons_self token d.cancelled
  | served | readBlocked | writeBlocked => exact fun _ hk => hk

theorem not_cancelled (h : Shift d t call d') (hk : token ∉ d.cancelled)
    (hc : call ≠ .cancel token) : token ∉ d'.cancelled := by
  cases h with
  | cancelled other =>
    refine List.not_mem_cons_of_ne_of_not_mem (fun he => ?_) hk
    rw [he] at hc
    exact hc rfl
  | served | readBlocked | writeBlocked => exact hk

end Shift

structure Rooted (d : ChannelDesk) (calls : List (Nat × Call)) : Prop where
  readers : ∀ r ∈ d.channel.readers, d.calledOff r.token = false ∧
    ∃ onCancel, d.reads.lookup r.ticket = some onCancel ∧ (r.ticket, .read r.token onCancel) ∈ calls
  writers : ∀ w ∈ d.channel.writers, d.calledOff w.token = false ∧
    (w.ticket, .write w.line w.token) ∈ calls
  reads : ∀ p ∈ d.reads, p.1 ∈ calls.map Prod.fst

namespace Rooted

theorem mono (h : Rooted d calls) (call : Nat × Call) : Rooted d (calls ++ [call]) where
  readers := fun r hr => by
    obtain ⟨hc, onCancel, hl, hm⟩ := h.readers r hr
    exact ⟨hc, onCancel, hl, List.mem_append_left _ hm⟩
  writers := fun w hw => ⟨(h.writers w hw).1, List.mem_append_left _ (h.writers w hw).2⟩
  reads := fun p hp => by
    rw [List.map_append]
    exact List.mem_append_left _ (h.reads p hp)

theorem shrink (h : Rooted d calls) {c : Channel} (hs : d.channel.Shrinks c) :
    Rooted { d with channel := c } calls :=
  ⟨fun r hr => h.readers r (hs.readers hr), fun w hw => h.writers w (hs.writers hw), h.reads⟩

theorem blockRead (h : Rooted d calls) (ht : t ∉ calls.map Prod.fst) {holder : Option Nat}
    (hc : d.calledOff holder = false) (onCancel : OnCancel) :
    Rooted
      { d with
        channel := d.channel.enqueueReader ⟨t, holder⟩
        reads := d.reads ++ [(t, onCancel)] } (calls ++ [(t, .read holder onCancel)]) where
  readers := fun r hr => by
    rcases List.mem_append.mp hr with hr | hr
    · obtain ⟨hc, onCancel', hl, hm⟩ := h.readers r hr
      refine ⟨hc, onCancel', ?_, List.mem_append_left _ hm⟩
      rw [List.lookup_append, hl, Option.some_or]
    · obtain rfl := List.mem_singleton.mp hr
      have hnone : d.reads.lookup t = none := by
        refine List.lookup_eq_none_iff.mpr fun p hp => bne_iff_ne.mpr fun he => ht ?_
        exact he ▸ h.reads p hp
      refine ⟨hc, onCancel, ?_, by simp⟩
      rw [List.lookup_append, hnone, Option.none_or]
      simp
  writers := fun w hw => ⟨(h.writers w hw).1, List.mem_append_left _ (h.writers w hw).2⟩
  reads := fun p hp => by
    rw [List.map_append]
    rcases List.mem_append.mp hp with hp | hp
    · exact List.mem_append_left _ (h.reads p hp)
    · obtain rfl := List.mem_singleton.mp hp
      exact List.mem_append_right _ (by simp)

theorem blockWrite (h : Rooted d calls) {holder : Option Nat} (hc : d.calledOff holder = false)
    (t : Nat) (line : String) :
    Rooted { d with channel := d.channel.enqueueWriter ⟨t, holder, line⟩ }
      (calls ++ [(t, .write line holder)]) where
  readers := (h.mono _).readers
  writers := fun w hw => by
    rcases List.mem_append.mp hw with hw | hw
    · exact (h.mono _).writers w hw
    · obtain rfl := List.mem_singleton.mp hw
      exact ⟨hc, by simp⟩
  reads := (h.mono _).reads

theorem calledOff_cons {holder : Option Nat} (hc : d.calledOff holder = false)
    (hn : holder ≠ some token) :
    calledOff { d with cancelled := token :: d.cancelled } holder = false := by
  cases holder with
  | none => rfl
  | some n =>
    have hne : n ≠ token := fun he => hn (he ▸ rfl)
    simpa [calledOff, isCancelled, hne] using hc

theorem abandon (h : Rooted d calls) (token : Nat) :
    Rooted { d with channel := d.channel.abandon token, cancelled := token :: d.cancelled } calls where
  readers := fun r hr => by
    obtain ⟨hr, hn⟩ := List.mem_filter.mp hr
    obtain ⟨hc, hl⟩ := h.readers r hr
    exact ⟨calledOff_cons hc (of_decide_eq_true hn), hl⟩
  writers := fun w hw => by
    obtain ⟨hw, hn⟩ := List.mem_filter.mp hw
    obtain ⟨hc, hl⟩ := h.writers w hw
    exact ⟨calledOff_cons hc (of_decide_eq_true hn), hl⟩
  reads := h.reads

theorem shift (h : Rooted d calls) (ht : t ∉ calls.map Prod.fst) (hs : Shift d t call d') :
    Rooted d' (calls ++ [(t, call)]) := by
  cases hs with
  | served hc => exact (h.shrink hc).mono _
  | readBlocked holder onCancel hc => exact h.blockRead ht hc onCancel
  | writeBlocked line holder hc => exact h.blockWrite hc t line
  | cancelled token => exact (h.abandon token).mono _

theorem no_readers (h : Rooted d calls) (hc : d.isCancelled token = true) :
    d.channel.readersOf token = [] := by
  refine List.filter_eq_nil_iff.mpr fun r hr hk => ?_
  have hoff := (h.readers r hr).1
  rw [of_decide_eq_true hk] at hoff
  exact absurd hc (Bool.eq_false_iff.mp hoff)

theorem no_writers (h : Rooted d calls) (hc : d.isCancelled token = true) :
    d.channel.writersOf token = [] := by
  refine List.filter_eq_nil_iff.mpr fun w hw hk => ?_
  have hoff := (h.writers w hw).1
  rw [of_decide_eq_true hk] at hoff
  exact absurd hc (Bool.eq_false_iff.mp hoff)

end Rooted

theorem rooted_new (capacity : Nat) (whenFull : FullPolicy) :
    Rooted { channel := ofCapacity capacity whenFull } [] :=
  ⟨fun _ h => absurd h (by simp [ofCapacity]), fun _ h => absurd h (by simp [ofCapacity]),
    fun _ h => absurd h (by simp)⟩

end ChannelDesk

end Conduit

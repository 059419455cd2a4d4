import Conduit.Proofs.Channel.Queues

/-!
A token that is never cancelled is as good as none. Taking it from every blocked call and from every
call to come changes no answer of the channel.
-/
namespace Conduit

namespace Channel

def Reader.without (token : Nat) (r : Reader) : Reader :=
  { r with token := r.token.filter (· ≠ token) }

def Writer.without (token : Nat) (w : Writer) : Writer :=
  { w with token := w.token.filter (· ≠ token) }

def Call.without (token : Nat) : Call → Call
  | .write line holder => .write line (holder.filter (· ≠ token))
  | .read holder onCancel => .read (holder.filter (· ≠ token)) onCancel
  | call => call

def without (token : Nat) (c : Channel) : Channel :=
  { c with
    readers := c.readers.map (·.without token)
    writers := c.writers.map (·.without token) }

variable {c c' : Channel} {token other : Nat} {line : String} {served : List Served}

theorem filter_eq_some (h : other ≠ token) (holder : Option Nat) :
    holder.filter (· ≠ token) = some other ↔ holder = some other := by
  cases holder with
  | none => simp
  | some n =>
    simp only [Option.filter_some, Option.some.injEq]
    grind

theorem accept_without (token : Nat) (c : Channel) (line : String) :
    (c.without token).accept line = ((c.accept line).1.without token, (c.accept line).2) := by
  unfold accept without
  cases c.readers <;> rfl

theorem tryWrite_without (token : Nat) (c : Channel) (line : String) :
    (c.without token).tryWrite line =
      (c.tryWrite line).map fun p => (p.1.without token, p.2) := by
  have hf : (c.without token).isFull = c.isFull := rfl
  unfold tryWrite
  rw [hf, accept_without]
  cases c.isFull <;> rfl

theorem take?_without (token : Nat) (c : Channel) :
    (c.without token).take? = c.take?.map fun p => (p.1, p.2.1.without token, p.2.2) := by
  unfold take? without
  cases c.lines <;> cases c.writers <;> rfl

theorem clear_without (token : Nat) (c : Channel) :
    (c.without token).clear = (c.clear.1.without token, c.clear.2) := by
  simp [clear, without, ← List.map_take, ← List.map_drop, Function.comp_def, Writer.without]

theorem enqueueReader_without (token : Nat) (c : Channel) (r : Reader) :
    (c.without token).enqueueReader (r.without token) = (c.enqueueReader r).without token := by
  simp [enqueueReader, without]

theorem enqueueWriter_without (token : Nat) (c : Channel) (w : Writer) :
    (c.without token).enqueueWriter (w.without token) = (c.enqueueWriter w).without token := by
  simp [enqueueWriter, without]

theorem readersOf_without (h : other ≠ token) (c : Channel) :
    (c.without token).readersOf other = (c.readersOf other).map (·.without token) := by
  simp only [readersOf, without, List.filter_map, Function.comp_def, Reader.without,
    filter_eq_some h]

theorem writersOf_without (h : other ≠ token) (c : Channel) :
    (c.without token).writersOf other = (c.writersOf other).map (·.without token) := by
  simp only [writersOf, without, List.filter_map, Function.comp_def, Writer.without,
    filter_eq_some h]

theorem abandon_without (h : other ≠ token) (c : Channel) :
    (c.without token).abandon other = (c.abandon other).without token := by
  simp only [abandon, without, List.filter_map, Function.comp_def, Reader.without, Writer.without,
    ne_eq, filter_eq_some h]

end Channel

namespace ChannelDesk
open Channel

def without (token : Nat) (d : ChannelDesk) : ChannelDesk :=
  { d with channel := d.channel.without token }

def answers (d : ChannelDesk) : List (Nat × Call) → List Answer
  | [] => []
  | (ticket, call) :: calls =>
    (d.perform ticket call).2 :: answers (d.perform ticket call).1 calls

variable {d : ChannelDesk} {token other : Nat}

theorem calledOff_without (h : token ∉ d.cancelled) (holder : Option Nat) :
    d.calledOff (holder.filter (· ≠ token)) = d.calledOff holder := by
  cases holder with
  | none => rfl
  | some n =>
    by_cases hn : n = token
    · subst hn
      simp [calledOff, isCancelled, h]
    · simp [calledOff, hn]

theorem fillFrom_without (token : Nat) (c : Channel) (line : String) (i count : Nat) :
    fillFrom (c.without token) line i count =
      ((fillFrom c line i count).1.without token, (fillFrom c line i count).2) := by
  induction count generalizing c i with
  | zero => rfl
  | succ count ih =>
    simp only [fillFrom, tryWrite_without]
    cases c.tryWrite (line ++ Decimal.natText i) with
    | none => rfl
    | some p => simp [ih]

theorem cancel_without (h : other ≠ token) (d : ChannelDesk) :
    (d.without token).cancel other = ((d.cancel other).1.without token, (d.cancel other).2) := by
  have hc : (d.without token).isCancelled other = d.isCancelled other := rfl
  have ho (t : Nat) : (d.without token).onCancelOf t = d.onCancelOf t := rfl
  have hd : (d.without token).channel = d.channel.without token := rfl
  unfold cancel
  rw [hc]
  split
  · rfl
  · simp only [hd, ho, readersOf_without h, writersOf_without h, abandon_without h, List.map_map,
      List.flatMap_map, Function.comp_def, Reader.without, Writer.without]
    rfl

theorem write_without (h : token ∉ d.cancelled) (ticket : Nat) (line : String)
    (holder : Option Nat) :
    (d.without token).write ticket line (holder.filter (· ≠ token)) =
      ((d.write ticket line holder).1.without token, (d.write ticket line holder).2) := by
  have hc : (d.without token).calledOff (holder.filter (· ≠ token)) = d.calledOff holder :=
    calledOff_without h holder
  have hd : (d.without token).channel = d.channel.without token := rfl
  have hp : (d.channel.without token).whenFull = d.channel.whenFull := rfl
  unfold write
  rw [hc, hd, hp, tryWrite_without]
  cases d.channel.whenFull with
  | drop => cases d.channel.tryWrite line <;> rfl
  | block =>
    cases d.calledOff holder with
    | true => rfl
    | false =>
      cases d.channel.tryWrite line with
      | some p => rfl
      | none =>
        have hw := enqueueWriter_without token d.channel ⟨ticket, holder, line⟩
        exact congrArg (fun c => (({ d with channel := c } : ChannelDesk), Answer.mk none [] [])) hw

theorem read_without (h : token ∉ d.cancelled) (ticket : Nat) (holder : Option Nat)
    (onCancel : OnCancel) :
    (d.without token).read ticket (holder.filter (· ≠ token)) onCancel =
      ((d.read ticket holder onCancel).1.without token, (d.read ticket holder onCancel).2) := by
  have hc : (d.without token).calledOff (holder.filter (· ≠ token)) = d.calledOff holder :=
    calledOff_without h holder
  have hd : (d.without token).channel = d.channel.without token := rfl
  unfold read
  rw [hc, hd, take?_without]
  cases d.calledOff holder with
  | true => rfl
  | false =>
    cases d.channel.take? with
    | some p => rfl
    | none =>
      have hr := enqueueReader_without token d.channel ⟨ticket, holder⟩
      exact congrArg (fun c => (({ d with channel := c, reads := d.reads ++ [(ticket, onCancel)] } :
        ChannelDesk), Answer.mk none [] [])) hr

theorem perform_without (h : token ∉ d.cancelled) (ticket : Nat) {call : Call}
    (hc : call ≠ .cancel token) :
    (d.without token).perform ticket (call.without token) =
      ((d.perform ticket call).1.without token, (d.perform ticket call).2) := by
  have hd : (d.without token).channel = d.channel.without token := rfl
  cases call with
  | write line holder => exact write_without h ticket line holder
  | read holder onCancel => exact read_without h ticket holder onCancel
  | cancel other => exact cancel_without (fun he => hc (congrArg Call.cancel he)) d
  | tryWrite line =>
    simp only [perform, Call.without, hd, tryWrite_without]
    cases d.channel.tryWrite line <;> rfl
  | fill line count =>
    simp only [perform, Call.without, hd, fillFrom_without]
    rfl
  | tryRead =>
    simp only [perform, Call.without, hd, take?_without]
    cases d.channel.take? <;> rfl
  | clear =>
    simp only [perform, Call.without, hd, clear_without]
    rfl

theorem answers_without (h : token ∉ d.cancelled) (calls : List (Nat × Call))
    (hc : ∀ k, (k, .cancel token) ∉ calls) :
    (d.without token).answers (calls.map fun p => (p.1, p.2.without token)) = d.answers calls := by
  induction calls generalizing d with
  | nil => rfl
  | cons head calls ih =>
    obtain ⟨ticket, call⟩ := head
    have hn : call ≠ .cancel token := fun he => hc ticket (he ▸ List.mem_cons_self)
    have hp := perform_without h ticket hn
    have hk := (shift_perform d ticket call).not_cancelled h hn
    simp only [List.map_cons, answers, hp]
    rw [ih hk fun k hm => hc k (List.mem_cons_of_mem _ hm)]

end ChannelDesk

end Conduit

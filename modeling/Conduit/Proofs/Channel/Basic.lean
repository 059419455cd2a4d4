import Conduit.Channel.Basic
import Mathlib.Data.List.Basic

/-!
What every channel keeps, whatever is asked of it: it holds at most as many lines as its limit, a
write waits only while it is full and a read only while it is empty. No operation loses a line on its
way.
-/
namespace Conduit.Channel

structure Sound (c : Channel) : Prop where
  room : 0 < c.limit
  bounded : c.lines.length ≤ c.limit
  full : c.writers ≠ [] → c.lines.length = c.limit
  empty : c.readers ≠ [] → c.lines = []

def pending (c : Channel) : List String := c.lines ++ c.writers.map (·.line)

variable {c c' : Channel} {line : String} {served : List Served}

theorem isFull_eq_false : c.isFull = false ↔ c.lines.length < c.limit := by
  simp [isFull]

theorem Sound.no_writers (h : c.Sound) (hr : c.readers ≠ []) : c.writers = [] := by
  by_contra hw
  have hl := h.full hw
  have hp := h.room
  rw [h.empty hr, List.length_nil] at hl
  omega

theorem Sound.no_writers_of_room (h : c.Sound) (hf : c.isFull = false) : c.writers = [] := by
  by_contra hw
  have hl := h.full hw
  have hr := isFull_eq_false.mp hf
  omega

theorem Sound.no_readers_of_full (h : c.Sound) (hf : c.isFull = true) : c.readers = [] := by
  by_contra hr
  have hl := h.empty hr
  have hp := h.room
  simp only [isFull, hl, List.length_nil, decide_eq_true_eq] at hf
  omega

theorem sound_ofCapacity (capacity : Nat) (whenFull : FullPolicy) :
    (ofCapacity capacity whenFull).Sound := by
  refine ⟨?_, Nat.zero_le _, fun h => absurd rfl h, fun h => absurd rfl h⟩
  simp only [ofCapacity]
  omega

/-! Taking a line in -/

theorem accept_of_readers {r : Reader} {rs : List Reader} (h : c.readers = r :: rs) :
    c.accept line = ({ c with readers := rs }, [.read r.ticket line]) := by
  simp [accept, h]

theorem accept_of_no_readers (h : c.readers = []) :
    c.accept line = ({ c with lines := c.lines ++ [line] }, []) := by
  simp [accept, h]

theorem limit_accept (c : Channel) (line : String) : (c.accept line).1.limit = c.limit := by
  unfold accept
  split <;> rfl

theorem Sound.accept (h : c.Sound) (hf : c.isFull = false) (line : String) :
    (c.accept line).1.Sound := by
  have hw := h.no_writers_of_room hf
  have hl := isFull_eq_false.mp hf
  cases hr : c.readers with
  | nil =>
    rw [accept_of_no_readers hr]
    refine ⟨h.room, ?_, fun hn => absurd hw hn, fun hn => absurd hr hn⟩
    simp only [List.length_append, List.length_singleton]
    omega
  | cons r rs =>
    rw [accept_of_readers hr]
    exact ⟨h.room, h.bounded, fun hn => absurd hw hn, fun _ => h.empty (by simp [hr])⟩

theorem tryWrite_eq_some (h : c.tryWrite line = some (c', served)) :
    c.isFull = false ∧ (c', served) = c.accept line := by
  unfold tryWrite at h
  split at h
  · cases h
  · rename_i hf
    exact ⟨by simpa using hf, (Option.some.inj h).symm⟩

theorem tryWrite_eq_none : c.tryWrite line = none ↔ c.isFull = true := by
  unfold tryWrite
  split <;> simp_all

/-! Taking a line out -/

theorem take?_eq_none : c.take? = none ↔ c.lines = [] := by
  unfold take?
  split <;> simp_all

/-- A line that is taken out was the oldest one, and its place goes to the oldest writer. -/
theorem take?_cases (h : c.take? = some (line, c', served)) :
    ∃ rest, c.lines = line :: rest ∧
      (c.writers = [] ∧ c' = { c with lines := rest } ∧ served = [] ∨
        ∃ w ws, c.writers = w :: ws ∧
          c' = { c with lines := rest ++ [w.line], writers := ws } ∧ served = [.wrote w.ticket]) := by
  unfold take? at h
  split at h
  · cases h
  · rename_i first rest hl hw
    simp only [Option.some.injEq, Prod.mk.injEq] at h
    obtain ⟨rfl, rfl, rfl⟩ := h
    exact ⟨rest, hl, .inl ⟨hw, rfl, rfl⟩⟩
  · rename_i first rest w ws hl hw
    simp only [Option.some.injEq, Prod.mk.injEq] at h
    obtain ⟨rfl, rfl, rfl⟩ := h
    exact ⟨rest, hl, .inr ⟨w, ws, hw, rfl, rfl⟩⟩

theorem pending_take? (h : c.take? = some (line, c', served)) :
    c.pending = line :: c'.pending := by
  obtain ⟨rest, hl, ⟨hw, rfl, -⟩ | ⟨w, ws, hw, rfl, -⟩⟩ := take?_cases h <;>
    simp [pending, hl, hw]

theorem readers_take? (h : c.take? = some (line, c', served)) : c'.readers = c.readers := by
  obtain ⟨rest, -, ⟨-, rfl, -⟩ | ⟨w, ws, -, rfl, -⟩⟩ := take?_cases h <;> rfl

theorem limit_take? (h : c.take? = some (line, c', served)) : c'.limit = c.limit := by
  obtain ⟨rest, -, ⟨-, rfl, -⟩ | ⟨w, ws, -, rfl, -⟩⟩ := take?_cases h <;> rfl

theorem whenFull_take? (h : c.take? = some (line, c', served)) : c'.whenFull = c.whenFull := by
  obtain ⟨rest, -, ⟨-, rfl, -⟩ | ⟨w, ws, -, rfl, -⟩⟩ := take?_cases h <;> rfl

theorem writers_take? (h : c.take? = some (line, c', served)) : c'.writers ⊆ c.writers := by
  obtain ⟨rest, -, ⟨-, rfl, -⟩ | ⟨w, ws, hw, rfl, -⟩⟩ := take?_cases h
  · exact fun x hx => hx
  · intro x hx
    rw [hw]
    exact List.mem_cons_of_mem w hx

theorem Sound.take? (h : c.Sound) (ht : c.take? = some (line, c', served)) : c'.Sound := by
  obtain ⟨rest, hl, ⟨hw, rfl, -⟩ | ⟨w, ws, hw, rfl, -⟩⟩ := take?_cases ht
  · have hb := h.bounded
    rw [hl, List.length_cons] at hb
    refine ⟨h.room, Nat.le_of_succ_le hb, fun hn => absurd hw hn, fun hn => ?_⟩
    have he := h.empty hn
    simp [hl] at he
  · have hf := h.full (by simp [hw])
    rw [hl, List.length_cons] at hf
    refine ⟨h.room, ?_, fun _ => ?_, fun hn => ?_⟩
    · simp only [List.length_append, List.length_singleton]
      omega
    · simp only [List.length_append, List.length_singleton]
      omega
    · have he := h.empty hn
      simp [hl] at he

/-! Clearing, waiting and giving up -/

theorem pending_clear (c : Channel) : c.pending = c.lines ++ c.clear.1.pending := by
  simp only [pending, clear, ← List.map_append, List.take_append_drop]

theorem Sound.clear (h : c.Sound) : c.clear.1.Sound := by
  refine ⟨h.room, ?_, fun hn => ?_, fun hn => ?_⟩
  · simp only [Channel.clear, List.length_map, List.length_take]
    omega
  · have hd : c.writers.length > c.limit := by
      by_contra hle
      exact hn (List.drop_eq_nil_of_le (by omega))
    simp only [Channel.clear, List.length_map, List.length_take]
    omega
  · have hw := h.no_writers hn
    simp [Channel.clear, hw]

theorem Sound.enqueueWriter (h : c.Sound) (hf : c.isFull = true) (w : Writer) :
    (c.enqueueWriter w).Sound := by
  have hr := h.no_readers_of_full hf
  refine ⟨h.room, h.bounded, fun _ => ?_, fun hn => absurd hr hn⟩
  simp only [isFull, decide_eq_true_eq] at hf
  exact Nat.le_antisymm h.bounded hf

theorem Sound.enqueueReader (h : c.Sound) (he : c.lines = []) (r : Reader) :
    (c.enqueueReader r).Sound := by
  refine ⟨h.room, h.bounded, h.full, fun _ => he⟩

theorem pending_enqueueWriter (c : Channel) (w : Writer) :
    (c.enqueueWriter w).pending = c.pending ++ [w.line] := by
  simp [pending, enqueueWriter]

theorem Sound.abandon (h : c.Sound) (token : Nat) : (c.abandon token).Sound := by
  refine ⟨h.room, h.bounded, fun hn => h.full ?_, fun hn => h.empty ?_⟩
  · rintro hw
    simp [Channel.abandon, hw] at hn
  · rintro hr
    simp [Channel.abandon, hr] at hn

end Conduit.Channel

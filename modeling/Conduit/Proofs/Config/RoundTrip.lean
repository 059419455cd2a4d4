import Conduit.Config.Files
import Conduit.Proofs.Toml.Sections
import Mathlib.Algebra.Group.Nat.Defs

/-!
Settings that are written and read again. Whatever they are, their document says what they are, so
reading it gives the same settings or what is wrong with them; only numbers can be too large for one.
-/
namespace Conduit.Config
open Toml (Plain Section Passage Key Node TableHead IsBare documentChars pairChars headerChars)

/-! The document of a configuration -/

def inputPairs (i : InputSettings) : List (String × Plain) :=
  [("capacity", .nat i.capacity), ("when_full", .text i.whenFull.name)]

def runPairs (r : RunSettings) : List (String × Plain) :=
  [("pause", .text r.pause.name), ("overlap", .text r.overlap.name), ("debug", .flag r.debug),
   ("thread_name", .text r.threadName)] ++ r.stackSize.toList.map fun n => ("stack_size", .nat n)

def sections (c : Config) : List Section := [⟨"input", inputPairs c.input⟩, ⟨"run", runPairs c.run⟩]

def Fits (c : Config) : Prop :=
  Decimal.fitsInt64 c.input.capacity = true ∧ ∀ n ∈ c.run.stackSize, Decimal.fitsInt64 n = true

theorem natText?_eq {n : Nat} (h : Decimal.fitsInt64 n = true) :
    Toml.natText? n = some (String.ofList (Plain.nat n).chars) := by
  rw [Toml.natText?, if_pos h]
  rfl

theorem flagText (b : Bool) : (if b then "true" else "false") = String.ofList (Plain.flag b).chars := by
  cases b <;> rfl

theorem toToml?_of_fits {c : Config} (h : c.Fits) :
    c.toToml? = some (String.ofList (documentChars c.sections)) := by
  obtain ⟨hcapacity, hstack⟩ := h
  cases hs : c.run.stackSize with
  | none =>
    simp only [toToml?, hs, natText?_eq hcapacity, flagText, Option.bind_eq_bind, Option.bind_some]
    refine congrArg some (String.toList_inj.mp ?_)
    simp [documentChars, sections, Section.chars, headerChars, inputPairs, runPairs, hs, pairChars,
      Toml.stringText, Plain.chars]
  | some n =>
    simp only [toToml?, hs, natText?_eq hcapacity, natText?_eq (hstack n hs), flagText,
      Option.bind_eq_bind, Option.bind_some, Option.map_some]
    refine congrArg some (String.toList_inj.mp ?_)
    simp [documentChars, sections, Section.chars, headerChars, inputPairs, runPairs, hs, pairChars,
      Toml.stringText, Plain.chars]

theorem toToml?_of_not_fits {c : Config} (h : ¬ c.Fits) : c.toToml? = none := by
  have hnone : ∀ {n : Nat}, Decimal.fitsInt64 n = false → Toml.natText? n = none := by
    intro n hn
    simp [Toml.natText?, hn]
  cases hcapacity : Decimal.fitsInt64 c.input.capacity with
  | false =>
    rw [toToml?, hnone hcapacity]
    rfl
  | true =>
    obtain ⟨n, hs, hn⟩ : ∃ n, c.run.stackSize = some n ∧ Decimal.fitsInt64 n = false := by
      simpa [Fits, hcapacity] using h
    simp [toToml?, natText?_eq hcapacity, hs, hnone hn]

/-! Reading it -/

theorem inputOf_entries (head : TableHead) {i : InputSettings} {es : List (Key × Node)}
    (h : List.Forall₂ Passage.Says es (inputPairs i)) : inputOf (.table head es) = .ok i := by
  obtain ⟨capacity, whenFull⟩ := i
  simp only [inputPairs, List.forall₂_cons_right_iff, List.forall₂_nil_right_iff] at h
  obtain ⟨⟨⟨_, p₁⟩, _⟩, _, ⟨rfl, s₁, rfl⟩, ⟨⟨⟨_, p₂⟩, _⟩, _, ⟨rfl, s₂, rfl⟩, rfl, rfl⟩, rfl⟩ := h
  cases whenFull <;> rfl

theorem runOf_entries (head : TableHead) {r : RunSettings} {es : List (Key × Node)}
    (h : List.Forall₂ Passage.Says es (runPairs r)) : runOf (.table head es) = .ok r := by
  obtain ⟨pause, overlap, debug, threadName, stackSize⟩ := r
  simp only [runPairs, List.cons_append, List.nil_append, List.forall₂_cons_right_iff] at h
  obtain ⟨⟨⟨_, p₁⟩, _⟩, _, ⟨rfl, s₁, rfl⟩, ⟨⟨⟨_, p₂⟩, _⟩, _, ⟨rfl, s₂, rfl⟩,
    ⟨⟨⟨_, p₃⟩, _⟩, _, ⟨rfl, s₃, rfl⟩, ⟨⟨⟨_, p₄⟩, _⟩, rest, ⟨rfl, s₄, rfl⟩, hrest, rfl⟩, rfl⟩, rfl⟩, rfl⟩ := h
  cases stackSize with
  | none =>
    cases hrest
    cases pause <;> cases overlap <;> rfl
  | some n =>
    simp only [Option.toList_some, List.map_cons, List.map_nil, List.forall₂_cons_right_iff,
      List.forall₂_nil_right_iff] at hrest
    obtain ⟨⟨⟨_, p₅⟩, _⟩, _, ⟨rfl, s₅, rfl⟩, rfl, rfl⟩ := hrest
    cases pause <;> cases overlap <;> rfl

theorem ofTable_passages {c : Config} {ps : List Passage}
    (h : List.Forall₂ Passage.IsOf ps c.sections) :
    ofTable { entries := ps.map Passage.entry } = .ok c := by
  simp only [sections, List.forall₂_cons_right_iff, List.forall₂_nil_right_iff] at h
  obtain ⟨⟨⟨_, p₁⟩, s₁, es₁⟩, _, ⟨rfl, h₁⟩, ⟨⟨⟨_, p₂⟩, s₂, es₂⟩, _, ⟨rfl, h₂⟩, rfl, rfl⟩, rfl⟩ := h
  have hinput := inputOf_entries { span := some s₁ } h₁
  have hrun := runOf_entries { span := some s₂ } h₂
  simp only [ofTable, List.map_cons, List.map_nil, Passage.entry, List.foldlM_cons, List.foldlM_nil, addGroup,
    Setting.read, hinput, hrun]
  rfl

theorem sections_proper {c : Config} (h : c.Fits) : ∀ s ∈ c.sections, s.Proper := by
  obtain ⟨hcapacity, hstack⟩ := h
  have hinput : Section.Proper ⟨"input", inputPairs c.input⟩ := by
    refine ⟨(by decide : IsBare "input"), ?_, by simp [inputPairs]⟩
    simp only [inputPairs, List.forall_mem_cons]
    exact ⟨⟨by decide, hcapacity⟩, ⟨by decide, trivial⟩, by simp⟩
  have hrun : Section.Proper ⟨"run", runPairs c.run⟩ := by
    refine ⟨(by decide : IsBare "run"), ?_, ?_⟩
    · simp only [runPairs, List.forall_mem_append, List.forall_mem_cons]
      refine ⟨⟨⟨by decide, trivial⟩, ⟨by decide, trivial⟩, ⟨by decide, trivial⟩,
        ⟨by decide, trivial⟩, by simp⟩, ?_⟩
      intro p hp
      obtain ⟨n, hn, rfl⟩ := List.mem_map.mp hp
      exact ⟨(by decide : IsBare "stack_size"), hstack n (Option.mem_toList.mp hn)⟩
    · cases hs : c.run.stackSize <;> simp [runPairs, hs]
  exact List.forall_mem_cons.mpr ⟨hinput, List.forall_mem_singleton.mpr hrun⟩

theorem parse_document {c : Config} (h : c.Fits) :
    parse (String.ofList (documentChars c.sections)) = c.validate.map fun _ => c := by
  obtain ⟨ps, hps, hparse⟩ := Toml.parse?_document (sections_proper h) (by simp [sections])
  simp only [parse, hparse, ofTable_passages hps]
  cases c.validate <;> rfl

theorem fits_iff (c : Config) :
    c.Fits ↔ ¬ (2 ^ 63 ≤ c.input.capacity ∨ ∃ n, c.run.stackSize = some n ∧ 2 ^ 63 ≤ n) := by
  have hfits : ∀ n : Nat, Decimal.fitsInt64 n = true ↔ ¬ 2 ^ 63 ≤ n := by
    intro n
    rw [Decimal.fitsInt64, Bool.and_eq_true, decide_eq_true_iff, decide_eq_true_iff, Decimal.minInt64,
      Decimal.maxInt64]
    omega
  simp only [Fits, hfits, not_or, not_exists, not_and, Option.mem_def]

/-- The document of settings is there if they fit in one, and is read as what it says. -/
theorem toToml_cases (c : Config) :
    (¬ c.Fits ∧ c.toToml = .error .tooLarge) ∨
      (c.Fits ∧ ∃ text, c.toToml = .ok text ∧ parse text = c.validate.map fun _ => c) := by
  by_cases h : c.Fits
  · exact .inr ⟨h, _, by rw [toToml, toToml?_of_fits h], parse_document h⟩
  · exact .inl ⟨h, by rw [toToml, toToml?_of_not_fits h]⟩

/-- Settings cannot be written as a document exactly if one of their numbers takes more than 63 bits.
Otherwise reading their document gives the same settings, or exactly what is wrong with them. -/
theorem document_round_trip (c : Config) :
    (c.toToml = .error .tooLarge ↔
      2 ^ 63 ≤ c.input.capacity ∨ ∃ n, c.run.stackSize = some n ∧ 2 ^ 63 ≤ n) ∧
    (c.toToml = .error .tooLarge ∨ ∃ text, c.toToml = .ok text ∧
      (c.validate = .ok () ∧ parse text = .ok c ∨
        ∃ e, c.validate = .error e ∧ parse text = .error e)) := by
  rw [← Classical.not_not (a := 2 ^ 63 ≤ c.input.capacity ∨ _), ← fits_iff]
  obtain ⟨hlarge, hnone⟩ | ⟨hfits, text, htext, hparse⟩ := c.toToml_cases
  · exact ⟨iff_of_true hnone hlarge, .inl hnone⟩
  · refine ⟨iff_of_false (by rw [htext]; nofun) (not_not_intro hfits), .inr ⟨text, htext, ?_⟩⟩
    rw [hparse]
    cases c.validate with
    | ok _ => exact .inl ⟨rfl, rfl⟩
    | error e => exact .inr ⟨e, rfl, rfl⟩

end Conduit.Config

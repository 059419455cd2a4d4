import Conduit.Proofs.Toml.Sections

/-!
Documents with pairs of their own before the first section. They too are read as they were written.
-/
namespace Conduit.Toml

structure Page where
  pairs : List (String × Plain)
  sections : List Section

namespace Page

def chars (p : Page) : List Char := p.pairs.flatMap pairChars ++ documentChars p.sections

def text (p : Page) : String := String.ofList p.chars

structure Proper (p : Page) : Prop where
  pairs : ∀ q ∈ p.pairs, IsBare q.1 ∧ q.2.Fits
  sections : ∀ s ∈ p.sections, s.Proper
  distinct : (p.pairs.map Prod.fst ++ p.sections.map Section.name).Nodup

end Page

namespace Draft

variable {before : List (Key × Node)}

theorem add_rootPair {k : Key} (n : Node) (h : k.name ∉ namesOf before) :
    Draft.add { root := { entries := before } } (.pair [k] n) =
      some { root := { entries := before ++ [(k, n)] } } := by
  have hnone := Table.find?_eq_none (t := { entries := before }) h
  simp [add, inTable, modifyAt, insert?, addValue, hnone, Table.append]

theorem add_rootPairs (before : List (Key × Node)) {es : List (Key × Node)}
    (hn : (namesOf (before ++ es)).Nodup) :
    (es.map fun e => Line.pair [e.1] e.2).foldlM Draft.add { root := { entries := before } } =
      some { root := { entries := before ++ es } } := by
  induction es generalizing before with
  | nil => simp
  | cons e es ih =>
    rw [List.map_cons, List.foldlM_cons, add_rootPair e.2 (not_mem_namesOf hn)]
    have hrest := ih (before ++ [e]) (by simpa using hn)
    simpa using hrest

end Draft

namespace Page

variable {p : Page}

/-- A page begins with a bracket, a character of a key or nothing, and not with a mark. -/
theorem dropMark_chars (h : p.Proper) : dropMark p.chars = p.chars := by
  cases hp : p.pairs with
  | nil =>
    have hchars : p.chars = documentChars p.sections := by rw [chars, hp, List.flatMap_nil, List.nil_append]
    rw [hchars, dropMark_documentChars]
  | cons q qs =>
    obtain ⟨hbare, -⟩ := h.pairs q (hp ▸ List.mem_cons_self)
    obtain ⟨c, cs, hname, hc⟩ := hbare.cons
    have hmark : c.toNat ≠ 0xFEFF := by
      intro hm
      have heq : c = Char.ofNat 0xFEFF := by rw [← hm, Char.ofNat_toNat]
      exact ne_of_isBareKeyChar hc (by decide : isBareKeyChar (Char.ofNat 0xFEFF) = false) heq
    obtain ⟨tail, htail⟩ : ∃ tail, p.chars = c :: tail := by
      rw [chars, hp, List.flatMap_cons, pairChars, hname]
      exact ⟨_, rfl⟩
    rw [htail, dropMark, if_neg hmark]

theorem parse?_text (h : p.Proper) :
    ∃ es ps, List.Forall₂ Passage.Says es p.pairs ∧ List.Forall₂ Passage.IsOf ps p.sections ∧
      parse? p.text = some { entries := es ++ ps.map Passage.entry } := by
  obtain ⟨ps, hps, hread⟩ := reads_document h.sections
  obtain ⟨es, hes, hread⟩ := reads_pairs h.pairs hread
  have hlines : lines? (p.chars.length + 1) p.chars = some _ := hread _ (Nat.lt_succ_self _)
  have hnames : (namesOf (es ++ ps.map Passage.entry)).Nodup := by
    have hdistinct := h.distinct
    rw [← Passage.namesOf_entries hes, ← Passage.namesOf_entry hps] at hdistinct
    rwa [namesOf, List.map_append]
  have hpairs : (namesOf ([] ++ es)).Nodup := by
    rw [namesOf, List.map_append] at hnames
    exact (List.nodup_append.mp hnames).1
  obtain ⟨current, hsections⟩ := Draft.add_passages es [] hnames (Passage.nodup_entries hps h.sections)
  refine ⟨es, ps, hes, hps, ?_⟩
  have hroot := Draft.add_rootPairs [] hpairs
  rw [List.nil_append] at hroot
  simp only [parse?, text, String.toList_ofList, dropMark_chars h, hlines, Option.bind_eq_bind,
    Option.bind_some, List.foldlM_append, hroot, hsections]

end Page

end Conduit.Toml

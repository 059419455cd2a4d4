import Conduit.Proofs.Toml.Lines
import Conduit.Toml.Document
import Mathlib.Data.List.Forall2

/-!
Documents made of sections. Each section has a header and pairs of bare keys and plain values; where no
name is given twice, the root table that is read has the sections as they were written.
-/
namespace Conduit.Toml

structure Section where
  name : String
  pairs : List (String × Plain)

structure Passage where
  key : Key
  span : Span
  entries : List (Key × Node)

namespace Section

def chars (s : Section) : List Char := headerChars s.name ++ s.pairs.flatMap pairChars

structure Proper (s : Section) : Prop where
  name : IsBare s.name
  pairs : ∀ p ∈ s.pairs, IsBare p.1 ∧ p.2.Fits
  distinct : (s.pairs.map Prod.fst).Nodup

end Section

def documentChars : List Section → List Char
  | [] => []
  | s :: ss => s.chars ++ ss.flatMap fun s => '\n' :: s.chars

namespace Passage

def lines (p : Passage) : List Line := .header [p.key] p.span :: p.entries.map fun e => .pair [e.1] e.2

def entry (p : Passage) : Key × Node := (p.key, .table { span := some p.span } p.entries)

def Says (e : Key × Node) (p : String × Plain) : Prop := e.1.name = p.1 ∧ ∃ span, e.2 = p.2.node span

structure IsOf (p : Passage) (s : Section) : Prop where
  name : p.key.name = s.name
  entries : List.Forall₂ Says p.entries s.pairs

end Passage

/-! Reading the lines -/

theorem reads_pairs {pairs : List (String × Plain)} (h : ∀ p ∈ pairs, IsBare p.1 ∧ p.2.Fits)
    {rest : List Char} {ls : List Line} (hr : Reads rest ls) :
    ∃ es, List.Forall₂ Passage.Says es pairs ∧
      Reads (pairs.flatMap pairChars ++ rest) (es.map (fun e => .pair [e.1] e.2) ++ ls) := by
  induction pairs with
  | nil => exact ⟨[], .nil, hr⟩
  | cons p pairs ih =>
    obtain ⟨⟨hbare, hfits⟩, hrest⟩ := List.forall_mem_cons.mp h
    obtain ⟨es, hes, hread⟩ := ih hrest
    obtain ⟨key, span, hkey, hread⟩ := hread.pair hbare hfits
    refine ⟨(key, p.2.node span) :: es, .cons ⟨hkey, span, rfl⟩ hes, ?_⟩
    rw [List.flatMap_cons, List.append_assoc]
    exact hread

theorem reads_section {s : Section} (h : s.Proper) {rest : List Char} {ls : List Line}
    (hr : Reads rest ls) : ∃ p : Passage, p.IsOf s ∧ Reads (s.chars ++ rest) (p.lines ++ ls) := by
  obtain ⟨es, hes, hread⟩ := reads_pairs h.pairs hr
  obtain ⟨key, span, hkey, hread⟩ := hread.header h.name
  refine ⟨⟨key, span, es⟩, ⟨hkey, hes⟩, ?_⟩
  rw [Section.chars, List.append_assoc]
  exact hread

theorem reads_sections {ss : List Section} (h : ∀ s ∈ ss, s.Proper) :
    ∃ ps, List.Forall₂ Passage.IsOf ps ss ∧
      Reads (ss.flatMap fun s => '\n' :: s.chars) (ps.flatMap Passage.lines) := by
  induction ss with
  | nil => exact ⟨[], .nil, reads_nil⟩
  | cons s ss ih =>
    obtain ⟨hs, hss⟩ := List.forall_mem_cons.mp h
    obtain ⟨ps, hps, hread⟩ := ih hss
    obtain ⟨p, hp, hread⟩ := reads_section hs hread
    exact ⟨p :: ps, .cons hp hps, hread.blank⟩

theorem reads_document {ss : List Section} (h : ∀ s ∈ ss, s.Proper) :
    ∃ ps, List.Forall₂ Passage.IsOf ps ss ∧
      Reads (documentChars ss) (ps.flatMap Passage.lines) := by
  cases ss with
  | nil => exact ⟨[], .nil, reads_nil⟩
  | cons s ss =>
    obtain ⟨hs, hss⟩ := List.forall_mem_cons.mp h
    obtain ⟨ps, hps, hread⟩ := reads_sections hss
    obtain ⟨p, hp, hread⟩ := reads_section hs hread
    exact ⟨p :: ps, .cons hp hps, hread⟩

/-! Putting them together -/

def namesOf (entries : List (Key × Node)) : List String := entries.map fun e => e.1.name

theorem not_mem_namesOf {es es' : List (Key × Node)} {e : Key × Node}
    (h : (namesOf (es ++ e :: es')).Nodup) : e.1.name ∉ namesOf es := by
  simp only [namesOf, List.map_append, List.map_cons] at h ⊢
  exact fun hm => (List.nodup_append.mp h).2.2 _ hm _ List.mem_cons_self rfl

namespace Table

theorem find?_eq_none {t : Table} {name : String} (h : name ∉ namesOf t.entries) :
    t.find? name = none := by
  have hfind : t.entries.find? (fun e => e.1.name == name) = none := by
    refine List.find?_eq_none.mpr fun e he => ?_
    have hne : e.1.name ≠ name := fun hn => h (List.mem_map.mpr ⟨e, he, hn⟩)
    simpa using hne
  rw [find?, hfind]
  rfl

variable (head : TableHead) {before : List (Key × Node)} {key : Key}
  (h : key.name ∉ namesOf before) (n n' : Node)
include h

theorem find?_last : (⟨head, before ++ [(key, n)]⟩ : Table).find? key.name = some n := by
  have hfind : before.find? (fun e => e.1.name == key.name) = none := by
    have hnone := find?_eq_none (t := ⟨head, before⟩) h
    rwa [find?, Option.map_eq_none_iff] at hnone
  simp [find?, List.find?_append, hfind]

theorem replace_last :
    (⟨head, before ++ [(key, n)]⟩ : Table).replace key.name n' = ⟨head, before ++ [(key, n')]⟩ := by
  have hbefore : before.map (fun e => if e.1.name == key.name then (e.1, n') else e) = before := by
    refine (List.map_congr_left fun e he => ?_).trans (List.map_id before)
    have hne : e.1.name ≠ key.name := fun hn => h (List.mem_map.mpr ⟨e, he, hn⟩)
    simp [hne]
  simp only [replace, List.map_append, hbefore]
  simp

end Table

namespace Draft

def filling (before : List (Key × Node)) (p : Passage) : Draft :=
  { root := { entries := before ++ [p.entry] }, current := [p.key] }

variable {before : List (Key × Node)} {key : Key} {span : Span}

theorem add_header (current : List Key) (h : key.name ∉ namesOf before) :
    Draft.add { root := { entries := before }, current } (.header [key] span) =
      some (filling before ⟨key, span, []⟩) := by
  have hnone := Table.find?_eq_none (t := { entries := before }) h
  simp [add, inTable, modifyAt, openTable, hnone, filling, Passage.entry, Table.append]

theorem add_pair {es : List (Key × Node)} {k : Key} (n : Node) (h : key.name ∉ namesOf before)
    (hk : k.name ∉ namesOf es) :
    (filling before ⟨key, span, es⟩).add (.pair [k] n) =
      some (filling before ⟨key, span, es ++ [(k, n)]⟩) := by
  have hnone := Table.find?_eq_none (t := ⟨{ span := some span }, es⟩) hk
  have hlast := Table.find?_last {} h (.table { span := some span } es)
  have hreplace := Table.replace_last {} h (.table { span := some span } es)
    (.table { span := some span } (es ++ [(k, n)]))
  simp [add, filling, Passage.entry, inTable, modifyAt, hlast, insert?, addValue, hnone, Table.append,
    Table.node, hreplace]

theorem add_pairs (es : List (Key × Node)) {es' : List (Key × Node)} (h : key.name ∉ namesOf before)
    (hn : (namesOf (es ++ es')).Nodup) :
    (es'.map fun e => Line.pair [e.1] e.2).foldlM Draft.add (filling before ⟨key, span, es⟩) =
      some (filling before ⟨key, span, es ++ es'⟩) := by
  induction es' generalizing es with
  | nil => simp
  | cons e es' ih =>
    rw [List.map_cons, List.foldlM_cons, add_pair e.2 h (not_mem_namesOf hn)]
    have hrest := ih (es ++ [e]) (by simpa using hn)
    simpa using hrest

theorem add_passage {p : Passage} (current : List Key) (h : p.key.name ∉ namesOf before)
    (hn : (namesOf p.entries).Nodup) :
    p.lines.foldlM Draft.add { root := { entries := before }, current } = some (filling before p) := by
  rw [Passage.lines, List.foldlM_cons, add_header current h]
  exact add_pairs [] h hn

theorem add_passages (before : List (Key × Node)) {ps : List Passage} (current : List Key)
    (h : (namesOf (before ++ ps.map Passage.entry)).Nodup)
    (hn : ∀ p ∈ ps, (namesOf p.entries).Nodup) :
    ∃ current', (ps.flatMap Passage.lines).foldlM Draft.add { root := { entries := before }, current } =
      some { root := { entries := before ++ ps.map Passage.entry }, current := current' } := by
  induction ps generalizing before current with
  | nil => exact ⟨current, by simp⟩
  | cons p ps ih =>
    obtain ⟨hp, hps⟩ := List.forall_mem_cons.mp hn
    have hfresh : p.key.name ∉ namesOf before := not_mem_namesOf h
    obtain ⟨current', hrest⟩ := ih (before ++ [p.entry]) [p.key] (by simpa using h) hps
    refine ⟨current', ?_⟩
    rw [List.flatMap_cons, List.foldlM_append, add_passage current hfresh hp]
    simpa [filling] using hrest

end Draft

namespace Passage

theorem namesOf_entries {es : List (Key × Node)} {pairs : List (String × Plain)}
    (h : List.Forall₂ Says es pairs) : namesOf es = pairs.map Prod.fst := by
  induction h with
  | nil => rfl
  | cons h _ ih => exact congrArg₂ _ h.1 ih

variable {ps : List Passage} {ss : List Section} (h : List.Forall₂ IsOf ps ss)
include h

theorem namesOf_entry : namesOf (ps.map entry) = ss.map Section.name := by
  induction h with
  | nil => rfl
  | cons h _ ih => exact congrArg₂ _ h.name ih

theorem nodup_entries (hs : ∀ s ∈ ss, s.Proper) : ∀ p ∈ ps, (namesOf p.entries).Nodup := by
  induction h with
  | nil => simp
  | cons h _ ih =>
    obtain ⟨hproper, hrest⟩ := List.forall_mem_cons.mp hs
    refine List.forall_mem_cons.mpr ⟨?_, ih hrest⟩
    rw [namesOf_entries h.entries]
    exact hproper.distinct

end Passage

theorem dropMark_documentChars (ss : List Section) : dropMark (documentChars ss) = documentChars ss := by
  cases ss <;> rfl

theorem parse?_document {ss : List Section} (h : ∀ s ∈ ss, s.Proper) (hn : (ss.map Section.name).Nodup) :
    ∃ ps, List.Forall₂ Passage.IsOf ps ss ∧
      parse? (String.ofList (documentChars ss)) = some { entries := ps.map Passage.entry } := by
  obtain ⟨ps, hps, hread⟩ := reads_document h
  have hlines := hread _ (Nat.lt_succ_self _)
  obtain ⟨current, hfold⟩ := Draft.add_passages [] [] (Passage.namesOf_entry hps ▸ hn)
    (Passage.nodup_entries hps h)
  refine ⟨ps, hps, ?_⟩
  simp only [parse?, String.toList_ofList, dropMark_documentChars, hlines, Option.bind_eq_bind,
    Option.bind_some, hfold, List.nil_append]

end Conduit.Toml

import Conduit.Text.Lines

/-!
Which lines a text has. A text written line by line has the lines that were written, as long as none of
them holds a line feed or ends in a carriage return.
-/
namespace Conduit.Text

variable {α : Type _} [DecidableEq α] {sep ret : α}

theorem pieces_ne_nil (sep : α) (xs : List α) : pieces sep xs ≠ [] := by
  cases xs with
  | nil => exact List.cons_ne_nil _ _
  | cons c cs =>
    simp only [pieces]
    split
    · exact List.cons_ne_nil _ _
    · split <;> exact List.cons_ne_nil _ _

theorem pieces_append_cons {piece : List α} (h : sep ∉ piece) (rest : List α) :
    pieces sep (piece ++ sep :: rest) = piece :: pieces sep rest := by
  induction piece with
  | nil =>
    obtain ⟨first, others, hrest⟩ := List.exists_cons_of_ne_nil (pieces_ne_nil sep rest)
    simp only [List.nil_append, pieces, hrest, if_pos]
  | cons c cs ih =>
    have hc : c ≠ sep := fun heq => h (heq ▸ List.mem_cons_self)
    have hcs : sep ∉ cs := fun hmem => h (List.mem_cons_of_mem c hmem)
    simp only [List.cons_append, pieces, ih hcs, if_neg hc]

theorem pieces_flatMap {ls : List (List α)} (h : ∀ l ∈ ls, sep ∉ l) :
    pieces sep (ls.flatMap (· ++ [sep])) = ls ++ [[]] := by
  induction ls with
  | nil => rfl
  | cons l ls ih =>
    obtain ⟨hl, hls⟩ := List.forall_mem_cons.mp h
    rw [List.flatMap_cons, List.append_assoc, List.singleton_append, pieces_append_cons hl, ih hls,
      List.cons_append]

theorem linesOfPieces_append_nil {ls : List (List α)} (h : ∀ l ∈ ls, ret ∉ l) :
    linesOfPieces ret (ls ++ [[]]) = ls := by
  induction ls with
  | nil => rfl
  | cons l ls ih =>
    obtain ⟨hl, hls⟩ := List.forall_mem_cons.mp h
    have hkept : dropReturn ret l = l := if_neg fun hlast => hl (List.mem_of_getLast? hlast)
    cases ls with
    | nil => simp [linesOfPieces, hkept]
    | cons k ks => simpa [linesOfPieces, hkept] using ih hls

theorem lines_join {ts : List String} (hfeed : ∀ t ∈ ts, '\n' ∉ t.toList)
    (hreturn : ∀ t ∈ ts, '\r' ∉ t.toList) : lines (String.join (ts.map (· ++ "\n"))) = ts := by
  have htext : (String.join (ts.map (· ++ "\n"))).toList
      = (ts.map String.toList).flatMap (· ++ ['\n']) := by
    simp [String.toList_join, List.flatMap_map]
  rw [lines, htext, pieces_flatMap (List.forall_mem_map.mpr hfeed),
    linesOfPieces_append_nil (List.forall_mem_map.mpr hreturn), List.map_map]
  simp [Function.comp_def]

/-! Lines as they are written -/

/-- The lines of what is written: each ends at a `sep`, or at a `ret` and a `sep`, and what follows the
last `sep` is a line unless it is empty. -/
inductive Lined (sep ret : α) : List α → List (List α) → Prop where
  | done : Lined sep ret [] []
  | last {line : List α} (hsep : sep ∉ line) (hne : line ≠ []) : Lined sep ret line [line]
  | feed {line rest : List α} {ls : List (List α)} (hsep : sep ∉ line)
      (hret : line.getLast? ≠ some ret) (h : Lined sep ret rest ls) :
      Lined sep ret (line ++ sep :: rest) (line :: ls)
  | returnFeed {line rest : List α} {ls : List (List α)} (hsep : sep ∉ line)
      (h : Lined sep ret rest ls) : Lined sep ret (line ++ ret :: sep :: rest) (line :: ls)

theorem linesOfPieces_pieces_append_cons {line : List α} (h : sep ∉ line) (rest : List α) :
    linesOfPieces ret (pieces sep (line ++ sep :: rest)) =
      dropReturn ret line :: linesOfPieces ret (pieces sep rest) := by
  obtain ⟨first, others, hrest⟩ := List.exists_cons_of_ne_nil (pieces_ne_nil sep rest)
  rw [pieces_append_cons h, hrest]
  cases line <;> rfl

theorem pieces_of_not_mem {line : List α} (h : sep ∉ line) : pieces sep line = [line] := by
  induction line with
  | nil => rfl
  | cons c cs ih =>
    obtain ⟨hc, hcs⟩ := List.ne_and_not_mem_of_not_mem_cons h
    simp only [pieces, ih hcs, if_neg hc.symm]

theorem linesOfPieces_of_not_mem {line : List α} (h : sep ∉ line) (hne : line ≠ []) :
    linesOfPieces ret (pieces sep line) = [line] := by
  rw [pieces_of_not_mem h]
  cases line with
  | nil => exact absurd rfl hne
  | cons c cs => rfl

theorem dropReturn_concat (line : List α) : dropReturn ret (line ++ [ret]) = line := by
  simp [dropReturn]

theorem lined_linesOfPieces (sep ret : α) (xs : List α) :
    Lined sep ret xs (linesOfPieces ret (pieces sep xs)) := by
  induction hlen : xs.length using Nat.strongRecOn generalizing xs with
  | ind n ih =>
    by_cases hsep : sep ∈ xs
    · obtain ⟨line, rest, rfl, hline⟩ := List.eq_append_cons_of_mem hsep
      have hrest := ih rest.length (by simp at hlen; omega) rest rfl
      rw [linesOfPieces_pieces_append_cons hline]
      by_cases hret : line.getLast? = some ret
      · obtain ⟨front, rfl⟩ := List.getLast?_eq_some_iff.mp hret
        rw [dropReturn_concat, List.append_assoc]
        exact .returnFeed (fun h => hline (List.mem_append_left _ h)) hrest
      · rw [dropReturn, if_neg hret]
        exact .feed hline hret hrest
    · by_cases hne : xs = []
      · subst hne
        exact .done
      · rw [linesOfPieces_of_not_mem hsep hne]
        exact .last hsep hne

theorem lined_iff (hne : ret ≠ sep) {xs : List α} {ls : List (List α)} :
    Lined sep ret xs ls ↔ linesOfPieces ret (pieces sep xs) = ls := by
  refine ⟨fun h => ?_, fun h => h ▸ lined_linesOfPieces sep ret xs⟩
  induction h with
  | done => rfl
  | last hsep hline => exact linesOfPieces_of_not_mem hsep hline
  | feed hsep hret h ih => rw [linesOfPieces_pieces_append_cons hsep, dropReturn, if_neg hret, ih]
  | @returnFeed line rest ls hsep h ih =>
    have hfront : sep ∉ line ++ [ret] := by simp [hsep, hne.symm]
    rw [List.append_cons, linesOfPieces_pieces_append_cons hfront, dropReturn_concat, ih]

omit [DecidableEq α] in
theorem Lined.not_mem {xs : List α} {ls : List (List α)} (h : Lined sep ret xs ls) :
    ∀ l ∈ ls, sep ∉ l := by
  induction h with
  | done => exact List.forall_mem_nil _
  | last hsep => exact List.forall_mem_singleton.mpr hsep
  | feed hsep _ _ ih | returnFeed hsep _ ih => exact List.forall_mem_cons.mpr ⟨hsep, ih⟩

theorem lined_lines (s : String) : Lined '\n' '\r' s.toList ((lines s).map String.toList) := by
  have h := lined_linesOfPieces '\n' '\r' s.toList
  simpa [lines, Function.comp_def] using h

theorem newline_not_mem_lines {s : String} {l : String} (h : l ∈ lines s) : '\n' ∉ l.toList :=
  (lined_lines s).not_mem _ (List.mem_map_of_mem h)

end Conduit.Text

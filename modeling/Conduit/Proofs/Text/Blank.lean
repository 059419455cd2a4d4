import Conduit.Text.Blank

/-!
Trimming takes the blanks off the two ends of a text, and nothing but blanks.
-/
namespace Conduit.Text

theorem trimLeft_blanks {before : List Char} (h : ∀ c ∈ before, isBlank c = true) (cs : List Char) :
    trimLeft (before ++ cs) = trimLeft cs :=
  List.dropWhile_append_of_pos h

theorem trimLeft_of_not_blank {c : Char} (h : isBlank c = false) (cs : List Char) :
    trimLeft (c :: cs) = c :: cs :=
  List.dropWhile_cons_of_neg (Bool.eq_false_iff.mp h)

theorem trimRight_eq_reverse (cs : List Char) : trimRight cs = (trimLeft cs.reverse).reverse := rfl

theorem trimRight_blanks {after : List Char} (h : ∀ c ∈ after, isBlank c = true) (cs : List Char) :
    trimRight (cs ++ after) = trimRight cs := by
  rw [trimRight_eq_reverse, trimRight_eq_reverse, List.reverse_append,
    trimLeft_blanks fun c hc => h c (List.mem_reverse.mp hc)]

theorem trimRight_of_not_blank {c : Char} (h : isBlank c = false) (cs : List Char) :
    trimRight (cs ++ [c]) = cs ++ [c] := by
  rw [trimRight_eq_reverse, List.reverse_append, List.reverse_singleton, List.singleton_append,
    trimLeft_of_not_blank h, List.reverse_cons, List.reverse_reverse]

theorem trim_surrounded {s : String} {before body after : List Char}
    (hs : s.toList = before ++ body ++ after) (hblank : ∀ c ∈ before ++ after, isBlank c = true)
    (hbody : ∀ c ∈ body, isBlank c = false) : trim s = String.ofList body := by
  obtain ⟨hbefore, hafter⟩ := List.forall_mem_append.mp hblank
  rw [trim, hs, List.append_assoc, trimLeft_blanks hbefore]
  congr 1
  cases body with
  | nil =>
    rw [List.nil_append, ← List.append_nil after, trimLeft_blanks hafter]
    rfl
  | cons c cs =>
    obtain ⟨hc, -⟩ := List.forall_mem_cons.mp hbody
    rw [List.cons_append, trimLeft_of_not_blank hc, ← List.cons_append, trimRight_blanks hafter]
    have hlast := hbody _ (List.getLast_mem (List.cons_ne_nil c cs))
    rw [← List.dropLast_concat_getLast (List.cons_ne_nil c cs)]
    exact trimRight_of_not_blank hlast _

theorem exists_trim (s : String) : ∃ before after : List Char,
    s.toList = before ++ (trim s).toList ++ after ∧ ∀ c ∈ before ++ after, isBlank c = true := by
  refine ⟨s.toList.takeWhile isBlank, ((trimLeft s.toList).reverse.takeWhile isBlank).reverse, ?_, ?_⟩
  · have hright : trimRight (trimLeft s.toList) ++
        ((trimLeft s.toList).reverse.takeWhile isBlank).reverse = trimLeft s.toList := by
      rw [trimRight, ← List.reverse_append, List.takeWhile_append_dropWhile, List.reverse_reverse]
    rw [trim, String.toList_ofList, List.append_assoc, hright]
    exact List.takeWhile_append_dropWhile.symm
  · have hblank : ∀ cs : List Char, ∀ c ∈ cs.takeWhile isBlank, isBlank c = true :=
      fun cs => List.all_eq_true.mp List.all_takeWhile
    exact List.forall_mem_append.mpr ⟨hblank _, fun c hc => hblank _ c (List.mem_reverse.mp hc)⟩

end Conduit.Text

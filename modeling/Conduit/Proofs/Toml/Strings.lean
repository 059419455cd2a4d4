import Conduit.Toml.Scalar
import Conduit.Toml.Writer

/-!
Strings of a document. Whatever characters a string has, the form in which it is written is read back
as the same string; where three quotes close it, quotes of its own may stand right before them.
-/
namespace Conduit.Toml

/-! Characters in double quotes -/

theorem isCommentChar_of_not_needsEscape {c : Char} (h : needsEscape c = false) (hn : c ≠ '\n') :
    isCommentChar c = true := by
  by_cases ht : c = '\t'
  · simp [isCommentChar, ht]
  · simp [needsEscape, ht, hn] at h
    simp [isCommentChar, h]

theorem hexRun?_append {n acc v : Nat} {ds : List Char} (h : hexRun? n acc ds = some (v, []))
    (tail : List Char) : hexRun? n acc (ds ++ tail) = some (v, tail) := by
  induction n generalizing acc ds with
  | zero =>
    cases h
    rfl
  | succ n ih =>
    cases ds with
    | nil => cases h
    | cons c ds =>
      rw [List.cons_append, hexRun?]
      rw [hexRun?] at h
      cases hc : Json.hexValue? c with
      | none => simp [hc] at h
      | some d =>
        rw [hc] at h
        exact ih h

theorem hexRun?_padded : ∀ n < 128,
    hexRun? 4 0 (List.replicate (4 - (upperHex n).length) '0' ++ upperHex n) = some (n, []) := by
  decide

theorem scalarChar?_toNat (c : Char) : scalarChar? c.toNat = some c := by
  have hv : c.toNat.isValidChar := c.valid
  have hc := Char.ofNat_toNat c
  rw [Char.ofNat, dif_pos hv] at hc
  rw [scalarChar?, dif_pos hv, hc]

def shortEscaped : List Char := ['"', '\\', '\t', '\n', '\r', Char.ofNat 8, Char.ofNat 12]

theorem escapeChar_of_not_short {c : Char} (h : c ∉ shortEscaped) :
    escapeChar c = if needsEscape c then
      '\\' :: 'u' :: (List.replicate (4 - (upperHex c.toNat).length) '0' ++ upperHex c.toNat)
    else [c] := by
  have hnat : ∀ n, c ≠ Char.ofNat n → c.toNat ≠ n := fun n hne h => hne (h ▸ (Char.ofNat_toNat c).symm)
  simp only [shortEscaped, List.mem_cons, List.not_mem_nil, or_false, not_or] at h
  obtain ⟨hquote, hslash, htab, hfeed, hreturn, hback, hform⟩ := h
  rw [escapeChar, if_neg hquote, if_neg hslash, if_neg htab, if_neg hfeed, if_neg hreturn,
    if_neg (hnat 8 hback), if_neg (hnat 12 hform)]

/-- A character in double quotes stands for itself or is escaped; what comes after the backslash does not
end the line. -/
theorem escapeChar_cases (c : Char) :
    escapeChar c = [c] ∧ isBasicChar c = true ∨
    ∃ e es, escapeChar c = '\\' :: e :: es ∧
      (∀ tail, newline? (skipSpace (e :: (es ++ tail))) = none) ∧
      ∀ tail, escape? (e :: (es ++ tail)) = some (c, tail) := by
  by_cases hshort : c ∈ shortEscaped
  · simp only [shortEscaped, List.mem_cons, List.not_mem_nil, or_false] at hshort
    obtain rfl | rfl | rfl | rfl | rfl | rfl | rfl := hshort
    all_goals exact .inr ⟨_, [], rfl, fun _ => rfl, fun _ => rfl⟩
  rw [escapeChar_of_not_short hshort]
  cases hcontrol : needsEscape c with
  | true =>
    refine .inr ⟨'u', _, rfl, fun _ => rfl, fun tail => ?_⟩
    have hlt : c.toNat < 128 := by
      simp [needsEscape] at hcontrol
      omega
    have hrun := hexRun?_append (hexRun?_padded c.toNat hlt) tail
    simp only [escape?, if_true, hrun, Option.bind_eq_bind, Option.bind_some, scalarChar?_toNat]
  | false =>
    refine .inl ⟨rfl, ?_⟩
    have hfeed : c ≠ '\n' := fun h => hshort (h ▸ by decide)
    have hquote : c ≠ '"' := fun h => hshort (h ▸ by decide)
    have hslash : c ≠ '\\' := fun h => hshort (h ▸ by decide)
    simp [isBasicChar, isCommentChar_of_not_needsEscape hcontrol hfeed, hquote, hslash]

theorem escapeChar_ne_nil (c : Char) : escapeChar c ≠ [] := by
  obtain ⟨he, -⟩ | ⟨e, es, he, -⟩ := escapeChar_cases c <;> simp [he]

theorem ne_of_isBasicChar {c : Char} (h : isBasicChar c = true) : c ≠ '"' ∧ c ≠ '\\' ∧ c ≠ '\n' ∧
    c ≠ '\r' := by
  refine ⟨?_, ?_, ?_, ?_⟩ <;> rintro rfl <;> cases h

theorem basicBody?_escapeChar (fuel : Nat) (c : Char) (tail : List Char) :
    basicBody? (fuel + 1) (escapeChar c ++ tail) =
      (basicBody? fuel tail).map fun r => (c :: r.1, r.2) := by
  obtain ⟨he, hb⟩ | ⟨e, es, he, -, hread⟩ := escapeChar_cases c
  · obtain ⟨hquote, hslash, -⟩ := ne_of_isBasicChar hb
    cases h : basicBody? fuel tail <;> simp [he, basicBody?, hquote, hslash, hb, h]
  · cases h : basicBody? fuel tail <;> simp [he, basicBody?, hread, h]

theorem basicBody?_escaped (cs rest : List Char) {fuel : Nat} (hf : cs.length < fuel) :
    basicBody? fuel (cs.flatMap escapeChar ++ '"' :: rest) = some (cs, rest) := by
  induction cs generalizing fuel with
  | nil =>
    obtain ⟨fuel, rfl⟩ := Nat.exists_eq_add_one_of_ne_zero (Nat.ne_zero_of_lt hf)
    simp [basicBody?]
  | cons c cs ih =>
    obtain ⟨fuel, rfl⟩ := Nat.exists_eq_add_one_of_ne_zero (Nat.ne_zero_of_lt hf)
    rw [List.flatMap_cons, List.append_assoc, basicBody?_escapeChar,
      ih (Nat.lt_of_succ_lt_succ hf)]
    rfl

/-! Three quotes -/

section Closing
variable {q : Char} {rest : List Char}

/-- Three quotes close a string, and up to two right before them belong to it. -/
theorem closingQuotes?_replicate (hr : rest.head? ≠ some q) {k : Nat} (hk : k ≤ 2) :
    closingQuotes? q (List.replicate k q ++ q :: q :: q :: rest) = some (List.replicate k q, rest) := by
  have hrest : rest.takeWhile (· = q) = [] := by
    cases rest with
    | nil => rfl
    | cons c rest =>
      have hc : c ≠ q := fun h => hr (congrArg some h)
      simp [hc]
  have hall : List.replicate k q ++ q :: q :: q :: rest = List.replicate (k + 3) q ++ rest := by
    rw [← List.replicate_append_replicate, List.append_assoc]
    rfl
  have hrun : ((List.replicate (k + 3) q ++ rest).takeWhile (· = q)).length = k + 3 := by
    rw [List.takeWhile_append_of_pos (by simp), hrest]
    simp
  have hmin : min (k + 3) 5 = k + 3 := by omega
  rw [hall, closingQuotes?]
  simp only [hrun, hmin]
  rw [if_neg (by omega), Nat.add_sub_cancel, List.drop_left' List.length_replicate]

theorem closingQuotes?_eq_none {cs : List Char} (h : (cs.takeWhile (· = q)).length ≤ 2) :
    closingQuotes? q cs = none := by
  have hlt : (cs.takeWhile (· = q)).length < 3 := Nat.lt_succ_of_le h
  simp [closingQuotes?, hlt]

end Closing

/-- The quotes in front of a written text, after `n` others: either there is nothing else in it, or they
are too few to close it. -/
theorem escapeLong_front (cs tail : List Char) {n : Nat} (hn : n ≤ 2) :
    (∃ k, k + n ≤ 2 ∧ cs = List.replicate k '"' ∧ escapeLong n cs = cs) ∨
    ((escapeLong n cs ++ tail).takeWhile (· = '"')).length + n ≤ 2 := by
  induction cs generalizing n with
  | nil => exact .inl ⟨0, by omega, rfl, rfl⟩
  | cons c cs ih =>
    rw [escapeLong]
    by_cases hquote : c = '"'
    · subst hquote
      rw [if_pos rfl]
      by_cases hlt : n < 2
      · rw [if_pos hlt]
        obtain ⟨k, hk, hcs, he⟩ | hfew := ih (n := n + 1) hlt
        · exact .inl ⟨k + 1, by omega, by rw [hcs, List.replicate_succ], by rw [he]⟩
        · refine .inr ?_
          simp only [List.cons_append, List.takeWhile_cons, decide_true, if_true, List.length_cons]
          omega
      · rw [if_neg hlt]
        exact .inr (by simpa using hn)
    · rw [if_neg hquote]
      refine .inr ?_
      by_cases hfeed : c = '\n'
      · rw [if_pos hfeed]
        simpa [hquote] using hn
      · rw [if_neg hfeed]
        obtain ⟨he, -⟩ | ⟨e, es, he, -⟩ := escapeChar_cases c <;> simpa [he, hquote] using hn

theorem multiBasicBody?_escapeChar (fuel : Nat) (c : Char) (tail : List Char) :
    multiBasicBody? (fuel + 1) (escapeChar c ++ tail) =
      (multiBasicBody? fuel tail).map fun r => (c :: r.1, r.2) := by
  obtain ⟨he, hb⟩ | ⟨e, es, he, hline, hread⟩ := escapeChar_cases c
  · obtain ⟨hquote, hslash, hfeed, hreturn⟩ := ne_of_isBasicChar hb
    cases h : multiBasicBody? fuel tail <;>
      simp [he, multiBasicBody?, newline?, hquote, hslash, hfeed, hreturn, hb, h]
  · cases h : multiBasicBody? fuel tail <;> simp [he, multiBasicBody?, hline, hread, h]

theorem multiBasicBody?_quote {fuel : Nat} {tail : List Char}
    (h : (('"' :: tail).takeWhile (· = '"')).length ≤ 2) :
    multiBasicBody? (fuel + 1) ('"' :: tail) =
      (multiBasicBody? fuel tail).map fun r => ('"' :: r.1, r.2) := by
  have hopen := closingQuotes?_eq_none h
  cases hb : multiBasicBody? fuel tail <;> simp [multiBasicBody?, hopen, hb]

theorem multiBasicBody?_lineFeed (fuel : Nat) (tail : List Char) :
    multiBasicBody? (fuel + 1) ('\n' :: tail) =
      (multiBasicBody? fuel tail).map fun r => ('\n' :: r.1, r.2) := by
  cases hb : multiBasicBody? fuel tail <;> simp [multiBasicBody?, newline?, hb]

theorem multiBasicBody?_close {rest : List Char} (hr : rest.head? ≠ some '"') (fuel : Nat) {k : Nat}
    (hk : k ≤ 2) :
    multiBasicBody? (fuel + 1) (List.replicate k '"' ++ '"' :: '"' :: '"' :: rest) =
      some (List.replicate k '"', rest) := by
  have hclose := closingQuotes?_replicate hr hk
  cases k with
  | zero =>
    simp only [List.replicate_zero, List.nil_append] at hclose ⊢
    simp [multiBasicBody?, hclose]
  | succ k =>
    simp only [List.replicate_succ, List.cons_append] at hclose ⊢
    simp [multiBasicBody?, hclose]

theorem multiBasicBody?_escaped (cs : List Char) {rest : List Char} (hr : rest.head? ≠ some '"')
    {n fuel : Nat} (hn : n ≤ 2) (hf : cs.length < fuel) :
    multiBasicBody? fuel (escapeLong n cs ++ '"' :: '"' :: '"' :: rest) = some (cs, rest) := by
  induction cs generalizing n fuel with
  | nil =>
    obtain ⟨fuel, rfl⟩ := Nat.exists_eq_add_one_of_ne_zero (Nat.ne_zero_of_lt hf)
    exact multiBasicBody?_close hr fuel (Nat.zero_le 2)
  | cons c cs ih =>
    obtain ⟨fuel, rfl⟩ := Nat.exists_eq_add_one_of_ne_zero (Nat.ne_zero_of_lt hf)
    have hlen := Nat.lt_of_succ_lt_succ hf
    obtain ⟨k, hk, hcs, he⟩ | hfew := escapeLong_front (c :: cs) ('"' :: '"' :: '"' :: rest) hn
    · rw [he, hcs]
      exact multiBasicBody?_close hr fuel (Nat.le_of_add_right_le hk)
    rw [escapeLong] at hfew ⊢
    by_cases hquote : c = '"'
    · subst hquote
      rw [if_pos rfl] at hfew ⊢
      by_cases hlt : n < 2
      · rw [if_pos hlt, List.cons_append] at hfew ⊢
        rw [multiBasicBody?_quote (Nat.le_of_add_right_le hfew), ih hlt hlen]
        rfl
      · rw [if_neg hlt]
        have hescape := multiBasicBody?_escapeChar fuel '"' (escapeLong 0 cs ++ '"' :: '"' :: '"' :: rest)
        rw [ih (Nat.zero_le 2) hlen] at hescape
        exact hescape
    · rw [if_neg hquote]
      by_cases hfeed : c = '\n'
      · rw [if_pos hfeed, hfeed, List.cons_append, multiBasicBody?_lineFeed, ih (Nat.zero_le 2) hlen]
        rfl
      · rw [if_neg hfeed, List.append_assoc, multiBasicBody?_escapeChar, ih (Nat.zero_le 2) hlen]
        rfl

/-! Single quotes -/

def RunsWithin (q : Char) (limit : Nat) : Nat → List Char → Prop
  | _, [] => True
  | n, c :: cs => if c = q then n < limit ∧ RunsWithin q limit (n + 1) cs else RunsWithin q limit 0 cs

theorem runsWithin_of_longestRun {q : Char} {limit : Nat} {cs : List Char}
    (h : longestRun q cs ≤ limit) : RunsWithin q limit 0 cs := by
  suffices ∀ cs n longest, (cs.foldl (fun p d =>
      if d = q then (p.1 + 1, max p.2 (p.1 + 1)) else (0, p.2)) (n, longest)).2 ≤ limit →
      RunsWithin q limit n cs ∧ longest ≤ limit from (this cs 0 0 h).1
  intro cs
  induction cs with
  | nil => exact fun n longest h => ⟨trivial, h⟩
  | cons c cs ih =>
    intro n longest h
    rw [List.foldl_cons] at h
    rw [RunsWithin]
    by_cases hc : c = q
    · simp only [hc, if_true] at h ⊢
      obtain ⟨hruns, hmax⟩ := ih _ _ h
      exact ⟨⟨by omega, hruns⟩, by omega⟩
    · simp only [hc, if_false] at h ⊢
      exact ih _ _ h

theorem not_mem_of_longestRun {q : Char} {cs : List Char} (h : longestRun q cs = 0) : q ∉ cs := by
  suffices ∀ n, RunsWithin q 0 n cs → q ∉ cs from this 0 (runsWithin_of_longestRun (Nat.le_of_eq h))
  clear h
  induction cs with
  | nil => simp
  | cons c cs ih =>
    intro n hruns
    rw [RunsWithin] at hruns
    by_cases hc : c = q
    · rw [if_pos hc] at hruns
      exact absurd hruns.1 (Nat.not_lt_zero n)
    · rw [if_neg hc] at hruns
      simpa [Ne.symm hc] using ih 0 hruns

theorem isLiteralChar_of_not_needsEscape {c : Char} (h : needsEscape c = false) (hn : c ≠ '\n')
    (hq : c ≠ '\'') : isLiteralChar c = true := by
  simp [isLiteralChar, isCommentChar_of_not_needsEscape h hn, hq]

theorem literalBody?_raw {cs : List Char} (h : ∀ c ∈ cs, isLiteralChar c = true) (rest : List Char) :
    literalBody? (cs ++ '\'' :: rest) = some (cs, rest) := by
  have hq : isLiteralChar '\'' = false := rfl
  rw [literalBody?, List.dropWhile_append_of_pos h, List.takeWhile_append_of_pos h]
  simp [hq]

theorem RunsWithin.front {q : Char} {cs : List Char} {n : Nat} (h : RunsWithin q 2 n cs) (hn : n ≤ 2)
    (tail : List Char) :
    (∃ k, k + n ≤ 2 ∧ cs = List.replicate k q) ∨ ((cs ++ tail).takeWhile (· = q)).length + n ≤ 2 := by
  induction cs generalizing n with
  | nil => exact .inl ⟨0, by omega, rfl⟩
  | cons c cs ih =>
    rw [RunsWithin] at h
    by_cases hc : c = q
    · subst hc
      rw [if_pos rfl] at h
      obtain ⟨k, hk, hcs⟩ | hfew := ih h.2 h.1
      · exact .inl ⟨k + 1, by omega, by rw [hcs, List.replicate_succ]⟩
      · refine .inr ?_
        simp only [List.cons_append, List.takeWhile_cons, decide_true, if_true, List.length_cons]
        omega
    · exact .inr (by simpa [hc] using hn)

theorem multiLiteralBody?_quote {fuel : Nat} {tail : List Char}
    (h : (('\'' :: tail).takeWhile (· = '\'')).length ≤ 2) :
    multiLiteralBody? (fuel + 1) ('\'' :: tail) =
      (multiLiteralBody? fuel tail).map fun r => ('\'' :: r.1, r.2) := by
  have hopen := closingQuotes?_eq_none h
  cases hb : multiLiteralBody? fuel tail <;> simp [multiLiteralBody?, hopen, hb]

theorem multiLiteralBody?_char {c : Char} (hc : needsEscape c = false) (hq : c ≠ '\'') (fuel : Nat)
    (tail : List Char) :
    multiLiteralBody? (fuel + 1) (c :: tail) =
      (multiLiteralBody? fuel tail).map fun r => (c :: r.1, r.2) := by
  by_cases hfeed : c = '\n'
  · subst hfeed
    cases hb : multiLiteralBody? fuel tail <;> simp [multiLiteralBody?, newline?, hb]
  · have hreturn : c ≠ '\r' := by
      rintro rfl
      cases hc
    have hl := isLiteralChar_of_not_needsEscape hc hfeed hq
    cases hb : multiLiteralBody? fuel tail <;>
      simp [multiLiteralBody?, newline?, hq, hfeed, hreturn, hl, hb]

theorem multiLiteralBody?_close {rest : List Char} (hr : rest.head? ≠ some '\'') (fuel : Nat) {k : Nat}
    (hk : k ≤ 2) :
    multiLiteralBody? (fuel + 1) (List.replicate k '\'' ++ '\'' :: '\'' :: '\'' :: rest) =
      some (List.replicate k '\'', rest) := by
  have hclose := closingQuotes?_replicate hr hk
  cases k with
  | zero =>
    simp only [List.replicate_zero, List.nil_append] at hclose ⊢
    simp [multiLiteralBody?, hclose]
  | succ k =>
    simp only [List.replicate_succ, List.cons_append] at hclose ⊢
    simp [multiLiteralBody?, hclose]

theorem multiLiteralBody?_raw {cs : List Char} (hcs : ∀ c ∈ cs, needsEscape c = false)
    {rest : List Char} (hr : rest.head? ≠ some '\'') {n fuel : Nat} (hn : n ≤ 2)
    (hruns : RunsWithin '\'' 2 n cs) (hf : cs.length < fuel) :
    multiLiteralBody? fuel (cs ++ '\'' :: '\'' :: '\'' :: rest) = some (cs, rest) := by
  induction cs generalizing n fuel with
  | nil =>
    obtain ⟨fuel, rfl⟩ := Nat.exists_eq_add_one_of_ne_zero (Nat.ne_zero_of_lt hf)
    exact multiLiteralBody?_close hr fuel (Nat.zero_le 2)
  | cons c cs ih =>
    obtain ⟨fuel, rfl⟩ := Nat.exists_eq_add_one_of_ne_zero (Nat.ne_zero_of_lt hf)
    have hlen := Nat.lt_of_succ_lt_succ hf
    obtain ⟨hc, htail⟩ := List.forall_mem_cons.mp hcs
    obtain ⟨k, hk, he⟩ | hfew := hruns.front hn ('\'' :: '\'' :: '\'' :: rest)
    · rw [he]
      exact multiLiteralBody?_close hr fuel (Nat.le_of_add_right_le hk)
    rw [RunsWithin] at hruns
    rw [List.cons_append] at hfew ⊢
    by_cases hq : c = '\''
    · subst hq
      rw [if_pos rfl] at hruns
      rw [multiLiteralBody?_quote (Nat.le_of_add_right_le hfew), ih htail hruns.1 hruns.2 hlen]
      rfl
    · rw [if_neg hq] at hruns
      rw [multiLiteralBody?_char hc hq, ih htail (Nat.zero_le 2) hruns hlen]
      rfl

/-! The forms of a string -/

theorem length_le_length_escapeLong (n : Nat) (cs : List Char) :
    cs.length ≤ (escapeLong n cs).length := by
  fun_induction escapeLong n cs with
  | case1 => exact Nat.le_refl _
  | case2 | case3 | case4 => simp; omega
  | case5 n c cs hquote hfeed ih =>
    have := List.length_pos_iff.mpr (escapeChar_ne_nil c)
    simp
    omega

theorem length_le_length_escaped (cs : List Char) : cs.length ≤ (cs.flatMap escapeChar).length := by
  induction cs with
  | nil => exact Nat.le_refl _
  | cons c cs ih =>
    have := List.length_pos_iff.mpr (escapeChar_ne_nil c)
    simp only [List.flatMap_cons, List.length_append, List.length_cons]
    omega

theorem string?_eq_lineString? {c d : Char} (h : c ≠ d) (cs : List Char) :
    string? (c :: d :: cs) = lineString? (c :: d :: cs) := by
  unfold string?
  split
  · rename_i heq
    simp_all
  · rename_i heq
    simp_all
  · rfl

variable (cs rest : List Char)

theorem string?_basic :
    string? ('"' :: (cs.flatMap escapeChar ++ '"' :: '\n' :: rest)) =
      some (String.ofList cs, '\n' :: rest) := by
  have hfuel : cs.length < (cs.flatMap escapeChar ++ '"' :: '\n' :: rest).length := by
    have := length_le_length_escaped cs
    simp only [List.length_append, List.length_cons]
    omega
  have hline : lineString? ('"' :: (cs.flatMap escapeChar ++ '"' :: '\n' :: rest)) =
      some (String.ofList cs, '\n' :: rest) := by
    rw [lineString?, basicBody?_escaped cs _ hfuel]
    rfl
  cases cs with
  | nil => exact hline
  | cons c cs =>
    rw [List.flatMap_cons, List.append_assoc] at hline ⊢
    obtain ⟨he, hb⟩ | ⟨e, es, he, -⟩ := escapeChar_cases c
    · rw [he, List.singleton_append] at hline ⊢
      rw [string?_eq_lineString? (ne_of_isBasicChar hb).1.symm, hline]
    · rw [he] at hline ⊢
      exact hline

theorem string?_literal {cs : List Char} (hne : cs ≠ []) (hq : '\'' ∉ cs)
    (hcs : ∀ c ∈ cs, needsEscape c = false) (hfeed : '\n' ∉ cs) :
    string? ('\'' :: (cs ++ '\'' :: '\n' :: rest)) = some (String.ofList cs, '\n' :: rest) := by
  have hchars : ∀ c ∈ cs, isLiteralChar c = true := fun c hc =>
    isLiteralChar_of_not_needsEscape (hcs c hc) (fun h => hfeed (h ▸ hc)) fun h => hq (h ▸ hc)
  have hline : lineString? ('\'' :: (cs ++ '\'' :: '\n' :: rest)) =
      some (String.ofList cs, '\n' :: rest) := by
    rw [lineString?, literalBody?_raw hchars]
    rfl
  obtain ⟨c, cs, rfl⟩ := List.exists_cons_of_ne_nil hne
  have hc : '\'' ≠ c := fun h => hq (h ▸ List.mem_cons_self)
  rw [List.cons_append] at hline ⊢
  rw [string?_eq_lineString? hc, hline]

/-- The line break that is put in front of a text with line breaks is not part of it. -/
theorem dropFirstBreak_tripled {body : List Char} {broken : Bool}
    (h : broken = false → newline? body = none) :
    dropFirstBreak ((if broken then ['\n'] else []) ++ body) = body := by
  cases broken with
  | true => rfl
  | false => simp [dropFirstBreak, h rfl]

theorem newline?_escapeLong {cs : List Char} (hfeed : '\n' ∉ cs) (n : Nat) (tail : List Char) :
    newline? (escapeLong n cs ++ '"' :: tail) = none := by
  cases cs with
  | nil => rfl
  | cons c cs =>
    have hc : c ≠ '\n' := fun h => hfeed (h ▸ List.mem_cons_self)
    rw [escapeLong, if_neg hc]
    split
    · rename_i hquote
      subst hquote
      split <;> rfl
    · obtain ⟨he, hb⟩ | ⟨e, es, he, -⟩ := escapeChar_cases c
      · obtain ⟨-, -, hf, hr⟩ := ne_of_isBasicChar hb
        simp [he, newline?, hf, hr]
      · rw [he]
        rfl

theorem string?_tripledBasic {broken : Bool} (h : broken = cs.contains '\n') :
    string? (tripled '"' (escapeLong 0 cs) broken ++ '\n' :: rest) =
      some (String.ofList cs, '\n' :: rest) := by
  have hfuel : cs.length < (escapeLong 0 cs ++ '"' :: '"' :: '"' :: '\n' :: rest).length := by
    have := length_le_length_escapeLong 0 cs
    simp only [List.length_append, List.length_cons]
    omega
  have hdrop : dropFirstBreak ((if broken then ['\n'] else []) ++
      (escapeLong 0 cs ++ '"' :: '"' :: '"' :: '\n' :: rest)) =
      escapeLong 0 cs ++ '"' :: '"' :: '"' :: '\n' :: rest :=
    dropFirstBreak_tripled fun hb => newline?_escapeLong (by simpa using h.symm.trans hb) _ _
  simp only [tripled, List.cons_append, List.append_assoc, List.nil_append, string?, hdrop]
  rw [multiBasicBody?_escaped cs (by simp) (Nat.zero_le 2) hfuel]
  rfl

theorem string?_tripledLiteral {cs : List Char} {broken : Bool} (h : broken = cs.contains '\n')
    (hruns : longestRun '\'' cs ≤ 2) (hcs : ∀ c ∈ cs, needsEscape c = false) :
    string? (tripled '\'' cs broken ++ '\n' :: rest) = some (String.ofList cs, '\n' :: rest) := by
  have hdrop : dropFirstBreak ((if broken then ['\n'] else []) ++
      (cs ++ '\'' :: '\'' :: '\'' :: '\n' :: rest)) = cs ++ '\'' :: '\'' :: '\'' :: '\n' :: rest := by
    refine dropFirstBreak_tripled fun hb => ?_
    have hfeed : '\n' ∉ cs := by simpa using h.symm.trans hb
    cases cs with
    | nil => rfl
    | cons c cs =>
      have hc : c ≠ '\n' := fun h => hfeed (h ▸ List.mem_cons_self)
      have hr : c ≠ '\r' := by
        rintro rfl
        cases hcs '\r' List.mem_cons_self
      simp [newline?, hc, hr]
  simp only [tripled, List.cons_append, List.append_assoc, List.nil_append, string?, hdrop]
  rw [multiLiteralBody?_raw hcs (by simp) (Nat.zero_le 2) (runsWithin_of_longestRun hruns)
    (by simp only [List.length_append, List.length_cons]; omega)]
  rfl

theorem string?_stringChars :
    string? (stringChars cs ++ '\n' :: rest) = some (String.ofList cs, '\n' :: rest) := by
  have hcontrols : cs.any needsEscape = false → ∀ c ∈ cs, needsEscape c = false := by
    simp
  unfold stringChars
  simp only
  split
  · simpa using string?_basic cs rest
  split
  · rename_i hplain hform
    simp only [Bool.and_eq_true, Bool.not_eq_true', decide_eq_true_eq] at hplain hform
    obtain ⟨⟨hc, hs⟩, hb⟩ := hform
    have hne : cs ≠ [] := by
      rintro rfl
      exact hplain ⟨⟨⟨rfl, rfl⟩, rfl⟩, rfl⟩
    simpa using string?_literal rest hne (not_mem_of_longestRun hs) (hcontrols hc) (by simpa using hb)
  split
  · exact string?_tripledBasic cs rest rfl
  split
  · rename_i hform
    simp only [Bool.and_eq_true, Bool.not_eq_true', decide_eq_true_eq] at hform
    exact string?_tripledLiteral rest rfl hform.2 (hcontrols hform.1)
  split
  · exact string?_tripledBasic cs rest rfl
  · simpa using string?_basic cs rest

end Conduit.Toml

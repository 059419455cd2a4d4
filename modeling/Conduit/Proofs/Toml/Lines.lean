import Conduit.Proofs.Decimal.Digits
import Conduit.Proofs.Toml.Strings
import Conduit.Toml.Reader

/-!
Lines of a document as they are written: headers of sections and pairs of a bare key and a plain value.
A line that is written so is read back as it was meant, with its place in the source.
-/
namespace Conduit.Toml

inductive Plain where
  | text (s : String)
  | nat (n : Nat)
  | flag (b : Bool)

namespace Plain

def chars : Plain → List Char
  | text s => stringChars s.toList
  | nat n => Decimal.digits n
  | flag b => if b then ['t', 'r', 'u', 'e'] else ['f', 'a', 'l', 's', 'e']

def node (span : Span) : Plain → Node
  | text s => .str span s
  | nat n => .int span n
  | flag b => .bool span b

def Fits : Plain → Prop
  | nat n => Decimal.fitsInt64 n = true
  | _ => True

end Plain

/-! Numbers -/

section Numbers
variable {ds : List Char}

theorem ne_of_isDigit {c d : Char} (hc : Decimal.isDigit c = true) (hd : Decimal.isDigit d = false) :
    c ≠ d := by
  rintro rfl
  rw [hc] at hd
  cases hd

theorem digitRun?_all (hne : ds ≠ []) (hd : ∀ c ∈ ds, Decimal.isDigit c = true) (rest : List Char) :
    digitRun? Decimal.isDigit (ds ++ '\n' :: rest) = some (ds, '\n' :: rest) := by
  have hfeed : Decimal.isDigit '\n' = false := rfl
  induction ds with
  | nil => exact absurd rfl hne
  | cons c ds ih =>
    obtain ⟨hc, hds⟩ := List.forall_mem_cons.mp hd
    cases ds with
    | nil => simp [digitRun?, hc, hfeed]
    | cons d ds =>
      have hd := hds d List.mem_cons_self
      have hunder := ne_of_isDigit (d := '_') hd rfl
      have hrun := ih (List.cons_ne_nil d ds) hds
      rw [List.cons_append] at hrun
      rw [List.cons_append, List.cons_append, digitRun?, if_pos hc, if_pos hd, hrun]
      · rfl
      · exact hunder

theorem wholeDigits?_digits (n : Nat) (rest : List Char) :
    wholeDigits? (Decimal.digits n ++ '\n' :: rest) = some (Decimal.digits n, '\n' :: rest) := by
  obtain hz | ⟨c, cs, hd, hc⟩ := Decimal.digits_cases n
  · rw [hz]
    rfl
  · have hrun := digitRun?_all (List.cons_ne_nil c cs)
      (fun x hx => Decimal.isDigit_of_mem_digits (hd ▸ hx)) rest
    rw [hd]
    rw [List.cons_append] at hrun ⊢
    rw [wholeDigits?, hrun]
    intro rest' h
    exact hc (List.cons.inj h).1

/-- Whatever stands after some digits of a number is another digit or the end of its line. -/
theorem digits?_next {count v : Nat} {c : Char} {rest tail : List Char}
    (hd : ∀ c ∈ ds, Decimal.isDigit c = true)
    (h : digits? count (ds ++ '\n' :: rest) = some (v, c :: tail)) :
    c = '\n' ∨ Decimal.isDigit c = true := by
  simp only [digits?] at h
  split at h
  · rename_i hdigits
    have hdrop := (Prod.mk.inj (Option.some.inj h)).2
    obtain hlt | hle := Nat.lt_or_ge ds.length count
    · -- The line break is among the characters that should be digits.
      have hmem : '\n' ∈ (ds ++ '\n' :: rest).take count := by
        rw [List.take_append, List.mem_append]
        obtain ⟨k, hk⟩ := Nat.exists_eq_add_of_lt hlt
        have hk' : count - ds.length = k + 1 := by omega
        rw [hk', List.take_succ_cons]
        exact .inr List.mem_cons_self
      cases List.all_eq_true.mp hdigits.2 _ hmem
    · rw [List.drop_append_of_le_length hle] at hdrop
      cases hrest : ds.drop count with
      | nil =>
        rw [hrest] at hdrop
        exact .inl (List.cons.inj hdrop).1.symm
      | cons d ds' =>
        rw [hrest] at hdrop
        have hmem : d ∈ ds := List.mem_of_mem_drop (hrest ▸ List.mem_cons_self)
        exact .inr ((List.cons.inj hdrop).1 ▸ hd d hmem)
  · cases h

theorem startsDate_digits (hd : ∀ c ∈ ds, Decimal.isDigit c = true) (rest : List Char) :
    startsDate (ds ++ '\n' :: rest) = false := by
  unfold startsDate
  split
  · rename_i h
    obtain h | h := digits?_next hd h <;> cases h
  · split
    · rename_i h
      obtain h | h := digits?_next hd h <;> cases h
    · rfl

theorem sign_of_isDigit {c : Char} (hc : Decimal.isDigit c = true) (cs : List Char) :
    sign (c :: cs) = (false, c :: cs) := by
  unfold sign
  split
  · rename_i h
    cases ne_of_isDigit hc rfl (List.cons.inj h).1
  · rename_i h
    cases ne_of_isDigit hc rfl (List.cons.inj h).1
  · rfl

theorem word?_of_isDigit {c : Char} (hc : Decimal.isDigit c = true) (cs : List Char) {w : String}
    {d : Char} {ds : List Char} (hw : w.toList = d :: ds) (hd : Decimal.isDigit d = false) :
    word? w (c :: cs) = none := by
  have hne := (ne_of_isDigit hc hd).symm
  simp [word?, hw, hne]

theorem float?_digits (n : Nat) (rest : List Char) :
    float? (Decimal.digits n ++ '\n' :: rest) = none := by
  have hwhole := wholeDigits?_digits n rest
  obtain ⟨c, cs, hd, hc⟩ := Decimal.digits_cons n
  rw [hd, List.cons_append] at hwhole ⊢
  have hdecimal : decimalFloat? (c :: (cs ++ '\n' :: rest)) = none := by
    simp [decimalFloat?, sign_of_isDigit hc, hwhole, exponentPart?]
  rw [float?, hdecimal]
  simp only [specialFloat?, sign_of_isDigit hc]
  rw [word?_of_isDigit hc _ (w := "inf") rfl rfl, word?_of_isDigit hc _ (w := "nan") rfl rfl]
  rfl

theorem integer?_digits {n : Nat} (hn : Decimal.fitsInt64 n = true) (rest : List Char) :
    integer? (Decimal.digits n ++ '\n' :: rest) = some ((n : Int), '\n' :: rest) := by
  -- A zero is the whole number, so no letter for another base can follow it.
  have hbase : ∀ x tail, Decimal.digits n ++ '\n' :: rest = '0' :: x :: tail → x = '\n' := by
    intro x tail h
    obtain hz | ⟨c, cs, hd, hc⟩ := Decimal.digits_cases n
    · rw [hz] at h
      exact (List.cons.inj (List.cons.inj h).2).1.symm
    · rw [hd] at h
      exact absurd (List.cons.inj h).1 hc
  have hsign : sign (Decimal.digits n ++ '\n' :: rest) = (false, Decimal.digits n ++ '\n' :: rest) := by
    obtain ⟨c, cs, hd, hc⟩ := Decimal.digits_cons n
    rw [hd]
    exact sign_of_isDigit hc _
  unfold integer?
  split
  · rename_i h
    cases hbase _ _ h
  · rename_i h
    cases hbase _ _ h
  · rename_i h
    cases hbase _ _ h
  · simp [hsign, wholeDigits?_digits, Decimal.ofDigits_digits, ranged?, hn]

end Numbers

/-! Plain values -/

theorem stringChars_cons (cs : List Char) :
    ∃ q t, stringChars cs = q :: t ∧ (q = '"' ∨ q = '\'') := by
  unfold stringChars tripled
  simp only
  split
  · exact ⟨_, _, rfl, .inl rfl⟩
  split
  · exact ⟨_, _, rfl, .inr rfl⟩
  split
  · exact ⟨_, _, rfl, .inl rfl⟩
  split
  · exact ⟨_, _, rfl, .inr rfl⟩
  split
  · exact ⟨_, _, rfl, .inl rfl⟩
  · exact ⟨_, _, rfl, .inl rfl⟩

namespace Plain

theorem chars_cons (v : Plain) :
    ∃ c t, v.chars = c :: t ∧ isSpace c = false ∧ c ≠ '[' ∧ c ≠ '\x7b' := by
  cases v with
  | text s =>
    obtain ⟨q, t, hs, hq⟩ := stringChars_cons s.toList
    refine ⟨q, t, hs, ?_⟩
    obtain rfl | rfl := hq <;> decide
  | nat n =>
    obtain ⟨c, t, hd, hc⟩ := Decimal.digits_cons n
    refine ⟨c, t, hd, ?_, ne_of_isDigit hc rfl, ne_of_isDigit hc rfl⟩
    simp [isSpace, ne_of_isDigit hc (d := ' ') rfl, ne_of_isDigit hc (d := '\t') rfl]
  | flag b => cases b <;> exact ⟨_, _, rfl, by decide⟩

theorem scalar?_chars (v : Plain) (hv : v.Fits) (rest : List Char) :
    scalar? (v.chars ++ '\n' :: rest) =
      some (v.node (spanOf (v.chars ++ '\n' :: rest) ('\n' :: rest)), '\n' :: rest) := by
  cases v with
  | text s =>
    have hread := string?_stringChars s.toList rest
    obtain ⟨q, t, hs, hq⟩ := stringChars_cons s.toList
    rw [chars]
    rw [hs, List.cons_append] at hread ⊢
    obtain rfl | rfl := hq <;> simp [scalar?, hread, node]
  | nat n =>
    have hdate := startsDate_digits (fun c hc => Decimal.isDigit_of_mem_digits (n := n) hc) rest
    have hfloat := float?_digits n rest
    have hint := integer?_digits hv rest
    obtain ⟨c, t, hd, hc⟩ := Decimal.digits_cons n
    rw [chars]
    rw [hd, List.cons_append] at hdate hfloat hint ⊢
    simp [scalar?, hdate, hfloat, hint, node, ne_of_isDigit hc (d := '"') rfl,
      ne_of_isDigit hc (d := '\'') rfl, ne_of_isDigit hc (d := 't') rfl, ne_of_isDigit hc (d := 'f') rfl]
  | flag b => cases b <;> rfl

end Plain

/-! Keys -/

def IsBare (name : String) : Prop := name.toList ≠ [] ∧ ∀ c ∈ name.toList, isBareKeyChar c = true

-- By going through the characters of the name, and not through all that there are.
instance (name : String) : Decidable (IsBare name) :=
  @instDecidableAnd _ _ _ (List.decidableBAll (fun c => isBareKeyChar c = true) name.toList)

theorem ne_of_isBareKeyChar {c d : Char} (hc : isBareKeyChar c = true) (hd : isBareKeyChar d = false) :
    c ≠ d := by
  rintro rfl
  rw [hc] at hd
  cases hd

theorem IsBare.cons {name : String} (h : IsBare name) :
    ∃ c cs, name.toList = c :: cs ∧ isBareKeyChar c = true := by
  obtain ⟨c, cs, hc⟩ := List.exists_cons_of_ne_nil h.1
  exact ⟨c, cs, hc, h.2 c (hc ▸ List.mem_cons_self)⟩

theorem skipSpace_cons {c : Char} (hc : isSpace c = false) (cs : List Char) :
    skipSpace (c :: cs) = c :: cs := by
  simp [skipSpace, hc]

theorem isSpace_of_isBareKeyChar {c : Char} (hc : isBareKeyChar c = true) : isSpace c = false := by
  simp [isSpace, ne_of_isBareKeyChar hc (d := ' ') rfl, ne_of_isBareKeyChar hc (d := '\t') rfl]

section Keys
variable {name : String} (h : IsBare name) {d : Char} (hd : isBareKeyChar d = false) (tail : List Char)
include h hd

theorem simpleKey?_bare :
    ∃ key : Key, key.name = name ∧
      simpleKey? (name.toList ++ d :: tail) = some (key, d :: tail) := by
  have htake : (name.toList ++ d :: tail).takeWhile isBareKeyChar = name.toList := by
    rw [List.takeWhile_append_of_pos h.2]
    simp [hd]
  have hdrop : (name.toList ++ d :: tail).dropWhile isBareKeyChar = d :: tail := by
    rw [List.dropWhile_append_of_pos h.2]
    simp [hd]
  obtain ⟨c, cs, hname, hc⟩ := h.cons
  have hof : String.ofList (c :: cs) = name := by rw [← hname, String.ofList_toList]
  rw [hname, List.cons_append] at htake hdrop ⊢
  refine ⟨⟨name, spanOf (c :: (cs ++ d :: tail)) (d :: tail)⟩, rfl, ?_⟩
  simp [simpleKey?, htake, hdrop, hof, spanOf, ne_of_isBareKeyChar hc (d := '"') rfl,
    ne_of_isBareKeyChar hc (d := '\'') rfl]

theorem keyPath?_bare {e : Char} {rest : List Char} (hs : skipSpace (d :: tail) = e :: rest)
    (he : e ≠ '.') (fuel : Nat) :
    ∃ key : Key, key.name = name ∧
      keyPath? (fuel + 1) (name.toList ++ d :: tail) = some ([key], e :: rest) := by
  obtain ⟨key, hkey, hsimple⟩ := simpleKey?_bare h hd tail
  refine ⟨key, hkey, ?_⟩
  obtain ⟨c, cs, hname, hc⟩ := h.cons
  rw [hname, List.cons_append] at hsimple ⊢
  simp [keyPath?, skipSpace_cons (isSpace_of_isBareKeyChar hc), hsimple, hs, he]

end Keys

/-! Lines -/

def pairChars (p : String × Plain) : List Char :=
  p.1.toList ++ ' ' :: '=' :: ' ' :: (p.2.chars ++ ['\n'])

def headerChars (name : String) : List Char := '[' :: (name.toList ++ [']', '\n'])

def Reads (cs : List Char) (ls : List Line) : Prop := ∀ fuel, cs.length < fuel → lines? fuel cs = some ls

theorem reads_nil : Reads [] [] := by
  intro fuel hf
  obtain ⟨fuel, rfl⟩ := Nat.exists_eq_add_one_of_ne_zero (Nat.ne_zero_of_lt hf)
  rfl

theorem value?_chars (v : Plain) (fuel : Nat) (tail : List Char) :
    value? 0 (fuel + 1) (skipSpace (' ' :: (v.chars ++ tail))) = scalar? (v.chars ++ tail) := by
  obtain ⟨c, t, hv, hspace, hbracket, hbrace⟩ := v.chars_cons
  have hskip : skipSpace (' ' :: (c :: t ++ tail)) = c :: t ++ tail := skipSpace_cons hspace _
  rw [hv, hskip]
  simp [value?, hbracket, hbrace]

theorem pair?_chars {name : String} (h : IsBare name) (v : Plain) (hv : v.Fits) (rest : List Char) :
    ∃ key span, key.name = name ∧
      pair? (pairChars (name, v) ++ rest) = some (.pair [key] (v.node span), '\n' :: rest) := by
  have hchars : pairChars (name, v) ++ rest =
      name.toList ++ ' ' :: '=' :: ' ' :: (v.chars ++ '\n' :: rest) := by
    simp [pairChars]
  obtain ⟨fuel, hfuel⟩ : ∃ fuel, (pairChars (name, v) ++ rest).length = fuel + 1 := by
    refine Nat.exists_eq_add_one_of_ne_zero fun hz => ?_
    simp [hchars] at hz
  obtain ⟨key, hkey, hpath⟩ := keyPath?_bare h (d := ' ') rfl ('=' :: ' ' :: (v.chars ++ '\n' :: rest))
    (e := '=') rfl (by decide) fuel
  refine ⟨key, spanOf (v.chars ++ '\n' :: rest) ('\n' :: rest), hkey, ?_⟩
  rw [pair?, hfuel, hchars, hpath]
  simp only [Option.bind_eq_bind, Option.bind_some, char?, if_true, value?_chars, v.scalar?_chars hv]

theorem header?_chars {name : String} (h : IsBare name) (rest : List Char) :
    ∃ key span, key.name = name ∧
      header? (headerChars name ++ rest) = some (.header [key] span, '\n' :: rest) := by
  obtain ⟨c, cs, hname, hc⟩ := h.cons
  have hchars : headerChars name ++ rest = '[' :: (name.toList ++ ']' :: '\n' :: rest) := by
    simp [headerChars]
  obtain ⟨fuel, hfuel⟩ : ∃ fuel, (name.toList ++ ']' :: '\n' :: rest).length = fuel + 1 := by
    refine Nat.exists_eq_add_one_of_ne_zero fun hz => ?_
    simp at hz
  obtain ⟨key, hkey, hpath⟩ := keyPath?_bare h (d := ']') rfl ('\n' :: rest) (e := ']') rfl
    (by decide) fuel
  refine ⟨key, spanOf (headerChars name ++ rest) ('\n' :: rest), hkey, ?_⟩
  have hone : ∀ tail, name.toList ++ ']' :: '\n' :: rest ≠ '[' :: tail := by
    intro tail he
    rw [hname] at he
    exact ne_of_isBareKeyChar hc rfl (List.cons.inj he).1
  rw [hchars, header?]
  · rw [hfuel, hpath]
    simp only [Option.bind_eq_bind, Option.bind_some, char?, if_true]
  · exact hone

section Steps
variable {cs rest : List Char} {line : Line}

theorem endOfLine?_lineFeed (rest : List Char) : endOfLine? ('\n' :: rest) = some rest := rfl

theorem lines?_header (h : header? ('[' :: cs) = some (line, '\n' :: rest)) (fuel : Nat) :
    lines? (fuel + 1) ('[' :: cs) = (lines? fuel rest).map (line :: ·) := by
  cases hl : lines? fuel rest <;>
    simp [lines?, skipSpace_cons (c := '[') rfl, h, endOfLine?_lineFeed, hl]

theorem lines?_pair {c : Char} (hc : isBareKeyChar c = true)
    (h : pair? (c :: cs) = some (line, '\n' :: rest)) (fuel : Nat) :
    lines? (fuel + 1) (c :: cs) = (lines? fuel rest).map (line :: ·) := by
  have hne := fun d hd => ne_of_isBareKeyChar (d := d) hc hd
  cases hl : lines? fuel rest <;>
    simp [lines?, skipSpace_cons (isSpace_of_isBareKeyChar hc), newline?, hne '#' rfl, hne '[' rfl,
      hne '\n' rfl, hne '\r' rfl, h, endOfLine?_lineFeed, hl]

end Steps

namespace Reads
variable {rest : List Char} {ls : List Line}

theorem blank (h : Reads rest ls) : Reads ('\n' :: rest) ls := by
  intro fuel hf
  obtain ⟨fuel, rfl⟩ := Nat.exists_eq_add_one_of_ne_zero (Nat.ne_zero_of_lt hf)
  exact h fuel (Nat.lt_of_succ_lt_succ hf)

theorem header (h : Reads rest ls) {name : String} (hn : IsBare name) :
    ∃ key span, key.name = name ∧ Reads (headerChars name ++ rest) (.header [key] span :: ls) := by
  obtain ⟨key, span, hkey, hread⟩ := header?_chars hn rest
  refine ⟨key, span, hkey, fun fuel hf => ?_⟩
  obtain ⟨fuel, rfl⟩ := Nat.exists_eq_add_one_of_ne_zero (Nat.ne_zero_of_lt hf)
  have hlen : rest.length < fuel := by
    simp [headerChars] at hf
    omega
  rw [headerChars, List.cons_append] at hread ⊢
  rw [lines?_header hread, h fuel hlen]
  rfl

theorem pair (h : Reads rest ls) {name : String} (hn : IsBare name) {v : Plain} (hv : v.Fits) :
    ∃ key span, key.name = name ∧
      Reads (pairChars (name, v) ++ rest) (.pair [key] (v.node span) :: ls) := by
  obtain ⟨key, span, hkey, hread⟩ := pair?_chars hn v hv rest
  refine ⟨key, span, hkey, fun fuel hf => ?_⟩
  obtain ⟨fuel, rfl⟩ := Nat.exists_eq_add_one_of_ne_zero (Nat.ne_zero_of_lt hf)
  have hlen : rest.length < fuel := by
    simp [pairChars] at hf
    omega
  obtain ⟨c, cs, hname, hc⟩ := hn.cons
  rw [pairChars, hname, List.cons_append, List.cons_append] at hread ⊢
  rw [lines?_pair hc hread, h fuel hlen]
  rfl

end Reads

end Conduit.Toml

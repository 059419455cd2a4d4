import Conduit.Json.Printer
import Conduit.Json.Reader
import Conduit.Proofs.Decimal.Digits

/-!
The text of a value is read back as that value. Each reader is given what the printer wrote, followed by
anything that cannot be taken for more of it.
-/
namespace Conduit.Json

/-! Strings -/

theorem hex4?_hexPad : ∀ n < 32,
    (match hexPad n with
      | [a, b, c, d] => hex4? a b c d
      | _ => none) = some n := by
  decide

def shortEscaped : List Char := ['"', '\\', '\n', '\r', '\t', Char.ofNat 8, Char.ofNat 12]

theorem escapeChar_of_not_short {c : Char} (h : c ∉ shortEscaped) :
    escapeChar c = if c.toNat < 32 then '\\' :: 'u' :: hexPad c.toNat else [c] := by
  have hnat : ∀ n, c ≠ Char.ofNat n → c.toNat ≠ n := fun n hne h => hne (h ▸ (Char.ofNat_toNat c).symm)
  simp only [shortEscaped, List.mem_cons, List.not_mem_nil, or_false, not_or] at h
  obtain ⟨hquote, hslash, hfeed, hreturn, htab, hback, hform⟩ := h
  rw [escapeChar, if_neg hquote, if_neg hslash, if_neg hfeed, if_neg hreturn, if_neg htab,
    if_neg (hnat 8 hback), if_neg (hnat 12 hform)]

/-- A character in a string is read back from its short escape, from its number or as it stands. -/
theorem stringBody?_escapeChar (c : Char) (rest : List Char) :
    stringBody? (escapeChar c ++ rest) = (stringBody? rest).map fun r => (c :: r.1, r.2) := by
  by_cases hshort : c ∈ shortEscaped
  · simp only [shortEscaped, List.mem_cons, List.not_mem_nil, or_false] at hshort
    obtain rfl | rfl | rfl | rfl | rfl | rfl | rfl := hshort <;> rfl
  rw [escapeChar_of_not_short hshort]
  by_cases hlow : c.toNat < 32
  · have hhex := hex4?_hexPad c.toNat hlow
    have hhalf : isHighHalf c.toNat = false ∧ isLowHalf c.toNat = false := by
      simp only [isHighHalf, isLowHalf, Bool.and_eq_false_iff, decide_eq_false_iff_not]
      omega
    rw [if_pos hlow]
    split at hhex
    · rename_i hpad
      rw [hpad]
      simp [stringBody?, hhex, hhalf, Char.ofNat_toNat]
    · cases hhex
  · have hquote : c ≠ '"' := fun h => hshort (h ▸ by decide)
    have hslash : c ≠ '\\' := fun h => hshort (h ▸ by decide)
    rw [if_neg hlow, List.singleton_append, stringBody?, if_neg (by simp [hslash, hlow])]
    · exact hquote
    · rintro _ _ _ _ _ h -
      exact hslash h
    · rintro _ _ h -
      exact hslash h

theorem stringBody?_escaped (cs rest : List Char) :
    stringBody? (cs.flatMap escapeChar ++ '"' :: rest) = some (cs, rest) := by
  induction cs with
  | nil => rfl
  | cons c cs ih =>
    rw [List.flatMap_cons, List.append_assoc, stringBody?_escapeChar, ih]
    rfl

theorem string?_escaped (s : String) (rest : List Char) :
    string? (s.toList.flatMap escapeChar ++ '"' :: rest) = some (s, rest) := by
  rw [string?, stringBody?_escaped]
  simp

/-! Numbers -/

def Stops (rest : List Char) : Prop :=
  ∀ c ∈ rest.head?, Decimal.isDigit c = false ∧ c ≠ '.' ∧ c ≠ 'e' ∧ c ≠ 'E'

theorem stops_nil : Stops [] := nofun

theorem stops_comma (cs : List Char) : Stops (',' :: cs) := by
  simp only [Stops, List.head?_cons, Option.mem_some_iff, forall_eq']
  decide

theorem stops_bracket (cs : List Char) : Stops (']' :: cs) := by
  simp only [Stops, List.head?_cons, Option.mem_some_iff, forall_eq']
  decide

theorem stops_brace (cs : List Char) : Stops ('\x7d' :: cs) := by
  simp only [Stops, List.head?_cons, Option.mem_some_iff, forall_eq']
  decide

section Numbers
variable {rest : List Char} (hr : Stops rest)
include hr

theorem digits?_all {ds : List Char} (hne : ds ≠ []) (hd : ∀ c ∈ ds, Decimal.isDigit c = true) :
    digits? (ds ++ rest) = some (ds, rest) := by
  have htail : rest.takeWhile Decimal.isDigit = [] ∧ rest.dropWhile Decimal.isDigit = rest := by
    cases rest with
    | nil => exact ⟨rfl, rfl⟩
    | cons c rest =>
      have hc := (hr c rfl).1
      simp [hc]
  rw [digits?, List.takeWhile_append_of_pos hd, List.dropWhile_append_of_pos hd, htail.1, htail.2,
    List.append_nil]
  cases ds with
  | nil => exact absurd rfl hne
  | cons d ds => rfl

/-- The digits of a number are its whole part: only zero starts with a zero, and none follows it. -/
theorem intPart?_digits (n : Nat) :
    intPart? (Decimal.digits n ++ rest) = some (Decimal.digits n, rest) := by
  obtain hz | ⟨c, cs, hd, hc⟩ := Decimal.digits_cases n
  · have hhead : rest.head?.any Decimal.isDigit = false := by
      cases rest with
      | nil => rfl
      | cons c rest => exact (hr c rfl).1
    simp [hz, intPart?, hhead]
  · have hall := digits?_all hr (List.cons_ne_nil c cs)
      fun x hx => Decimal.isDigit_of_mem_digits (hd ▸ hx)
    rw [hd, List.cons_append] at *
    rw [intPart?, hall]
    rintro _ h
    exact hc (List.cons.inj h).1

theorem fraction?_stops : fraction? rest = some ([], rest) := by
  cases rest with
  | nil => rfl
  | cons c rest =>
    rw [fraction?]
    rintro _ h
    exact (hr c rfl).2.1 (List.cons.inj h).1

theorem exponent?_stops : exponent? rest = some ([], rest) := by
  cases rest with
  | nil => rfl
  | cons c rest =>
    obtain ⟨-, -, he, hE⟩ := hr c rfl
    rw [exponent?, if_neg (by simp [he, hE])]

theorem number?_of_sign {cs s : List Char} {n : Nat} {v : Int}
    (hs : numberSign cs = (s, Decimal.digits n ++ rest)) (hv : (if s = [] then (n : Int) else -n) = v)
    (hfits : fits v = true) (hz : s = [] ∨ v ≠ 0) : number? cs = some (.int v, rest) := by
  unfold number?
  rw [hs]
  simp only [intPart?_digits hr, fraction?_stops hr, exponent?_stops hr, Decimal.ofDigits_digits,
    Option.bind_eq_bind, Option.bind_some, hv, hfits, hz, and_self, if_true]

theorem number?_signedDigits {n : Int} (hn : fits n = true) :
    number? (Decimal.signedDigits n ++ rest) = some (.int n, rest) := by
  by_cases hneg : n < 0
  · refine number?_of_sign hr (s := ['-']) (n := n.natAbs) ?_ ?_ hn (.inr (by omega))
    · rw [Decimal.signedDigits, if_pos hneg]
      rfl
    · rw [if_neg (List.cons_ne_nil _ _)]
      omega
  · refine number?_of_sign hr (s := []) (n := n.natAbs) ?_ ?_ hn (.inl rfl)
    · obtain ⟨c, cs, hd, hc⟩ := Decimal.digits_cons n.natAbs
      rw [Decimal.signedDigits, if_neg hneg, hd, List.cons_append, numberSign]
      rintro _ h
      rw [(List.cons.inj h).1] at hc
      cases hc
    · rw [if_pos rfl]
      omega

end Numbers

/-! Values -/

mutual

def isWhole : Json → Bool
  | .int n => fits n
  | .decimal _ => false
  | .arr items => wholeItems items
  | .obj fields => wholeFields fields
  | _ => true

def wholeItems : List Json → Bool
  | [] => true
  | v :: rest => v.isWhole && wholeItems rest

def wholeFields : List (String × Json) → Bool
  | [] => true
  | (_, v) :: rest => v.isWhole && wholeFields rest

end

theorem skipSpace_cons {c : Char} (hc : isSpace c = false) (cs : List Char) :
    skipSpace (c :: cs) = c :: cs := by
  simp [skipSpace, hc]

theorem signedDigits_cons (n : Int) :
    ∃ c cs, Decimal.signedDigits n = c :: cs ∧ (c = '-' ∨ Decimal.isDigit c = true) := by
  unfold Decimal.signedDigits
  split
  · exact ⟨_, _, rfl, .inl rfl⟩
  · obtain ⟨c, cs, hd, hc⟩ := Decimal.digits_cons n.natAbs
    exact ⟨c, cs, hd, .inr hc⟩

theorem isSpace_of_isDigit {c : Char} (hc : Decimal.isDigit c = true) : isSpace c = false := by
  simp only [isSpace, Bool.or_eq_false_iff, decide_eq_false_iff_not]
  refine ⟨⟨⟨?_, ?_⟩, ?_⟩, ?_⟩ <;> rintro rfl <;> cases hc

theorem value?_number {c : Char} (hc : c = '-' ∨ Decimal.isDigit c = true) (cs : List Char)
    (fuel : Nat) : value? (fuel + 1) (c :: cs) = number? (c :: cs) := by
  have hspace : isSpace c = false := by
    obtain rfl | hc := hc
    · rfl
    · exact isSpace_of_isDigit hc
  have hne : ∀ d, d ≠ '-' → Decimal.isDigit d = false → c ≠ d := by
    rintro d hminus hd rfl
    obtain h | h := hc
    · exact hminus h
    · rw [hd] at h
      cases h
  rw [value?, skipSpace_cons hspace]
  split
  case h_1 h => cases h
  case h_8 => rfl
  all_goals
    rename_i h
    exact absurd (List.cons.inj h).1 (hne _ (by decide) (by decide))

theorem chars_cons {v : Json} (hv : v.isWhole = true) :
    ∃ c cs, v.chars = c :: cs ∧ isSpace c = false ∧ c ≠ ']' := by
  cases v with
  | bool b => cases b <;> exact ⟨_, _, rfl, rfl, by decide⟩
  | int n =>
    obtain ⟨c, cs, hd, rfl | hc⟩ := signedDigits_cons n
    · exact ⟨_, _, hd, rfl, by decide⟩
    · refine ⟨_, _, hd, isSpace_of_isDigit hc, ?_⟩
      rintro rfl
      cases hc
  | decimal spelling => cases hv
  | _ => exact ⟨_, _, rfl, rfl, by decide⟩

theorem itemChars_cons {v : Json} {vs : List Json} (hv : wholeItems (v :: vs) = true) :
    ∃ c cs, itemChars (v :: vs) = c :: cs ∧ isSpace c = false ∧ c ≠ ']' := by
  obtain ⟨c, cs, hd, hc⟩ := chars_cons (Bool.and_eq_true_iff.mp hv).1
  cases vs with
  | nil => exact ⟨c, cs, hd, hc⟩
  | cons w vs => exact ⟨c, _, by rw [itemChars, hd, List.cons_append], hc⟩

theorem fieldChars_cons (f : String × Json) (fs : List (String × Json)) :
    ∃ cs, fieldChars (f :: fs) = '"' :: cs := by
  cases fs <;> exact ⟨_, rfl⟩

mutual

/-- With fuel for all its characters a value is read back, whatever follows that stops a number. -/
theorem value?_chars : ∀ (v : Json) (_ : v.isWhole = true) {k : Nat} (_ : v.chars.length < k)
    {rest : List Char} (_ : Stops rest), value? k (v.chars ++ rest) = some (v, rest)
  | .null, _, fuel + 1, _, _, _ => rfl
  | .bool true, _, fuel + 1, _, _, _ => rfl
  | .bool false, _, fuel + 1, _, _, _ => rfl
  | .int n, hv, fuel + 1, _, rest, hr => by
    obtain ⟨c, cs, hd, hc⟩ := signedDigits_cons n
    have hnumber := number?_signedDigits hr (n := n) hv
    rw [chars]
    rw [hd, List.cons_append] at hnumber ⊢
    rw [value?_number hc, hnumber]
  | .str s, _, fuel + 1, _, rest, _ => by
    have hstring := string?_escaped s rest
    simp only [chars, stringChars, List.cons_append, List.append_assoc, List.nil_append]
    rw [value?, skipSpace_cons rfl]
    simp only [hstring, Option.map_some]
  | .arr [], _, fuel + 1, _, rest, _ => rfl
  | .arr (v :: items), hv, fuel + 1, hf, rest, _ => by
    have hitems := items?_chars (v :: items) (List.cons_ne_nil _ _) hv (k := fuel) (by
      simp only [chars, List.length_cons, List.length_append] at hf
      omega) rest
    obtain ⟨c, cs, hd, hspace, hc⟩ := itemChars_cons hv
    rw [hd, List.cons_append] at hitems
    simp only [chars, hd, List.cons_append, List.append_assoc, List.nil_append]
    rw [value?, skipSpace_cons rfl]
    simp only [skipSpace_cons hspace]
    split
    · rename_i h
      exact absurd (List.cons.inj h).1 hc
    · rw [hitems]
      rfl
  | .obj [], _, fuel + 1, _, rest, _ => rfl
  | .obj (f :: fields), hv, fuel + 1, hf, rest, _ => by
    have hfields := fields?_chars (f :: fields) (List.cons_ne_nil _ _) hv (k := fuel) (by
      simp only [chars, List.length_cons, List.length_append] at hf
      omega) rest
    obtain ⟨cs, hd⟩ := fieldChars_cons f fields
    rw [hd, List.cons_append] at hfields
    simp only [chars, hd, List.cons_append, List.append_assoc, List.nil_append]
    rw [value?, skipSpace_cons rfl]
    simp only [skipSpace_cons (c := '"') rfl]
    split
    · rename_i h
      exact absurd (List.cons.inj h).1 (by decide)
    · rw [hfields]
      rfl

theorem items?_chars : ∀ (vs : List Json) (_ : vs ≠ []) (_ : wholeItems vs = true) {k : Nat}
    (_ : (itemChars vs).length + 1 < k) (rest : List Char),
    items? k (itemChars vs ++ ']' :: rest) = some (vs, rest)
  | [], h, _, _, _, _ => absurd rfl h
  | [v], _, hv, fuel + 1, hf, rest => by
    rw [wholeItems, wholeItems, Bool.and_true] at hv
    have hvalue := value?_chars v hv (Nat.lt_of_succ_lt_succ hf) (stops_bracket rest)
    rw [itemChars, items?, hvalue]
    rfl
  | v :: w :: vs, _, hv, fuel + 1, hf, rest => by
    obtain ⟨hv, hrest⟩ := Bool.and_eq_true_iff.mp hv
    simp only [itemChars, List.length_append, List.length_cons] at hf
    have hvalue := value?_chars v hv (k := fuel) (by omega)
      (stops_comma (itemChars (w :: vs) ++ ']' :: rest))
    have hitems := items?_chars (w :: vs) (List.cons_ne_nil _ _) hrest (k := fuel) (by omega) rest
    rw [itemChars, List.append_assoc, List.cons_append, items?, hvalue]
    simp only [Option.bind_eq_bind, Option.bind_some, skipSpace_cons (c := ',') rfl, hitems]

theorem fields?_chars : ∀ (fs : List (String × Json)) (_ : fs ≠ []) (_ : wholeFields fs = true)
    {k : Nat} (_ : (fieldChars fs).length + 1 < k) (rest : List Char),
    fields? k (fieldChars fs ++ '\x7d' :: rest) = some (fs, rest)
  | [], h, _, _, _, _ => absurd rfl h
  | [(name, v)], _, hv, fuel + 1, hf, rest => by
    rw [wholeFields, wholeFields, Bool.and_true] at hv
    simp only [fieldChars, stringChars, List.length_append, List.length_cons] at hf
    have hvalue := value?_chars v hv (k := fuel) (by omega) (stops_brace rest)
    have hname := string?_escaped name (':' :: (v.chars ++ '\x7d' :: rest))
    simp only [fieldChars, stringChars, List.cons_append, List.append_assoc, List.nil_append]
    rw [fields?, skipSpace_cons rfl]
    simp only [hname, Option.bind_eq_bind, Option.bind_some, skipSpace_cons (c := ':') rfl, hvalue,
      skipSpace_cons (c := '\x7d') rfl]
  | (name, v) :: f :: fs, _, hv, fuel + 1, hf, rest => by
    obtain ⟨hv, hrest⟩ := Bool.and_eq_true_iff.mp hv
    simp only [fieldChars, stringChars, List.length_append, List.length_cons] at hf
    have hvalue := value?_chars v hv (k := fuel) (by omega)
      (stops_comma (fieldChars (f :: fs) ++ '\x7d' :: rest))
    have hfields := fields?_chars (f :: fs) (List.cons_ne_nil _ _) hrest (k := fuel) (by omega) rest
    have hname := string?_escaped name
      (':' :: (v.chars ++ ',' :: (fieldChars (f :: fs) ++ '\x7d' :: rest)))
    simp only [fieldChars, stringChars, List.cons_append, List.append_assoc, List.nil_append]
    rw [fields?, skipSpace_cons rfl]
    simp only [hname, Option.bind_eq_bind, Option.bind_some, skipSpace_cons (c := ':') rfl, hvalue,
      skipSpace_cons (c := ',') rfl, hfields]

end

theorem parse?_text {v : Json} (hv : v.isWhole = true) : parse? v.text = some v := by
  have hvalue := value?_chars v hv (Nat.lt_succ_self _) stops_nil
  rw [List.append_nil] at hvalue
  simp only [parse?, text, String.toList_ofList, hvalue]
  rfl

/-! Control characters -/

/-- No character of a text controls a terminal; line breaks of all kinds do. -/
def Unbroken (cs : List Char) : Prop := ∀ c ∈ cs, 32 ≤ c.toNat

instance (cs : List Char) : Decidable (Unbroken cs) :=
  List.decidableBAll (fun c : Char => 32 ≤ c.toNat) cs

theorem unbroken_cons {c : Char} {cs : List Char} (hc : 32 ≤ c.toNat) (h : Unbroken cs) :
    Unbroken (c :: cs) :=
  List.forall_mem_cons.mpr ⟨hc, h⟩

theorem unbroken_append {cs ds : List Char} (hc : Unbroken cs) (hd : Unbroken ds) :
    Unbroken (cs ++ ds) :=
  List.forall_mem_append.mpr ⟨hc, hd⟩

theorem unbroken_hexPad : ∀ n < 32, Unbroken (hexPad n) := by
  decide

theorem unbroken_of_shortEscaped : shortEscaped.all (fun c => Unbroken (escapeChar c)) = true := by
  decide

theorem unbroken_escapeChar (c : Char) : Unbroken (escapeChar c) := by
  by_cases hshort : c ∈ shortEscaped
  · exact of_decide_eq_true (List.all_eq_true.mp unbroken_of_shortEscaped c hshort)
  rw [escapeChar_of_not_short hshort]
  split
  · rename_i hlow
    exact unbroken_cons (by decide) (unbroken_cons (by decide) (unbroken_hexPad _ hlow))
  · rename_i hlow
    exact unbroken_cons (Nat.not_lt.mp hlow) nofun

theorem unbroken_stringChars (s : String) : Unbroken (stringChars s) := by
  refine unbroken_cons (by decide) (unbroken_append ?_ (unbroken_cons (by decide) nofun))
  intro c hc
  obtain ⟨d, -, hd⟩ := List.mem_flatMap.mp hc
  exact unbroken_escapeChar d c hd

theorem unbroken_digits (n : Nat) : Unbroken (Decimal.digits n) := by
  intro c hc
  have hdigit := Decimal.isDigit_of_mem_digits hc
  simp only [Decimal.isDigit, Bool.and_eq_true, decide_eq_true_eq] at hdigit
  omega

theorem unbroken_signedDigits (n : Int) : Unbroken (Decimal.signedDigits n) := by
  unfold Decimal.signedDigits
  split
  · exact unbroken_cons (by decide) (unbroken_digits _)
  · exact unbroken_digits _

mutual

theorem unbroken_chars : ∀ (v : Json) (_ : v.isWhole = true), Unbroken v.chars
  | .null, _ | .bool true, _ | .bool false, _ => by decide
  | .int n, _ => unbroken_signedDigits n
  | .str s, _ => unbroken_stringChars s
  | .arr items, hv =>
    unbroken_cons (by decide) (unbroken_append (unbroken_itemChars items hv)
      (unbroken_cons (by decide) nofun))
  | .obj fields, hv =>
    unbroken_cons (by decide) (unbroken_append (unbroken_fieldChars fields hv)
      (unbroken_cons (by decide) nofun))

theorem unbroken_itemChars : ∀ (vs : List Json) (_ : wholeItems vs = true), Unbroken (itemChars vs)
  | [], _ => nofun
  | [v], hv => unbroken_chars v (Bool.and_eq_true_iff.mp hv).1
  | v :: w :: vs, hv => by
    obtain ⟨hv, hrest⟩ := Bool.and_eq_true_iff.mp hv
    exact unbroken_append (unbroken_chars v hv)
      (unbroken_cons (by decide) (unbroken_itemChars (w :: vs) hrest))

theorem unbroken_fieldChars : ∀ (fs : List (String × Json)) (_ : wholeFields fs = true),
    Unbroken (fieldChars fs)
  | [], _ => nofun
  | [(name, v)], hv =>
    unbroken_append (unbroken_stringChars name)
      (unbroken_cons (by decide) (unbroken_chars v (Bool.and_eq_true_iff.mp hv).1))
  | (name, v) :: f :: fs, hv => by
    obtain ⟨hv, hrest⟩ := Bool.and_eq_true_iff.mp hv
    exact unbroken_append (unbroken_stringChars name) (unbroken_cons (by decide)
      (unbroken_append (unbroken_chars v hv)
        (unbroken_cons (by decide) (unbroken_fieldChars (f :: fs) hrest))))

end

theorem unbroken_text {v : Json} (hv : v.isWhole = true) : Unbroken v.text.toList := by
  rw [text, String.toList_ofList]
  exact unbroken_chars v hv

end Conduit.Json

import Conduit.Proofs.Decimal.Digits
import Conduit.Proofs.Text.Blank
import Mathlib.Data.Nat.Digits.Lemmas

/-!
Integers as they are read. Digits are taken one at a time and the range is checked at each of them; what is
read that way are the numerals with a value in the range, however many digits they have.
-/
namespace Conduit.Decimal

structure IsNumeral (ds : List Char) (m : Nat) : Prop where
  nonempty : ds ≠ []
  digits : ∀ c ∈ ds, '0' ≤ c ∧ c ≤ '9'
  value : m = Nat.ofDigits 10 (ds.reverse.map fun c => c.toNat - '0'.toNat)

/-- An integer as it may be written: digits after an optional sign. -/
inductive Denotes : List Char → Int → Prop
  | bare {ds : List Char} {m : Nat} (h : IsNumeral ds m) : Denotes ds m
  | plus {ds : List Char} {m : Nat} (h : IsNumeral ds m) : Denotes ('+' :: ds) m
  | minus {ds : List Char} {m : Nat} (h : IsNumeral ds m) : Denotes ('-' :: ds) (-m)

/-- The line is an integer of 64 bits with a sign, with blanks around it or none. -/
def Holds (line : String) (n : Int) : Prop :=
  ∃ before body after, line.toList = before ++ body ++ after ∧
    (∀ c ∈ before ++ after, Text.isBlank c = true) ∧ Denotes body n ∧ -2 ^ 63 ≤ n ∧ n ≤ 2 ^ 63 - 1

/-! Numerals of any length -/

theorem isDigit_iff {c : Char} : isDigit c = true ↔ '0' ≤ c ∧ c ≤ '9' := by
  simp only [isDigit, Bool.and_eq_true, decide_eq_true_eq, Char.le_def]
  rfl

theorem ofDigits_eq (ds : List Char) : ofDigits ds = Nat.ofDigits 10 (ds.reverse.map digitValue) := by
  induction ds using List.reverseRecOn with
  | nil => rfl
  | append_singleton ds c ih =>
    rw [ofDigits_concat, ih, List.reverse_append, List.reverse_singleton, List.singleton_append,
      List.map_cons, Nat.ofDigits_cons, Nat.add_comm]

theorem ofDigits?_eq_some_iff {ds : List Char} {m : Nat} : ofDigits? ds = some m ↔ IsNumeral ds m := by
  have hall : ds.all isDigit = true ↔ ∀ c ∈ ds, '0' ≤ c ∧ c ≤ '9' := by
    rw [List.all_eq_true]
    exact forall₂_congr fun c _ => isDigit_iff
  rw [ofDigits?, Option.ite_none_right_eq_some, hall, ofDigits_eq, Option.some.injEq]
  exact ⟨fun ⟨⟨hne, hds⟩, hm⟩ => ⟨hne, hds, hm.symm⟩, fun h => ⟨⟨h.nonempty, h.digits⟩, h.value.symm⟩⟩

theorem isNumeral_digits (n : Nat) : IsNumeral (digits n) n := by
  refine ofDigits?_eq_some_iff.mp ?_
  obtain ⟨c, cs, hcons, -⟩ := digits_cons n
  have hne : digits n ≠ [] := hcons ▸ List.cons_ne_nil c cs
  have hall : (digits n).all isDigit = true := List.all_eq_true.mpr fun c hc => isDigit_of_mem_digits hc
  rw [ofDigits?, if_pos ⟨hne, hall⟩, ofDigits_digits]

theorem IsNumeral.isDigit_of_mem {ds : List Char} {m : Nat} (h : IsNumeral ds m) {c : Char} (hc : c ∈ ds) :
    isDigit c = true :=
  isDigit_iff.mpr (h.digits c hc)

theorem IsNumeral.ne_cons {ds rest : List Char} {m : Nat} (h : IsNumeral ds m) {c : Char}
    (hc : isDigit c = false) : ds ≠ c :: rest := by
  rintro rfl
  rw [h.isDigit_of_mem List.mem_cons_self] at hc
  cases hc

def signed (negative : Bool) (m : Nat) : Int := if negative then -m else m

theorem denotes_minus_iff {ds : List Char} {n : Int} :
    Denotes ('-' :: ds) n ↔ ∃ m, IsNumeral ds m ∧ signed true m = n := by
  constructor
  · rintro (h | h | h)
    · exact absurd rfl (h.ne_cons (by decide))
    · exact ⟨_, h, rfl⟩
  · rintro ⟨m, h, rfl⟩
    exact .minus h

theorem denotes_plus_iff {ds : List Char} {n : Int} :
    Denotes ('+' :: ds) n ↔ ∃ m, IsNumeral ds m ∧ signed false m = n := by
  constructor
  · rintro (h | h | h)
    · exact absurd rfl (h.ne_cons (by decide))
    · exact ⟨_, h, rfl⟩
  · rintro ⟨m, h, rfl⟩
    exact .plus h

theorem denotes_bare_iff {cs : List Char} {n : Int} (hminus : ∀ ds, cs = '-' :: ds → False)
    (hplus : ∀ ds, cs = '+' :: ds → False) :
    Denotes cs n ↔ ∃ m, IsNumeral cs m ∧ signed false m = n := by
  constructor
  · intro h
    cases h with
    | bare h => exact ⟨_, h, rfl⟩
    | plus h => exact absurd rfl (hplus _)
    | minus h => exact absurd rfl (hminus _)
  · rintro ⟨m, h, rfl⟩
    exact .bare h

/-! The range, digit by digit -/

theorem fitsInt64_iff {n : Int} : fitsInt64 n = true ↔ -2 ^ 63 ≤ n ∧ n ≤ 2 ^ 63 - 1 := by
  rw [fitsInt64, Bool.and_eq_true, decide_eq_true_iff, decide_eq_true_iff, minInt64, maxInt64]
  norm_num

theorem fitsInt64_signed_of_le {negative : Bool} {m m' : Nat} (hle : m ≤ m')
    (h : fitsInt64 (signed negative m') = true) : fitsInt64 (signed negative m) = true := by
  rw [fitsInt64_iff] at h ⊢
  cases negative <;> simp only [signed, Bool.false_eq_true, if_true, if_false] at h ⊢ <;> omega

theorem pushDigit?_signed (negative : Bool) (m : Nat) (c : Char) :
    pushDigit? negative (signed negative m) c =
      if isDigit c then ofInt64? (signed negative (10 * m + digitValue c)) else none := by
  unfold pushDigit?
  split
  · have hshift : 10 * signed negative m = signed negative (10 * m) := by
      cases negative <;> simp [signed]
    have hpush : (if negative then signed negative (10 * m) - digitValue c
        else signed negative (10 * m) + digitValue c) = signed negative (10 * m + digitValue c) := by
      cases negative
      · simp [signed]
      · simp only [signed, if_true]
        omega
    rw [hshift]
    cases hfits : fitsInt64 (signed negative (10 * m)) with
    | true =>
      simp only [ofInt64?, hfits, if_true, Option.bind_eq_bind, Option.bind_some, hpush]
    | false =>
      -- What has left the range does not come back to it.
      have hlater : fitsInt64 (signed negative (10 * m + digitValue c)) = false := by
        by_contra h
        rw [fitsInt64_signed_of_le (Nat.le_add_right _ _) (Bool.not_eq_false _ ▸ h)] at hfits
        cases hfits
      simp [ofInt64?, hfits, hlater]
  · rfl

theorem le_foldl_digits (ds : List Char) (m : Nat) :
    m ≤ ds.foldl (fun n c => 10 * n + digitValue c) m := by
  induction ds generalizing m with
  | nil => exact Nat.le_refl m
  | cons c ds ih =>
    have hstep : m ≤ 10 * m + digitValue c := by omega
    exact Nat.le_trans hstep (ih _)

/-- The digits that are left are read to their end if they are digits and the value there fits. -/
theorem foldlM_pushDigit? (negative : Bool) (ds : List Char) (m : Nat)
    (hm : fitsInt64 (signed negative m) = true) :
    ds.foldlM (pushDigit? negative) (signed negative m) =
      if ds.all isDigit then
        ofInt64? (signed negative (ds.foldl (fun n c => 10 * n + digitValue c) m))
      else none := by
  induction ds generalizing m with
  | nil => simp [ofInt64?, hm]
  | cons c ds ih =>
    rw [List.foldlM_cons, pushDigit?_signed, List.all_cons, List.foldl_cons]
    cases hc : isDigit c with
    | false => simp
    | true =>
      cases hfits : fitsInt64 (signed negative (10 * m + digitValue c)) with
      | true => simpa [ofInt64?, hfits] using ih _ hfits
      | false =>
        have hend : fitsInt64 (signed negative
            (ds.foldl (fun n c => 10 * n + digitValue c) (10 * m + digitValue c))) = false := by
          by_contra h
          rw [fitsInt64_signed_of_le (le_foldl_digits ds _) (Bool.not_eq_false _ ▸ h)] at hfits
          cases hfits
        simp [ofInt64?, hfits, hend]

/-- Giving up at the first step out of the range loses no integer that fits. -/
theorem ofDigits64?_eq (negative : Bool) (ds : List Char) :
    ofDigits64? negative ds = ((ofDigits? ds).map (signed negative)).filter fitsInt64 := by
  have hzero : fitsInt64 (signed negative 0) = true := by cases negative <;> decide
  have hstart : (0 : Int) = signed negative 0 := by cases negative <;> rfl
  unfold ofDigits64? ofDigits?
  by_cases hne : ds = []
  · simp [hne]
  · rw [if_neg hne, hstart, foldlM_pushDigit? negative ds 0 hzero]
    by_cases hall : ds.all isDigit = true
    · rw [if_pos hall, if_pos ⟨hne, hall⟩]
      rfl
    · rw [if_neg hall, if_neg fun h => hall h.2]
      rfl

theorem ofDigits64?_eq_some_iff {negative : Bool} {ds : List Char} {n : Int} :
    ofDigits64? negative ds = some n ↔
      (∃ m, IsNumeral ds m ∧ signed negative m = n) ∧ -2 ^ 63 ≤ n ∧ n ≤ 2 ^ 63 - 1 := by
  rw [ofDigits64?_eq, Option.filter_eq_some_iff, Option.map_eq_some_iff, fitsInt64_iff]
  simp only [ofDigits?_eq_some_iff]

theorem int64?_eq_some_iff {s : String} {n : Int} :
    int64? s = some n ↔ Denotes s.toList n ∧ -2 ^ 63 ≤ n ∧ n ≤ 2 ^ 63 - 1 := by
  unfold int64?
  split
  · rename_i rest hs
    rw [ofDigits64?_eq_some_iff, hs, denotes_minus_iff]
  · rename_i rest hs
    rw [ofDigits64?_eq_some_iff, hs, denotes_plus_iff]
  · rename_i hminus hplus
    rw [ofDigits64?_eq_some_iff, denotes_bare_iff hminus hplus]

example : int64? "-9223372036854775808" = some (-2 ^ 63) ∧ int64? "9223372036854775808" = none := by
  decide +kernel

/-! Integers between blanks -/

theorem isBlank_of_isDigit {c : Char} (h : isDigit c = true) : Text.isBlank c = false := by
  simp only [isDigit, Bool.and_eq_true, decide_eq_true_eq] at h
  simp only [Text.isBlank, Text.blankRanges, List.any_cons, List.any_nil, Bool.or_eq_false_iff,
    Bool.and_eq_false_iff, decide_eq_false_iff_not, and_true]
  omega

theorem Denotes.not_blank {cs : List Char} {n : Int} (h : Denotes cs n) :
    ∀ c ∈ cs, Text.isBlank c = false := by
  have hdigits : ∀ {ds m}, IsNumeral ds m → ∀ c ∈ ds, Text.isBlank c = false :=
    fun h c hc => isBlank_of_isDigit (h.isDigit_of_mem hc)
  cases h with
  | bare h => exact hdigits h
  | plus h => exact List.forall_mem_cons.mpr ⟨by decide, hdigits h⟩
  | minus h => exact List.forall_mem_cons.mpr ⟨by decide, hdigits h⟩

theorem int64?_trim_eq_some_iff {line : String} {n : Int} :
    int64? (Text.trim line) = some n ↔ Holds line n := by
  rw [int64?_eq_some_iff]
  constructor
  · rintro ⟨hd, hn⟩
    obtain ⟨before, after, hline, hblank⟩ := Text.exists_trim line
    exact ⟨before, _, after, hline, hblank, hd, hn⟩
  · rintro ⟨before, body, after, hline, hblank, hd, hn⟩
    rw [Text.trim_surrounded hline hblank hd.not_blank, String.toList_ofList]
    exact ⟨hd, hn⟩

theorem denotes_intText (n : Int) : Denotes (intText n).toList n := by
  rw [intText, String.toList_ofList, signedDigits]
  split
  · have hn : n = -(n.natAbs : Int) := by omega
    rw [hn, Int.natAbs_neg, Int.natAbs_natCast]
    exact .minus (isNumeral_digits _)
  · have hn : n = (n.natAbs : Int) := by omega
    rw [hn, Int.natAbs_natCast]
    exact .bare (isNumeral_digits _)

/-- What is written of an integer is held by every line that has only blanks beside it. -/
theorem holds_intText {line : String} {n : Int} {before after : List Char}
    (hn : -2 ^ 63 ≤ n ∧ n ≤ 2 ^ 63 - 1) (hline : line.toList = before ++ (intText n).toList ++ after)
    (hblank : ∀ c ∈ before ++ after, Text.isBlank c = true) : Holds line n :=
  ⟨before, _, after, hline, hblank, denotes_intText n, hn⟩

end Conduit.Decimal

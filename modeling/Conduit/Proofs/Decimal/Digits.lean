import Conduit.Decimal.Basic

/-!
Numerals as they are written: decimal digits without leading zeros, whose value is the number.
-/
namespace Conduit.Decimal

theorem isDigit_digitChar {d : Nat} (h : d < 10) : isDigit (digitChar d) = true := by
  decide +revert

theorem digitValue_digitChar {d : Nat} (h : d < 10) : digitValue (digitChar d) = d := by
  decide +revert

theorem digitChar_ne_zero {d : Nat} (h : d < 10) (hd : 0 < d) : digitChar d ≠ '0' := by
  decide +revert

theorem isDigit_of_mem_digits {n : Nat} {c : Char} (hc : c ∈ digits n) : isDigit c = true := by
  fun_induction digits n with
  | case1 n h => exact List.mem_singleton.mp hc ▸ isDigit_digitChar h
  | case2 n h ih =>
    rcases List.mem_append.mp hc with hc | hc
    · exact ih hc
    · exact List.mem_singleton.mp hc ▸ isDigit_digitChar (Nat.mod_lt n (by decide))

theorem ofDigits_concat (cs : List Char) (c : Char) :
    ofDigits (cs ++ [c]) = 10 * ofDigits cs + digitValue c :=
  List.foldl_append

theorem ofDigits_digits (n : Nat) : ofDigits (digits n) = n := by
  fun_induction digits n with
  | case1 n h => simp [ofDigits, digitValue_digitChar h]
  | case2 n h ih =>
    rw [ofDigits_concat, ih, digitValue_digitChar (Nat.mod_lt n (by decide))]
    exact Nat.div_add_mod n 10

theorem digits_cases (n : Nat) : digits n = ['0'] ∨ ∃ c cs, digits n = c :: cs ∧ c ≠ '0' := by
  fun_induction digits n with
  | case1 n h =>
    cases n with
    | zero => exact .inl rfl
    | succ n => exact .inr ⟨_, [], rfl, digitChar_ne_zero h n.succ_pos⟩
  | case2 n h ih =>
    obtain hz | ⟨c, cs, hd, hc⟩ := ih
    · have hn := ofDigits_digits (n / 10)
      rw [hz] at hn
      have : n / 10 = 0 := hn.symm
      omega
    · exact .inr ⟨c, cs ++ [digitChar (n % 10)], by rw [hd]; rfl, hc⟩

theorem digits_cons (n : Nat) : ∃ c cs, digits n = c :: cs ∧ isDigit c = true := by
  obtain hz | ⟨c, cs, hd, -⟩ := digits_cases n
  · exact ⟨'0', [], hz, rfl⟩
  · exact ⟨c, cs, hd, isDigit_of_mem_digits (hd ▸ List.mem_cons_self)⟩

end Conduit.Decimal

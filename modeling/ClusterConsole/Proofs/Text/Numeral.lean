/-
Decimal numerals: `ofNat` writes digits, at least one and none of them a needless zero in front,
and their value is the number (`foldl_ofNat`).
-/
import ClusterConsole.Proofs.Text.Blank

namespace ClusterConsole.Text

theorem isDigit_iff {c : Char} : c.isDigit = true ↔ 48 ≤ c.toNat ∧ c.toNat ≤ 57 := by
  simp [Char.isDigit, UInt32.le_iff_toNat_le]

theorem isBlank_of_isDigit {c : Char} (h : c.isDigit = true) : isBlank c = false := by
  have hc := isDigit_iff.1 h
  by_contra hb
  simp [isBlank, blankRanges] at hb
  omega

theorem isDigit_of_mem_ofNat {n : Nat} {c : Char} (h : c ∈ ofNat n) : c.isDigit = true :=
  Nat.isDigit_of_mem_toDigits (by decide) (by decide) h

theorem ofNat_ne_nil (n : Nat) : ofNat n ≠ [] := Nat.toDigits_ne_nil

theorem trim_ofNat (n : Nat) : (ofNat n).trim = ofNat n := by
  have hdigit : ∀ c ∈ ofNat n, isBlank c = false := fun c hc =>
    isBlank_of_isDigit (isDigit_of_mem_ofNat hc)
  refine trim_eq_self_iff.2 ⟨?_, ?_⟩
  · intro c hc
    exact hdigit c (List.mem_of_mem_head? hc)
  · intro c hc
    exact hdigit c (List.mem_of_mem_getLast? hc)

/-- The value of the digits is the number. -/
theorem foldl_ofNat (n : Nat) :
    (ofNat n).foldl (fun n c => n * 10 + (c.toNat - '0'.toNat)) 0 = n := by
  have h := Nat.ofDigitChars_ten_toDigits (n := n)
  rw [Nat.ofDigitChars_eq_foldl] at h
  simpa [ofNat, Nat.mul_comm] using h

/-- Only the numeral of zero begins with a zero. -/
theorem length_ofNat_of_zero {n : Nat} {ds : Text} (h : ofNat n = '0' :: ds) : ds = [] := by
  induction n using Nat.strong_induction_on generalizing ds with
  | _ n ih =>
    by_cases hn : n < 10
    · rw [ofNat, Nat.toDigits_of_lt_base hn] at h
      exact (List.cons.inj h).2.symm
    · rw [ofNat, Nat.toDigits_of_base_le (by decide) (by omega)] at h
      have hlt : n / 10 < n := by omega
      cases hq : ofNat (n / 10) with
      | nil => exact absurd hq (ofNat_ne_nil _)
      | cons d ds' =>
        rw [show Nat.toDigits 10 (n / 10) = d :: ds' from hq, List.cons_append] at h
        obtain ⟨rfl, -⟩ := List.cons.inj h
        have hnil := ih _ hlt hq
        -- a single digit zero is the numeral of zero, and `n` is at least ten
        have hval := foldl_ofNat (n / 10)
        rw [hq, hnil] at hval
        simp at hval
        omega

end ClusterConsole.Text

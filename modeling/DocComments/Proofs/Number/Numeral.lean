import DocComments.Number.Numeral
import DocComments.Proofs.Text.Blank
import DocComments.Text.Word
import Mathlib.Data.List.TakeWhile

/-! Digits read back. A number is what its digits tell, and they are no longer than they have to be. -/
namespace DocComments
open Text

theorem isBlank_of_isAsciiDigit {c : Char} (h : isAsciiDigit c) : isBlank c = false := by
  refine Bool.eq_false_iff.mpr fun hb => ?_
  simp only [isAsciiDigit, isBlank, Bool.or_eq_true, Bool.and_eq_true, decide_eq_true_eq, beq_iff_eq,
    Char.le_def, UInt32.le_iff_toNat_le, Char.toNat_val, ← Char.toNat_inj] at h hb
  simp only [Char.reduceToNat] at h hb
  omega

theorem ne_of_isAsciiDigit {c d : Char} (hc : isAsciiDigit c) (hd : isAsciiDigit d = false) : c ≠ d := by
  rintro rfl
  rw [hc] at hd
  cases hd

def EndsDigits (rest : List Char) : Prop :=
  ∀ c ∈ rest.head?, isAsciiDigit c = false

theorem endsDigits_cons {c : Char} (h : isAsciiDigit c = false) (rest : List Char) : EndsDigits (c :: rest) := by
  rintro _ ⟨⟩
  exact h

theorem takeWhile_digits {digits rest : List Char} (hd : ∀ c ∈ digits, isAsciiDigit c) (hr : EndsDigits rest) :
    (digits ++ rest).takeWhile isAsciiDigit = digits := by
  rw [List.takeWhile_append_of_pos hd]
  cases rest with
  | nil => simp
  | cons c rest => simp [hr c rfl]

theorem dropWhile_digits {digits rest : List Char} (hd : ∀ c ∈ digits, isAsciiDigit c) (hr : EndsDigits rest) :
    (digits ++ rest).dropWhile isAsciiDigit = rest := by
  rw [List.dropWhile_append_of_pos hd]
  cases rest with
  | nil => rfl
  | cons c rest => simp [hr c rfl]

namespace Numeral

theorem isAsciiDigit_of_mem_digits {n : Nat} {c : Char} (h : c ∈ digits n) : isAsciiDigit c :=
  Nat.isDigit_of_mem_toDigits (by decide) (by decide) h

theorem ofDigits_replicate_append (count n : Nat) :
    ofDigits (List.replicate count '0' ++ digits n) = n := by
  have h : Nat.ofDigitChars 10 (List.replicate count '0' ++ Nat.toDigits 10 n) 0 = n := by
    rw [Nat.ofDigitChars_append, Nat.ofDigitChars_replicate_zero, Nat.mul_zero, Nat.ofDigitChars_ten_toDigits]
  exact h

theorem ofDigits_digits (n : Nat) : ofDigits (digits n) = n :=
  ofDigits_replicate_append 0 n

/-- Only zero starts with the digit zero. -/
theorem eq_zero_of_head?_digits {n : Nat} (h : (digits n).head? = some '0') : n = 0 := by
  have hsmall : ∀ n < 10, Nat.digitChar n = '0' → n = 0 := by decide
  induction n using Nat.strongRecOn with
  | ind n ih =>
    rcases Nat.lt_or_ge n 10 with hlt | hge
    · rw [digits, Nat.toDigits_of_lt_base hlt] at h
      exact hsmall n hlt (Option.some.inj h)
    · rw [digits, Nat.toDigits_of_base_le (by decide) hge, List.head?_append_of_ne_nil _ Nat.toDigits_ne_nil] at h
      have := ih (n / 10) (by omega) h
      omega

end Numeral
end DocComments

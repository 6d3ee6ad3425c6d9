import Mathlib.Data.Nat.Digits.Defs
import Mathlib.Tactic.IntervalCases

/-! # The digits of a number

A number is written without a needless zero at its front, and read back digit by digit.
-/

namespace LineCompletion

/-- The characters of a number in base ten. -/
def digitsOf (n : Nat) : List Char :=
  (toString n).toList

theorem digitsOf_eq (n : Nat) : digitsOf n = Nat.toDigits 10 n := by
  rw [digitsOf, Nat.toString_eq_ofList_toDigits, String.toList_ofList]

theorem isDigit_of_mem_digitsOf {n : Nat} {c : Char} (member : c ∈ digitsOf n) :
    c.isDigit = true := by
  rw [digitsOf_eq] at member
  exact Nat.isDigit_of_mem_toDigits (by decide) (by decide) member

theorem digitsOf_ne_nil (n : Nat) : digitsOf n ≠ [] := by
  rw [digitsOf_eq]
  exact Nat.toDigits_ne_nil

theorem foldl_digitsOf (n : Nat) :
    (digitsOf n).foldl (fun value c => value * 10 + (c.toNat - '0'.toNat)) 0 = n := by
  have read := Nat.ofDigitChars_ten_toDigits (n := n)
  rw [Nat.ofDigitChars_eq_foldl, ← digitsOf_eq] at read
  simpa only [Nat.mul_comm] using read

theorem head?_digitsOf {n : Nat} (positive : 0 < n) : (digitsOf n).head? ≠ some '0' := by
  rw [digitsOf_eq]
  induction n using Nat.strong_induction_on with
  | _ n ih =>
      rw [Nat.toDigits_eq_if (by decide)]
      split
      · rename_i small
        interval_cases n <;> decide
      · rename_i large
        have front := ih (n / 10) (by omega) (by omega)
        obtain ⟨c, cs, digits⟩ := List.exists_cons_of_ne_nil
          (Nat.toDigits_ne_nil : Nat.toDigits 10 (n / 10) ≠ [])
        rw [digits] at front ⊢
        exact front

end LineCompletion

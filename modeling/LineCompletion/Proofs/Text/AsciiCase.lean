import Mathlib
import LineCompletion.Text.Character

/-! # Lowercase and the case of ASCII letters

Texts that are equal up to the case of ASCII letters have the same lowercase form. The rule for a
final sigma looks at neighbouring letters, but never at their case.
-/

namespace LineCompletion.Text

theorem letter_range {c : Char} (letter : c.isAlpha = true) :
    (65 ≤ c.toNat ∧ c.toNat ≤ 90) ∨ (97 ≤ c.toNat ∧ c.toNat ≤ 122) := by
  simpa [Char.isAlpha, Char.isUpper, Char.isLower, UInt32.le_iff_toNat_le] using letter

theorem toLower_eq_self {c : Char} (other : ¬ c.isAlpha = true) : c.toLower = c := by
  refine Char.toLower_eq_of_not_isUpper fun upper => other ?_
  simp [Char.isAlpha, upper]

theorem isCaseIgnorable_of_letter {c : Char} (letter : c.isAlpha = true) :
    isCaseIgnorable c = false := by
  have range := letter_range letter
  have ascii : c.toNat < 128 := by omega
  have grave : c.toNat ≠ 96 := by omega
  have other (d : Char) (mark : d.isAlpha = false) : c ≠ d := by
    rintro rfl
    simp [mark] at letter
  simp [isCaseIgnorable, ascii, grave, other '\'' (by decide), other '.' (by decide),
    other ':' (by decide), other '^' (by decide)]

theorem isCaseIgnorable_toLower (c : Char) : isCaseIgnorable c.toLower = isCaseIgnorable c := by
  by_cases letter : c.isAlpha = true
  · rw [isCaseIgnorable_of_letter letter, isCaseIgnorable_of_letter (by simpa using letter)]
  · rw [toLower_eq_self letter]

theorem isCased_of_letter {c : Char} (letter : c.isAlpha = true) : isCased c = true := by
  have range := letter_range letter
  have ascii : c.toNat < 128 := by omega
  simp [isCased, ascii, letter]

theorem isCased_toLower (c : Char) : isCased c.toLower = isCased c := by
  by_cases letter : c.isAlpha = true
  · rw [isCased_of_letter letter, isCased_of_letter (by simpa using letter)]
  · rw [toLower_eq_self letter]

theorem lowerChar_of_letter {c : Char} (letter : c.isAlpha = true) : lowerChar c = [c.toLower] := by
  have range := letter_range letter
  have ascii : c.toNat < 128 := by omega
  simp [lowerChar, ascii]

theorem lowerChar_toLower (c : Char) : lowerChar c.toLower = lowerChar c := by
  by_cases letter : c.isAlpha = true
  · rw [lowerChar_of_letter letter, lowerChar_of_letter (by simpa using letter)]
    simp
  · rw [toLower_eq_self letter]

theorem toLower_beq_sigma (c : Char) : (c.toLower == 'Σ') = (c == 'Σ') := by
  by_cases letter : c.isAlpha = true
  · have other (d : Char) (letter : d.isAlpha = true) : (d == 'Σ') = false := by
      rw [beq_eq_false_iff_ne]
      rintro rfl
      revert letter
      decide
    rw [other c letter, other c.toLower (by simpa using letter)]
  · rw [toLower_eq_self letter]

theorem meetsCased_map_toLower (cs : List Char) :
    meetsCased (cs.map Char.toLower) = meetsCased cs := by
  have ignorable : isCaseIgnorable ∘ Char.toLower = isCaseIgnorable :=
    funext isCaseIgnorable_toLower
  unfold meetsCased
  rw [List.dropWhile_map, ignorable]
  cases cs.dropWhile isCaseIgnorable with
  | nil => rfl
  | cons c rest => exact isCased_toLower c

/-- Lowercase does not depend on the case of ASCII letters, before a text or in it. -/
theorem lowerAfter_map_toLower (before cs : List Char) :
    lowerAfter (before.map Char.toLower) (cs.map Char.toLower) = lowerAfter before cs := by
  induction cs generalizing before with
  | nil => rfl
  | cons c rest ih =>
      have tail := ih (c :: before)
      rw [List.map_cons] at tail
      simp only [List.map_cons, lowerAfter, toLower_beq_sigma, meetsCased_map_toLower,
        lowerChar_toLower, tail]

theorem lower_eq_of_equalAsciiCase {a b : String} (equal : equalAsciiCase a b = true) :
    lower a = lower b := by
  have folded : a.toList.map Char.toLower = b.toList.map Char.toLower := by
    simpa [equalAsciiCase] using equal
  have step := congrArg (lowerAfter []) folded
  have left := lowerAfter_map_toLower [] a.toList
  have right := lowerAfter_map_toLower [] b.toList
  simp only [List.map_nil] at left right
  rw [left, right] at step
  rw [lower, lower, step]

theorem equalAsciiCase_trans {a b c : String} (left : equalAsciiCase a c = true)
    (right : equalAsciiCase b c = true) : equalAsciiCase a b = true := by
  simp only [equalAsciiCase, beq_iff_eq] at left right ⊢
  rw [left, right]

end LineCompletion.Text

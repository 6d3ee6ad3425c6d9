import Mathlib.Data.List.TakeWhile
import LineCompletion.Text.Character

/-! # Lowercase of a text that goes on

What follows a text has a say in its lowercase form only at a capital sigma that would be final,
and there only through whether a cased letter comes next. So the lowercase form of a text is the
beginning of that of a longer text, unless the text ends in such a sigma and a letter follows.
-/

namespace LineCompletion.Text

/-- Whether a cased letter comes first, ignorable characters apart, in a text and what is behind it:
`followed` answers for the latter. -/
def casedAhead (followed : Bool) (cs : List Char) : Bool :=
  match cs.dropWhile isCaseIgnorable with
  | [] => followed
  | c :: _ => isCased c

/-- The form of a capital sigma between two texts. -/
def lowerSigma (behindCased beforeCased : Bool) : Char :=
  if behindCased && !beforeCased then 'ς' else 'σ'

/-- Lowercase of a text after the characters `before`, nearest first, and before a text that begins
with a cased letter or not. -/
def lowerBetween (before : List Char) (followed : Bool) : List Char → List Char
  | [] => []
  | c :: rest =>
    (if c == 'Σ' then [lowerSigma (meetsCased before) (casedAhead followed rest)]
      else lowerChar c) ++
      lowerBetween (c :: before) followed rest

theorem casedAhead_false (cs : List Char) : casedAhead false cs = meetsCased cs := rfl

theorem casedAhead_append (followed : Bool) (left right : List Char) :
    casedAhead followed (left ++ right) = casedAhead (casedAhead followed right) left := by
  induction left with
  | nil => rfl
  | cons c left ih =>
      by_cases ignorable : isCaseIgnorable c = true
      · simpa [casedAhead, ignorable] using ih
      · simp [casedAhead, ignorable]

theorem casedAhead_cons {c : Char} (other : isCaseIgnorable c = false) (followed : Bool)
    (rest : List Char) : casedAhead followed (c :: rest) = isCased c := by
  simp [casedAhead, other]

theorem lowerBetween_false (before cs : List Char) :
    lowerBetween before false cs = lowerAfter before cs := by
  induction cs generalizing before with
  | nil => rfl
  | cons c cs ih =>
      rw [lowerBetween, lowerAfter, ih, casedAhead_false, lowerSigma]
      split
      · split <;> rfl
      · rfl

theorem lowerBetween_append (before : List Char) (followed : Bool) (left right : List Char) :
    lowerBetween before followed (left ++ right) =
      lowerBetween before (casedAhead followed right) left ++
        lowerBetween (left.reverse ++ before) followed right := by
  induction left generalizing before with
  | nil => rfl
  | cons c left ih => simp [lowerBetween, casedAhead_append, ih]

theorem ne_sigma_of_ignorable {c : Char} (ignorable : isCaseIgnorable c = true) : c ≠ 'Σ' := by
  rintro rfl
  have other : isCaseIgnorable 'Σ' = false := by decide +kernel
  simp [other] at ignorable

theorem lowerBetween_of_ignorable {marks : List Char}
    (ignorable : ∀ c ∈ marks, isCaseIgnorable c = true) (before : List Char) (followed : Bool) :
    lowerBetween before followed marks = marks.flatMap lowerChar := by
  induction marks generalizing before with
  | nil => rfl
  | cons c marks ih =>
      obtain ⟨first, others⟩ := List.forall_mem_cons.mp ignorable
      simp [lowerBetween, ne_sigma_of_ignorable first, ih others]

/-! ## The last letter of a text -/

theorem exists_last (cs : List Char) :
    (∀ c ∈ cs, isCaseIgnorable c = true) ∨
      ∃ front c marks, cs = front ++ c :: marks ∧ isCaseIgnorable c = false ∧
        ∀ d ∈ marks, isCaseIgnorable d = true := by
  induction cs with
  | nil => exact .inl (by simp)
  | cons c cs ih =>
      rcases ih with ignorable | ⟨front, last, marks, rfl, other, ignorable⟩
      · by_cases first : isCaseIgnorable c = true
        · exact .inl (List.forall_mem_cons.mpr ⟨first, ignorable⟩)
        · exact .inr ⟨[], c, cs, rfl, by simpa using first, ignorable⟩
      · exact .inr ⟨c :: front, last, marks, rfl, other, ignorable⟩

/-- Whether the last character that is not ignorable is a capital sigma behind a cased letter. It is
final unless a cased letter follows the text. -/
def endsInSigma (cs : List Char) : Bool :=
  match cs.reverse.dropWhile isCaseIgnorable with
  | [] => false
  | c :: before => c == 'Σ' && meetsCased before

theorem endsInSigma_of_ignorable {cs : List Char} (ignorable : ∀ c ∈ cs, isCaseIgnorable c = true) :
    endsInSigma cs = false := by
  have none : cs.reverse.dropWhile isCaseIgnorable = [] := by
    rw [List.dropWhile_eq_nil_iff]
    simpa using ignorable
  simp [endsInSigma, none]

theorem endsInSigma_append {c : Char} (other : isCaseIgnorable c = false) {marks : List Char}
    (ignorable : ∀ d ∈ marks, isCaseIgnorable d = true) (front : List Char) :
    endsInSigma (front ++ c :: marks) = (c == 'Σ' && meetsCased front.reverse) := by
  have last : (front ++ c :: marks).reverse.dropWhile isCaseIgnorable = c :: front.reverse := by
    rw [List.reverse_append, List.reverse_cons, List.append_assoc, List.dropWhile_append_of_pos]
    · simp [other]
    · simpa using ignorable
  rw [endsInSigma, last]

theorem lowerBetween_last {c : Char} (other : isCaseIgnorable c = false) {marks : List Char}
    (ignorable : ∀ d ∈ marks, isCaseIgnorable d = true) (front : List Char) (followed : Bool) :
    lowerBetween [] followed (front ++ c :: marks) =
      lowerBetween [] (isCased c) front ++
        ((if c == 'Σ' then [lowerSigma (meetsCased front.reverse) followed] else lowerChar c) ++
          marks.flatMap lowerChar) := by
  have ahead : casedAhead followed marks = followed := by
    have none : marks.dropWhile isCaseIgnorable = [] := List.dropWhile_eq_nil_iff.mpr ignorable
    simp [casedAhead, none]
  rw [lowerBetween_append, casedAhead_cons other, lowerBetween, ahead,
    lowerBetween_of_ignorable ignorable, List.append_nil]

theorem lowerBetween_congr {cs : List Char} (stays : endsInSigma cs = false) :
    lowerBetween [] true cs = lowerBetween [] false cs := by
  rcases exists_last cs with ignorable | ⟨front, c, marks, rfl, other, ignorable⟩
  · rw [lowerBetween_of_ignorable ignorable, lowerBetween_of_ignorable ignorable]
  · rw [endsInSigma_append other ignorable] at stays
    rw [lowerBetween_last other ignorable, lowerBetween_last other ignorable]
    by_cases sigma : c = 'Σ'
    · have alone : meetsCased front.reverse = false := by simpa [sigma] using stays
      simp [lowerSigma, alone]
    · simp [sigma]

theorem lowerBetween_turns {cs : List Char} (turns : endsInSigma cs = true) :
    ∃ front marks, lowerBetween [] false cs = front ++ 'ς' :: marks ∧
      lowerBetween [] true cs = front ++ 'σ' :: marks := by
  rcases exists_last cs with ignorable | ⟨front, c, marks, rfl, other, ignorable⟩
  · rw [endsInSigma_of_ignorable ignorable] at turns
    simp at turns
  · rw [endsInSigma_append other ignorable, Bool.and_eq_true, beq_iff_eq] at turns
    obtain ⟨rfl, cased⟩ := turns
    refine ⟨lowerBetween [] (isCased 'Σ') front, marks.flatMap lowerChar, ?_, ?_⟩
    · rw [lowerBetween_last other ignorable, cased]
      rfl
    · rw [lowerBetween_last other ignorable, cased]
      rfl

/-! ## A text and more of it -/

theorem lowerAfter_append (left right : List Char) :
    lowerAfter [] (left ++ right) =
      lowerBetween [] (meetsCased right) left ++ lowerAfter left.reverse right := by
  rw [← lowerBetween_false, lowerBetween_append, casedAhead_false, lowerBetween_false,
    List.append_nil]

theorem lowerAfter_prefix {left right : List Char}
    (stays : endsInSigma left = true → meetsCased right = false) :
    lowerAfter [] left <+: lowerAfter [] (left ++ right) := by
  have same : lowerBetween [] (meetsCased right) left = lowerAfter [] left := by
    rw [← lowerBetween_false]
    cases cased : meetsCased right with
    | false => rfl
    | true =>
        apply lowerBetween_congr
        by_contra ends
        simp [stays (by simpa using ends)] at cased
  rw [lowerAfter_append, same]
  exact List.prefix_append _ _

theorem lowerAfter_turns {left right : List Char} (ends : endsInSigma left = true)
    (cased : meetsCased right = true) :
    ∃ front rest others, lowerAfter [] left = front ++ 'ς' :: rest ∧
      lowerAfter [] (left ++ right) = front ++ 'σ' :: others := by
  obtain ⟨front, marks, alone, followed⟩ := lowerBetween_turns ends
  refine ⟨front, marks, marks ++ lowerAfter left.reverse right, ?_, ?_⟩
  · rw [← lowerBetween_false, alone]
  · rw [lowerAfter_append, cased, followed, List.append_assoc, List.cons_append]

end LineCompletion.Text

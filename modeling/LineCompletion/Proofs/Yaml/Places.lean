import LineCompletion.Yaml.Write

/-! # Places in a text that is known

What a place tells and where it moves, by the characters that stand there.
-/

namespace LineCompletion.Yaml

theorem exists_run (p : Char → Bool) (cs : List Char) :
    ∃ run rest, cs = run ++ rest ∧ (∀ c ∈ run, p c = true) ∧ ∀ c ∈ rest.head?, p c = false := by
  induction cs with
  | nil => exact ⟨[], [], rfl, by simp, by simp⟩
  | cons c cs ih =>
      cases holds : p c with
      | false => exact ⟨[], c :: cs, rfl, by simp, by simpa using holds⟩
      | true =>
          obtain ⟨run, rest, same, all, ends⟩ := ih
          exact ⟨c :: run, rest, by rw [same, List.cons_append], by simpa [holds] using all, ends⟩

theorem takeWhile_run {p : Char → Bool} {run rest : List Char} (all : ∀ c ∈ run, p c = true)
    (ends : ∀ c ∈ rest.head?, p c = false) : (run ++ rest).takeWhile p = run := by
  rw [List.takeWhile_append_of_pos all]
  cases rest with
  | nil => simp
  | cons c rest => simp [ends c rfl]

theorem length_lt_steps (front back : List Char) : front.length < (front ++ back).length + 1 := by
  rw [List.length_append]
  omega

/-! ## Characters -/

theorem break_cases {c : Char} (ends : isBreak c = true) (printable : isPrintable c = true) :
    c = '\n' ∨ c = '\u2028' ∨ c = '\u2029' := by
  simp only [isBreak, Bool.or_eq_true, beq_iff_eq] at ends
  obtain (((rfl | rfl) | rfl) | rfl) | rfl := ends
  · simp [isPrintable] at printable
  · exact .inl rfl
  · simp [isPrintable] at printable
  · exact .inr (.inl rfl)
  · exact .inr (.inr rfl)

theorem eq_of_isSpace {c : Char} (space : isSpace c = true) (printable : isPrintable c = true) :
    c = ' ' := by
  simp only [isSpace, Bool.or_eq_true, beq_iff_eq] at space
  obtain rfl | rfl := space
  · rfl
  · simp [isPrintable] at printable

@[simp] theorem isGap_eq_false {c : Char} :
    isGap c = false ↔ isSpace c = false ∧ isBreak c = false :=
  Bool.or_eq_false_iff

/-! ## What a place tells -/

namespace Cursor

variable {x y : Char} {run rest : List Char} {i l k : Nat}

theorem skip_eq (n : Nat) :
    (⟨rest, i, l, k⟩ : Cursor).skip n = ⟨rest.drop n, i + n, l, k + n⟩ := rfl

theorem peek_cons : (⟨x :: rest, i, l, k⟩ : Cursor).peek = some x := rfl

theorem peek_one : (⟨x :: rest, i, l, k⟩ : Cursor).peek 1 = rest.head? := by
  cases rest <;> rfl

theorem meets_cons : (⟨x :: rest, i, l, k⟩ : Cursor).meets y = (x == y) := by
  simp [meets, peek_cons]

theorem meets_one : (⟨x :: rest, i, l, k⟩ : Cursor).meets y 1 = (rest.head? == some y) := by
  simp [meets, peek_one]

theorem atSpace_cons : (⟨x :: rest, i, l, k⟩ : Cursor).atSpace = isSpace x := by
  simp [atSpace, peek_cons]

theorem atBreak_cons : (⟨x :: rest, i, l, k⟩ : Cursor).atBreak = isBreak x := by
  simp [atBreak, peek_cons]

theorem atGap_cons : (⟨x :: rest, i, l, k⟩ : Cursor).atGap = isGap x := by
  rw [atGap, atSpace_cons, atBreak_cons, isGap]

theorem atGap_eq : (⟨rest, i, l, k⟩ : Cursor).atGap = gapFollows rest := by
  cases rest with
  | nil => rfl
  | cons x rest => exact atGap_cons

theorem atGap_one : (⟨x :: rest, i, l, k⟩ : Cursor).atGap 1 = gapFollows rest := by
  cases rest with
  | nil => rfl
  | cons y rest => simp [atGap, atSpace, atBreak, peek, gapFollows, isGap]

theorem atMark_of_column (column : k ≠ 0) : (⟨rest, i, l, k⟩ : Cursor).atMark x = false := by
  simp [atMark, column]

theorem atDocumentMark_of_column (column : k ≠ 0) :
    (⟨rest, i, l, k⟩ : Cursor).atDocumentMark = false := by
  simp [atDocumentMark, atMark_of_column column]

/-! ## Where it moves -/

theorem skipWhile_run {p : Char → Bool} (all : ∀ c ∈ run, p c = true)
    (ends : ∀ c ∈ rest.head?, p c = false) :
    (⟨run ++ rest, i, l, k⟩ : Cursor).skipWhile p =
      ⟨rest, i + run.length, l, k + run.length⟩ := by
  simp [skipWhile, skip, takeWhile_run all ends]

theorem skipWhile_none {p : Char → Bool} (ends : ∀ c ∈ rest.head?, p c = false) :
    (⟨rest, i, l, k⟩ : Cursor).skipWhile p = ⟨rest, i, l, k⟩ := by
  have none : ∀ c ∈ ([] : List Char), p c = true := by simp
  exact skipWhile_run none ends

theorem nextLine_cons (ends : isBreak x = true) (printable : isPrintable x = true) :
    (⟨x :: rest, i, l, k⟩ : Cursor).nextLine = ([x], ⟨rest, i + 1, l + 1, 0⟩) := by
  obtain rfl | rfl | rfl := break_cases ends printable <;> rfl

end Cursor

end LineCompletion.Yaml

import LineCompletion.Yaml.Token
import LineCompletion.Proofs.Yaml.Styles

/-! # Characters of a written text

Whatever a text holds, what is written for it holds only characters that may stand in a YAML text.
-/

namespace LineCompletion.Yaml

/-- All characters may stand in a YAML text. -/
def Allowed (cs : List Char) : Prop :=
  ∀ c ∈ cs, isAllowed c = true

variable {cs ds : List Char} {c : Char}

@[simp] theorem allowed_nil : Allowed [] := by simp [Allowed]

@[simp] theorem allowed_cons : Allowed (c :: cs) ↔ isAllowed c = true ∧ Allowed cs := by
  simp [Allowed]

@[simp] theorem allowed_append : Allowed (cs ++ ds) ↔ Allowed cs ∧ Allowed ds := by
  simp only [Allowed, List.mem_append, or_imp, forall_and]

theorem isAllowed_of_isPrintable (printable : isPrintable c = true) : isAllowed c = true := by
  simp only [isPrintable, isAllowed, Bool.or_eq_true, Bool.and_eq_true, beq_iff_eq,
    decide_eq_true_eq] at printable ⊢
  omega

theorem allowed_of_printable (printable : ∀ c ∈ cs, isPrintable c = true) : Allowed cs :=
  fun c member => isAllowed_of_isPrintable (printable c member)

theorem allowed_spaces (n : Nat) : Allowed (spaces n) := by
  intro c member
  rw [List.eq_of_mem_replicate member]
  rfl

theorem allowed_singleChars (m : Nat) (broken : Bool) (allowed : Allowed cs) :
    Allowed (singleChars m broken cs) := by
  induction cs generalizing broken with
  | nil => cases broken <;> simp [singleChars, allowed_spaces]
  | cons c rest ih =>
      obtain ⟨first, later⟩ := allowed_cons.mp allowed
      rw [singleChars]
      split
      · refine allowed_append.mpr ⟨?_, allowed_cons.mpr ⟨first, ih true later⟩⟩
        split <;> simp [isAllowed]
      · refine allowed_append.mpr ⟨allowed_append.mpr ⟨?_, ?_⟩, ih false later⟩
        · cases broken <;> simp [allowed_spaces]
        · have quote : isAllowed '\'' = true := rfl
          split
          · simp [quote]
          · simp [first]

theorem allowed_blockChars (m : Nat) (lineStart : Bool) (allowed : Allowed cs) :
    Allowed (blockChars m lineStart cs) := by
  induction cs generalizing lineStart with
  | nil => simp [blockChars]
  | cons c rest ih =>
      obtain ⟨first, later⟩ := allowed_cons.mp allowed
      rw [blockChars]
      split
      · exact allowed_cons.mpr ⟨first, ih true later⟩
      · refine allowed_append.mpr ⟨?_, allowed_cons.mpr ⟨first, ih false later⟩⟩
        cases lineStart <;> simp [allowed_spaces]

theorem allowed_blockHints (cs : List Char) : Allowed (blockHints cs) := by
  rw [blockHints]
  refine allowed_append.mpr ⟨?_, ?_⟩
  · split <;> simp [isAllowed]
  · split
    · simp [isAllowed]
    · split <;> simp [isAllowed]
    · split
      · simp [isAllowed]
      · split <;> simp [isAllowed]

theorem allowed_hexDigits (width n : Nat) : Allowed (hexDigits width n) := by
  have digit : ∀ d : Fin 16, isAllowed (Nat.digitChar d).toUpper = true := by decide
  have digits : Allowed ((Nat.toDigits 16 n).map Char.toUpper) := by
    induction n using Nat.strongRecOn with
    | _ n ih =>
        rw [Nat.toDigits_eq_if (by decide)]
        split
        · rename_i small
          simpa using digit ⟨n, small⟩
        · have last := digit ⟨n % 16, Nat.mod_lt n (by decide)⟩
          rw [List.map_append]
          exact allowed_append.mpr ⟨ih (n / 16) (by omega), by simpa using last⟩
  refine allowed_append.mpr ⟨?_, digits⟩
  intro c member
  rw [List.eq_of_mem_replicate member]
  rfl

theorem allowed_ite {p : Prop} [Decidable p] (holds : p → Allowed cs) (fails : ¬p → Allowed ds) :
    Allowed (if p then cs else ds) := by
  split
  · exact holds ‹_›
  · exact fails ‹_›

theorem allowed_doubleChar (c : Char) : Allowed (doubleChar c) := by
  refine allowed_ite (fun quote => ?_) fun _ => allowed_ite (fun printable => ?_) fun _ => ?_
  · obtain rfl | rfl : c = '"' ∨ c = '\\' := by simpa using quote
    · simp [isAllowed]
    · simp [isAllowed]
  · obtain ⟨printable, -⟩ : isPrintable c = true ∧ isBreak c = false := by simpa using printable
    simp [isAllowed_of_isPrintable printable]
  iterate 12 refine allowed_ite (fun _ => by simp [isAllowed]) fun _ => ?_
  refine allowed_ite (fun _ => ?_) fun _ => allowed_ite (fun _ => ?_) fun _ => ?_
  all_goals
    simp only [List.cons_append, List.nil_append, allowed_cons]
    exact ⟨rfl, rfl, allowed_hexDigits _ _⟩

theorem allowed_scalarText (m : Nat) (s : String) : Allowed (scalarText m s) := by
  have ends : isAllowed '\n' = true := rfl
  rw [scalarText]
  cases style : Style.ofText s with
  | plain =>
      have allowed := allowed_of_printable (bare_of_style style).printable
      simp [allowed, ends]
  | single =>
      have allowed := allowed_of_printable (quotable_of_style style).printable
      have quote : isAllowed '\'' = true := rfl
      simp [allowed_singleChars m false allowed, quote, ends]
  | double =>
      have allowed : Allowed (s.toList.flatMap doubleChar) := by
        intro c member
        obtain ⟨d, -, written⟩ := List.mem_flatMap.mp member
        exact allowed_doubleChar d c written
      have quote : isAllowed '"' = true := rfl
      simp [allowed, quote, ends]
  | block =>
      have allowed := allowed_of_printable (printable_of_block style).2
      have lastLine : Allowed (if s.toList.getLast?.any isBreak then [] else ['\n']) := by
        split <;> simp [ends]
      have mark : isAllowed '|' = true := rfl
      simp [allowed_blockChars m true allowed, allowed_blockHints, lastLine, mark, ends]

end LineCompletion.Yaml

import Mathlib.Data.List.Infix
import LineCompletion.Proofs.Text.FinalSigma
import LineCompletion.Suggest.Match

/-! # Candidates while more is typed

A candidate that matches a text matches what was typed before, since the lowercase form of the
beginning begins the lowercase form of the text. The one exception is a capital sigma at the end of
what was typed: it is final until a letter follows, and then it becomes another letter.
-/

namespace LineCompletion.MatchMode

theorem occursIn_iff {part cs : List Char} : occursIn part cs = true ↔ part <:+: cs := by
  induction cs with
  | nil => simp [occursIn]
  | cons c cs ih => simp [occursIn, ih, List.infix_cons_iff]

/-- Where the lowercase form of what is typed has to stand in that of a candidate. -/
def Stands (mode : MatchMode) (typed candidate : List Char) : Prop :=
  match mode with
  | .leading => typed <+: candidate
  | .anywhere => typed <:+: candidate

theorem admits_iff {mode : MatchMode} {candidate typed : String} :
    mode.admits candidate typed = true ↔
      mode.Stands (Text.lowerAfter [] typed.toList) (Text.lowerAfter [] candidate.toList) := by
  by_cases empty : typed = ""
  · subst empty
    cases mode with
    | leading => simp [admits, Stands, Text.lowerAfter]
    | anywhere => simp [admits, Stands, Text.lowerAfter]
  · cases mode with
    | leading => simp [admits, empty, Stands]
    | anywhere => simp [admits, empty, Stands, occursIn_iff]

theorem admits_self (mode : MatchMode) (typed : String) : mode.admits typed typed = true := by
  rw [admits_iff]
  cases mode with
  | leading => exact List.prefix_rfl
  | anywhere => exact List.infix_rfl

theorem admits_trans {mode : MatchMode} {candidate longer typed : String}
    (first : mode.admits candidate longer = true) (second : mode.admits longer typed = true) :
    mode.admits candidate typed = true := by
  rw [admits_iff] at first second ⊢
  cases mode with
  | leading => exact List.IsPrefix.trans second first
  | anywhere => exact List.IsInfix.trans second first

theorem kept_iff_admits (mode : MatchMode) (typed more : String) :
    (∀ candidate, mode.admits candidate (typed ++ more) = true →
        mode.admits candidate typed = true) ↔ mode.admits (typed ++ more) typed = true := by
  constructor
  · intro kept
    exact kept (typed ++ more) (mode.admits_self _)
  · intro self candidate admitted
    exact admits_trans admitted self

/-- Whether a capital sigma that is final at the end of what is typed is so no longer before what is
typed next. -/
def SigmaTurns (typed more : String) : Prop :=
  Text.endsInSigma typed.toList = true ∧ Text.meetsCased more.toList = true

instance (typed more : String) : Decidable (SigmaTurns typed more) :=
  inferInstanceAs (Decidable (_ ∧ _))

theorem admits_of_not_turns {typed more : String} (stays : ¬ SigmaTurns typed more)
    (mode : MatchMode) : mode.admits (typed ++ more) typed = true := by
  have before : Text.lowerAfter [] typed.toList <+:
      Text.lowerAfter [] (typed.toList ++ more.toList) := by
    apply Text.lowerAfter_prefix
    intro ends
    by_contra cased
    exact stays ⟨ends, by simpa using cased⟩
  rw [admits_iff, String.toList_append]
  cases mode with
  | leading => exact before
  | anywhere => exact before.isInfix

/-- No text begins with both forms of a sigma. -/
theorem not_admits_of_turns {typed more candidate : String} (turns : SigmaTurns typed more)
    (admitted : leading.admits candidate (typed ++ more) = true) :
    leading.admits candidate typed = false := by
  obtain ⟨front, rest, others, short, long⟩ := Text.lowerAfter_turns turns.1 turns.2
  by_contra both
  rw [Bool.not_eq_false, admits_iff, short] at both
  rw [admits_iff, String.toList_append, long] at admitted
  obtain ⟨left, first⟩ := both
  obtain ⟨right, second⟩ := admitted
  have same := first.trans second.symm
  simp only [List.append_assoc, List.cons_append, List.append_cancel_left_eq] at same
  exact absurd (List.cons.inj same).1 (by decide)

/-- Typing more brings no candidate back exactly where no final sigma turns. Where one does, every
candidate for the longer text that must begin with it was missing before, and every one that may
hold it anywhere was there exactly if the longer text itself holds what was typed. -/
theorem kept_while_typing_iff (typed more : String) :
    ((∀ (mode : MatchMode) (candidate : String), mode.admits candidate (typed ++ more) = true →
        mode.admits candidate typed = true) ↔ ¬ SigmaTurns typed more) ∧
      (SigmaTurns typed more →
        (∀ candidate, leading.admits candidate (typed ++ more) = true →
          leading.admits candidate typed = false) ∧
        ((∀ candidate, anywhere.admits candidate (typed ++ more) = true →
            anywhere.admits candidate typed = true) ↔
          Text.lowerAfter [] typed.toList <:+: Text.lowerAfter [] (typed ++ more).toList)) := by
  refine ⟨⟨?_, ?_⟩, ?_⟩
  · intro kept turns
    have admitted := kept .leading (typed ++ more) (admits_self _ _)
    rw [not_admits_of_turns turns (admits_self _ _)] at admitted
    simp at admitted
  · intro stays mode
    exact (kept_iff_admits mode typed more).mpr (admits_of_not_turns stays mode)
  · intro turns
    refine ⟨fun candidate => not_admits_of_turns turns, ?_⟩
    rw [kept_iff_admits, admits_iff]
    rfl

theorem kept_while_typing_iff_middle :
    SigmaTurns "ΜΕΣ" "Α" ∧ leading.admits "ΜΕΣΑΙΟ" "ΜΕΣ" = false := by
  have turns : SigmaTurns "ΜΕΣ" "Α" := by decide +kernel
  have admitted : leading.admits "ΜΕΣΑΙΟ" ("ΜΕΣ" ++ "Α") = true := by decide +kernel
  exact ⟨turns, ((kept_while_typing_iff "ΜΕΣ" "Α").2 turns).1 "ΜΕΣΑΙΟ" admitted⟩

/-- The sigma in the middle of a word is final while the word is typed up to it, so the word is
offered before, not offered then, and offered again after the next letter. -/
theorem candidate_comes_back :
    ¬ ∀ (mode : MatchMode) (candidate typed more : String),
        mode.admits candidate (typed ++ more) = true → mode.admits candidate typed = true := by
  intro kept
  have admitted : leading.admits "ΜΕΣΑ" ("ΜΕΣ" ++ "Α") = true := by decide +kernel
  have refused : leading.admits "ΜΕΣΑ" "ΜΕΣ" = false := by decide +kernel
  rw [kept .leading "ΜΕΣΑ" "ΜΕΣ" "Α" admitted] at refused
  simp at refused

end LineCompletion.MatchMode

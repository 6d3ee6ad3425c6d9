import Mathlib.Data.List.Basic
import LineCompletion.Suggest.Predictions

/-! # Complete words under the cursor

A word under the cursor that is complete leads the walk where it leads as a completed word. So the
suggestions for it are those for the same line with a blank after it.
-/

namespace LineCompletion

variable {σ : Type}

theorem Token.isFlagLike_eq_false_of_isQuoted {token : Token} (quoted : token.isQuoted = true) :
    token.isFlagLike = false := by
  simp [isFlagLike, quoted]

/-- A complete word selects what it selects as a completed one. -/
theorem Walk.consume_of_complete {w next : Walk σ} {token : Token}
    (complete : w.complete token = .consumed next) : w.consume token = next := by
  unfold Walk.complete at complete
  unfold Walk.consume
  cases pending : w.pending with
  | some p =>
      simp only [pending] at complete ⊢
      split at complete
      · exact Completion.consumed.inj complete
      · simp at complete
  | none =>
      simp only [pending] at complete ⊢
      cases assigned : w.assignmentHit token with
      | some found =>
          obtain ⟨hit, assignment⟩ := found
          simp only [assigned] at complete ⊢
          split at complete
          · exact Completion.consumed.inj complete
          · simp at complete
      | none =>
          simp only [assigned] at complete ⊢
          split at complete
          · simp at complete
          · cases keyed : w.findKeyed token.text with
            | some hit =>
                simp only [keyed] at complete ⊢
                exact Completion.consumed.inj complete
            | none =>
                simp only [keyed] at complete ⊢
                split at complete
                · simp at complete
                · -- a quoted word is never like a flag, so the completed word is not skipped either
                  rename_i closedQuote
                  have quoted : token.isQuoted = true := by
                    simp only [Bool.not_eq_true', Bool.not_eq_false,
                      Bool.and_eq_true] at closedQuote
                    exact closedQuote.1
                  cases positional : w.findPositional with
                  | none => simp [positional] at complete
                  | some hit =>
                      simp only [positional,
                        Token.isFlagLike_eq_false_of_isQuoted quoted] at complete ⊢
                      exact Completion.consumed.inj complete

/-- The suggestions after a complete last word do not depend on whether a blank follows it. -/
theorem Suggestor.predict_complete_word (s : Suggestor) (caches : Caches) (clock : Clock)
    (directory : Option String) (command last : Token) (completed : List Token)
    {next : Walk LiveSource}
    (complete : (completed.foldl Walk.consume (Walk.start s.dictionary.parameters)).complete last =
      .consumed next) :
    s.predict caches clock
        { line := { tokens := command :: (completed ++ [last]), trailingSpace := false },
          directory } =
      s.predict caches clock
        { line := { tokens := command :: (completed ++ [last]), trailingSpace := true },
          directory } := by
  have walked := Walk.consume_of_complete complete
  simp only [predict, Dictionary.predictWith, Dictionary.splitCursor]
  split
  · rfl
  · simp [complete, walked]

def Suggestor.withSubcommand : Suggestor where
  dictionary := (Dictionary.ofCommand "git").withParameter (Parameter.command "commit")

theorem Suggestor.predict_complete_word_commit :
    (∃ next, (([] : List Token).foldl Walk.consume
        (Walk.start withSubcommand.dictionary.parameters)).complete (Token.parse "commit") =
          .consumed next) ∧
      withSubcommand.predict {} (fun _ => 0)
          { line := ⟨[Token.parse "git", Token.parse "commit"], false⟩ } =
        withSubcommand.predict {} (fun _ => 0)
          { line := ⟨[Token.parse "git", Token.parse "commit"], true⟩ } :=
  ⟨⟨_, by rfl⟩, predict_complete_word withSubcommand {} (fun _ => 0) none (Token.parse "git")
    (Token.parse "commit") [] (by rfl)⟩

end LineCompletion

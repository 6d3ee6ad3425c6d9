import Mathlib.Data.List.Forall2
import LineCompletion.Proofs.Line.LetterCase
import LineCompletion.Suggest.Predictions

/-! # Suggestions and the case of ASCII letters

A line in small letters leads the walk where the line does and is answered by the same suggestions,
but for the case of the letters they repeat from the line. So lines that differ only in the case of
ASCII letters have the same suggestions up to that case.
-/

namespace LineCompletion

variable {σ : Type}

open Text

namespace MatchMode

theorem admits_fold (mode : MatchMode) (candidate typed : String) :
    mode.admits candidate (fold typed) = mode.admits candidate typed := by
  have empty : (fold typed).isEmpty = typed.isEmpty := by
    rw [Bool.eq_iff_iff, String.isEmpty_iff, String.isEmpty_iff, ← String.toList_eq_nil_iff,
      ← String.toList_eq_nil_iff, toList_fold, List.map_eq_nil_iff]
  have small := lowerAfter_map_toLower [] typed.toList
  rw [List.map_nil] at small
  unfold admits
  rw [empty, toList_fold, small]

end MatchMode

namespace Walk

theorem keyed_fold (text : String) :
    (keyed (fold text) : Bool → Slot σ → Bool) = keyed text := by
  funext innermost s
  simp only [keyed, Parameter.matchesKey, equalAsciiCase_fold]

theorem findKeyedFrom_fold (text : String) (up : Nat) (frames : List (Frame σ)) :
    findKeyedFrom (fold text) up frames = findKeyedFrom text up frames := by
  induction frames generalizing up with
  | nil => rfl
  | cons f rest ih => simp only [findKeyedFrom, keyed_fold, ih]

theorem findKeyed_fold (w : Walk σ) (text : String) :
    w.findKeyed (fold text) = w.findKeyed text :=
  findKeyedFrom_fold text 0 w.frames

theorem assignmentHit_fold (w : Walk σ) (t : Token) :
    w.assignmentHit t.fold = (w.assignmentHit t).map fun r => (r.1, r.2.fold) := by
  unfold assignmentHit
  have assigned : t.fold.assignment = t.assignment.map Assignment.fold := rfl
  rw [assigned]
  cases t.assignment with
  | none => rfl
  | some a =>
      have key : a.fold.key = fold a.key := rfl
      simp only [Option.map_some, key, findKeyed_fold]
      cases w.findKeyed a.key with
      | none => rfl
      | some hit =>
          cases takes : takesAssignment hit.parameter with
          | true => simp [takes]
          | false => simp [takes]

theorem consume_fold (w : Walk σ) (t : Token) : w.consume t.fold = w.consume t := by
  have text : t.fold.text = fold t.text := rfl
  unfold consume
  rw [assignmentHit_fold, text, findKeyed_fold, Token.isFlagLike_fold]
  cases w.pending with
  | some p => rfl
  | none => cases w.assignmentHit t <;> rfl

theorem foldl_consume_fold (w : Walk σ) (tokens : List Token) :
    (tokens.map Token.fold).foldl consume w = tokens.foldl consume w := by
  simp only [List.foldl_map, consume_fold]

end Walk

theorem Walk.assignmentKey_enumerate {w : Walk σ} {flagsOnly : Bool} {p : Parameter σ}
    {assignmentKey : Option String} (member : .values p assignmentKey ∈ w.enumerate flagsOnly) :
    assignmentKey = none := by
  unfold enumerate at member
  cases waiting : w.pending with
  | some q =>
      rw [waiting] at member
      simp at member
      exact member.2
  | none =>
      simp only [waiting, List.mem_append, List.mem_flatMap] at member
      rcases member with ⟨s, -, free⟩ | ⟨f, -, again⟩
      · unfold freeCandidate at free
        split at free <;> [skip; split at free <;> [split at free; skip]] <;> simp at free
        exact free.2
      · simp [recursiveCandidates] at again

/-- The text under the cursor in small letters. -/
def Typed.fold (t : Typed) : Typed :=
  { t with text := Text.fold t.text }

/-- What the word under the cursor is, in small letters. -/
def Completion.fold : Completion σ → Completion σ
  | .consumed walk => .consumed walk
  | .filter typed => .filter typed.fold
  | .values p assignmentKey typed => .values p (assignmentKey.map Text.fold) typed.fold

theorem Walk.complete_fold (w : Walk σ) (t : Token) : w.complete t.fold = (w.complete t).fold := by
  have text : t.fold.text = Text.fold t.text := rfl
  have quote : t.fold.quote = t.quote := rfl
  have closed : t.fold.closed = t.closed := rfl
  have quoted : t.fold.isQuoted = t.isQuoted := rfl
  unfold complete
  simp only [assignmentHit_fold, text, quote, closed, quoted, findKeyed_fold, Token.isFlagLike_fold]
  cases w.pending with
  | some p =>
      cases t.isQuoted && t.closed <;> rfl
  | none =>
      cases w.assignmentHit t with
      | some found =>
          obtain ⟨hit, a⟩ := found
          have value : a.fold.value.quote = a.value.quote ∧ a.fold.value.closed = a.value.closed :=
            ⟨rfl, rfl⟩
          simp only [Option.map_some, value]
          cases a.value.quote != .bare && a.value.closed <;> rfl
      | none =>
          simp only [Option.map_none]
          cases t.closed with
          | false => rfl
          | true =>
              cases w.findKeyed t.text with
              | some hit => rfl
              | none =>
                  cases t.isQuoted with
                  | false => rfl
                  | true => cases w.findPositional <;> rfl

namespace Predictions

/-- A choice with what it repeats from the line in small letters. -/
def foldChoice : Choice σ → Choice σ
  | .key p => .key p
  | .values items assignmentKey => .values items (assignmentKey.map Text.fold)

/-- Predictions with what they repeat from the line in small letters. -/
def fold (p : Predictions σ) : Predictions σ :=
  { p with lead := Text.fold p.lead, typed := p.typed.fold, choices := p.choices.map foldChoice }

end Predictions

def Suggestion.fold (s : Suggestion) : Suggestion :=
  { s with text := Text.fold s.text }

namespace Predictions

theorem fold_ofChoice (p : Predictions σ) (choice : Choice σ) :
    (p.fold.ofChoice (foldChoice choice)).map Suggestion.fold =
      (p.ofChoice choice).map Suggestion.fold := by
  have admits (candidate : String) : p.fold.mode.admits candidate p.fold.typed.text =
      p.mode.admits candidate p.typed.text :=
    MatchMode.admits_fold p.mode candidate p.typed.text
  cases choice with
  | key parameter =>
      have wanted : p.fold.admitsKey = p.admitsKey := by
        funext key
        simp only [admitsKey, admits]
        rfl
      simp only [foldChoice, ofChoice, keySuggestion, wanted]
      cases parameter.keys.find? p.admitsKey with
      | none => rfl
      | some key => simp [Suggestion.fold, fold, Typed.fold, fold_append]
  | values items assignmentKey =>
      simp only [foldChoice, ofChoice, valueSuggestions, admits, List.map_map]
      refine List.map_congr_left fun item member => ?_
      cases assignmentKey with
      | none => simp [valueSuggestion, Suggestion.fold, fold, Typed.fold, fold_append]
      | some key => simp [valueSuggestion, Suggestion.fold, fold, Typed.fold, fold_append]

theorem fold_toList (p : Predictions σ) :
    p.fold.toList.map Suggestion.fold = p.toList.map Suggestion.fold := by
  have buffered : p.fold.buffered = p.buffered := rfl
  have choices : p.fold.choices = p.choices.map foldChoice := rfl
  simp only [toList, buffered, choices, List.map_append, List.map_flatMap, List.flatMap_map,
    fold_ofChoice]

theorem joinWords_fold (words : List String) :
    joinWords (words.map Text.fold) = Text.fold (joinWords words) := by
  rw [← String.toList_inj, joinWords, joinWords, toList_fold, String.toList_intercalate,
    String.toList_intercalate]
  induction words with
  | nil => rfl
  | cons word rest ih =>
      cases rest with
      | nil => simp [List.intercalate]
      | cons next later =>
          simp only [List.map_cons, List.intercalate_cons_cons] at ih ⊢
          rw [ih, List.map_append, List.map_append, toList_fold]
          rfl

theorem foldChoice_enumerate (items : Parameter σ → List Item) (w : Walk σ) (flagsOnly : Bool) :
    ((w.enumerate flagsOnly).map (Candidate.resolve items)).map foldChoice =
      (w.enumerate flagsOnly).map (Candidate.resolve items) := by
  have fixed : ∀ c ∈ w.enumerate flagsOnly,
      foldChoice (Candidate.resolve items c) = Candidate.resolve items c := by
    intro c member
    cases c with
    | key p => rfl
    | values p assignmentKey =>
        obtain rfl : assignmentKey = none := Walk.assignmentKey_enumerate member
        rfl
  rw [List.map_map]
  exact List.map_congr_left fixed

theorem fold_enumerate (lead : String) (typed : Typed) (mode : MatchMode)
    (items : Parameter σ → List Item) (w : Walk σ) (flagsOnly : Bool) :
    Predictions.fold
        { lead, typed, mode, choices := (w.enumerate flagsOnly).map (Candidate.resolve items) } =
      { lead := Text.fold lead, typed := typed.fold, mode
        choices := (w.enumerate flagsOnly).map (Candidate.resolve items) } := by
  simp only [fold, foldChoice_enumerate]

end Predictions

namespace Dictionary

theorem splitCursor_fold (rest : List Token) (trailing : Bool) :
    splitCursor (rest.map Token.fold) trailing =
      ((splitCursor rest trailing).1.map Token.fold,
        (splitCursor rest trailing).2.map Token.fold) := by
  unfold splitCursor
  cases trailing with
  | true => rfl
  | false =>
      rw [List.getLast?_map]
      cases rest.getLast? with
      | none => rfl
      | some last => simp

/-- A line in small letters is answered as the line is, with what is repeated from it in small
letters. -/
theorem predictWith_fold (d : Dictionary σ) (mode : MatchMode) (items : Parameter σ → List Item)
    (tokens : List Token) (trailing : Bool) :
    d.predictWith mode items ⟨tokens.map Token.fold, trailing⟩ =
      (d.predictWith mode items ⟨tokens, trailing⟩).fold := by
  cases tokens with
  | nil => rfl
  | cons command rest =>
      have handles : d.matchesKey (Text.fold command.text) = d.matchesKey command.text := by
        simp only [matchesKey, equalAsciiCase_fold]
      have text : command.fold.text = Text.fold command.text := rfl
      simp only [predictWith, List.map_cons, text, handles, splitCursor_fold,
        Walk.foldl_consume_fold]
      cases d.matchesKey command.text with
      | false => rfl
      | true =>
          cases cursor : splitCursor rest trailing with
          | mk completed current =>
              have raws : command.fold.raw :: (completed.map Token.fold).map (·.raw) =
                  (command.raw :: completed.map (·.raw)).map Text.fold := by
                simp [Token.fold, Word.fold, Function.comp_def]
              have untyped : ({} : Typed).fold = {} := by decide
              cases current with
              | none =>
                  simp only [Option.map_none, raws, Predictions.joinWords_fold, Bool.not_true,
                    Bool.false_eq_true, if_false, Predictions.fold_enumerate, untyped]
              | some token =>
                  have last : [token.fold.raw] = [token.raw].map Text.fold := rfl
                  simp only [Option.map_some, raws, last, ← List.map_append, Bool.not_true,
                    Bool.false_eq_true, if_false, Predictions.joinWords_fold, Walk.complete_fold]
                  cases (completed.foldl Walk.consume (Walk.start d.parameters)).complete token with
                  | consumed walk =>
                      simp only [Completion.fold, Predictions.fold_enumerate, untyped]
                  | filter typed =>
                      simp only [Completion.fold, Predictions.fold_enumerate]
                      rfl
                  | values p assignmentKey typed => rfl

end Dictionary

namespace Suggestor

/-- Lines whose words are equal up to the case of ASCII letters have the same suggestions, one by
one, up to that case. -/
theorem predict_ignores_case (s : Suggestor) (caches : Caches) (clock : Clock)
    (directory : Option String) (trailing : Bool) {first second : List String}
    (alike : List.Forall₂ (fun a b => equalAsciiCase a b = true) first second) :
    List.Forall₂
      (fun a b => a.kind = b.kind ∧ a.description = b.description ∧
        equalAsciiCase a.text b.text = true)
      (s.predict caches clock { line := ⟨first.map Token.parse, trailing⟩, directory }).toList
      (s.predict caches clock
        { line := ⟨second.map Token.parse, trailing⟩, directory }).toList := by
  -- Both lines are compared with the one line that they are in small letters.
  have small (words : List String) :
      (s.predict caches clock
        { line := ⟨words.map Token.parse, trailing⟩, directory }).toList.map Suggestion.fold =
      (s.predict caches clock
        { line := ⟨(words.map Text.fold).map Token.parse, trailing⟩, directory }).toList.map
          Suggestion.fold := by
    have tokens :
        (words.map Text.fold).map Token.parse = (words.map Token.parse).map Token.fold := by
      simp only [List.map_map, Function.comp_def, Token.parse_fold]
    rw [tokens, predict, predict, Dictionary.predictWith_fold, Predictions.fold_toList]
  have words : first.map Text.fold = second.map Text.fold := by
    rw [← List.forall₂_eq_eq_eq, List.forall₂_map_left_iff, List.forall₂_map_right_iff]
    exact alike.imp fun _ _ => equalAsciiCase_iff.mp
  have same := (small first).trans (words ▸ (small second).symm)
  rw [← List.forall₂_eq_eq_eq, List.forall₂_map_left_iff, List.forall₂_map_right_iff] at same
  refine same.imp fun a b equal => ?_
  simp only [Suggestion.fold, Suggestion.mk.injEq] at equal
  exact ⟨equal.2.2, equal.2.1, equalAsciiCase_iff.mpr equal.1⟩

/-- A command with one flag that takes one of two values. -/
def withMode : Suggestor where
  dictionary :=
    { keys := ["git"]
      name := "git"
      parameters := [(Parameter.value ["--mode"] "mode").withSource
        { name := "modes", provider := .fixed [{ name := "Fast" }, { name := "full" }],
          cell := 0 }] }

/-- Both values are offered after a flag in capital letters, which is kept as it was written. -/
theorem predict_ignores_case_capitals :
    List.Forall₂ (fun a b => equalAsciiCase a b = true) ["GIT", "--MODE=F"] ["git", "--mode=f"] ∧
      (withMode.predict {} (fun _ => 0)
        { line := ⟨["GIT", "--MODE=F"].map Token.parse, false⟩ }).toList.map (·.text) =
          ["GIT --MODE=Fast", "GIT --MODE=full"] ∧
      List.Forall₂
        (fun a b => a.kind = b.kind ∧ a.description = b.description ∧
          equalAsciiCase a.text b.text = true)
        (withMode.predict {} (fun _ => 0)
          { line := ⟨["GIT", "--MODE=F"].map Token.parse, false⟩ }).toList
        (withMode.predict {} (fun _ => 0)
          { line := ⟨["git", "--mode=f"].map Token.parse, false⟩ }).toList := by
  have alike : List.Forall₂ (fun a b => equalAsciiCase a b = true)
      ["GIT", "--MODE=F"] ["git", "--mode=f"] := by simp [equalAsciiCase]
  exact ⟨alike, by rfl, predict_ignores_case withMode {} (fun _ => 0) none false alike⟩

end Suggestor

end LineCompletion

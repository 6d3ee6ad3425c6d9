import Mathlib.Data.List.Forall2
import LineCompletion.Proofs.Line.Assigned
import LineCompletion.Proofs.Suggest.Selection

/-! # What a suggestion keeps of the line

A suggestion is the words of the line that are kept, and one more word for what is offered. Split
again, it has these words and that one exactly where every kept word is finished and, for an
assignment, where the key may stand before the value as it is.
-/

namespace LineCompletion

variable {σ : Type}

/-- What a suggestion adds to the line. -/
inductive Insertion where
  /-- A key of a parameter or the name of an item. -/
  | literal (text : String)
  /-- The name of an item behind a key. -/
  | assigned (key value : String)
  deriving Repr, DecidableEq, Inhabited

namespace Insertion

open SplitLine

def text : Insertion → String
  | .literal text => text
  | .assigned key value => key ++ "=" ++ value

def write (quote : Quote) : Insertion → String
  | .literal text => Literal.write text quote
  | .assigned key value => key ++ "=" ++ Literal.write value quote

/-- Whether that word is one word of the line that stands for the offered text. -/
def Stands (quote : Quote) : Insertion → Prop
  | .literal _ => True
  | .assigned key value => Assignment.Stands key.toList value.toList quote

theorem toList_write_ne_nil (i : Insertion) (quote : Quote) : (i.write quote).toList ≠ [] := by
  cases i with
  | literal text =>
      rw [write, Literal.toList_write]
      exact (Literal.chars_form _ _).finished.1
  | assigned key value => simp [write]

theorem stands_iff (i : Insertion) (quote : Quote) :
    (∃ word : String, ofChars (i.write quote).toList = ([word.toList], false) ∧
        (Token.parse word).text = i.text) ↔ i.Stands quote := by
  cases i with
  | literal text =>
      obtain ⟨nonempty, finished⟩ := (Literal.chars_form text.toList quote).finished
      refine iff_of_true ⟨Literal.write text quote, ?_, (Literal.parse_write text quote).1⟩ trivial
      rw [write, Literal.toList_write]
      exact ofChars_of_run nonempty finished
  | assigned key value =>
      rw [Stands, ← Assignment.stands_iff]
      have written : ((assigned key value).write quote).toList =
          key.toList ++ '=' :: Literal.chars value.toList quote := by
        simp [write, Literal.toList_write]
      have offered (word : String) : (Token.parse word).text = (assigned key value).text ↔
          (Token.ofChars word.toList).text.toList = key.toList ++ '=' :: value.toList := by
        rw [Token.parse, ← String.toList_inj]
        simp [text]
      constructor
      · rintro ⟨word, one, read⟩
        exact ⟨word.toList, by rw [← written, one], (offered word).mp read⟩
      · rintro ⟨word, one, read⟩
        refine ⟨String.ofList word, by rw [written, one, String.toList_ofList], ?_⟩
        rw [offered, String.toList_ofList]
        exact read

end Insertion

/-! ## What the suggestions insert -/

namespace Predictions

/-- What a choice inserts: the first wanted key of a parameter, or the matching values. -/
def insertionsOf (p : Predictions σ) : Choice σ → List Insertion
  | .key parameter => (parameter.keys.find? p.admitsKey).toList.map .literal
  | .values items assignmentKey =>
    (items.filter fun item => p.mode.admits item.name p.typed.text).map fun item =>
      match assignmentKey with
      | none => .literal item.name
      | some key => .assigned key item.name

def insertions (p : Predictions σ) : List Insertion :=
  p.choices.flatMap p.insertionsOf

theorem texts_ofChoice (p : Predictions σ) (choice : Choice σ) :
    (p.ofChoice choice).map (·.text) =
      (p.insertionsOf choice).map fun i => p.lead ++ " " ++ i.write p.typed.quote := by
  cases choice with
  | key parameter =>
      cases found : parameter.keys.find? p.admitsKey with
      | none => simp [ofChoice, keySuggestion, insertionsOf, found]
      | some key => simp [ofChoice, keySuggestion, insertionsOf, found, Insertion.write]
  | values items assignmentKey =>
      simp only [ofChoice, valueSuggestions, insertionsOf, List.map_map]
      refine List.map_congr_left fun item member => ?_
      cases assignmentKey with
      | none => simp [valueSuggestion, Insertion.write]
      | some key => simp [valueSuggestion, Insertion.write]

theorem texts_eq {p : Predictions σ} (fresh : p.buffered = []) :
    p.toList.map (·.text) =
      p.insertions.map fun i => p.lead ++ " " ++ i.write p.typed.quote := by
  simp only [toList, fresh, List.nil_append, insertions, List.map_flatMap, texts_ofChoice]

theorem forall₂_texts {p : Predictions σ} (fresh : p.buffered = [])
    {R : String → Insertion → Prop}
    (each : ∀ i ∈ p.insertions, R (p.lead ++ " " ++ i.write p.typed.quote) i) :
    List.Forall₂ (fun suggestion insertion => R suggestion.text insertion) p.toList
      p.insertions := by
  have texts : List.Forall₂ R (p.toList.map (·.text)) p.insertions := by
    rw [texts_eq fresh, List.forall₂_map_left_iff, List.forall₂_same]
    exact each
  exact List.forall₂_map_left_iff.mp texts

end Predictions

namespace Dictionary

theorem eq_of_splitCursor_none {rest completed : List Token} {trailing : Bool}
    (split : splitCursor rest trailing = (completed, none)) : completed = rest := by
  unfold splitCursor at split
  split at split
  · exact (Prod.mk.inj split).1.symm
  · split at split
    · exact (Prod.mk.inj split).1.symm
    · simp at split

theorem eq_of_splitCursor_some {rest completed : List Token} {trailing : Bool} {last : Token}
    (split : splitCursor rest trailing = (completed, some last)) : rest = completed ++ [last] := by
  unfold splitCursor at split
  split at split
  · simp at split
  · split at split
    · simp at split
    · rename_i other found
      obtain ⟨rfl, same⟩ := Prod.mk.inj split
      obtain rfl := Option.some.inj same
      obtain ⟨front, rfl⟩ := List.getLast?_eq_some_iff.mp found
      simp

/-- The words of a line that every suggestion for it keeps: all of them, unless the word under the
cursor is still to be completed. -/
def keptWords (d : Dictionary σ) (split : SplitLine) : List String :=
  match splitCursor (split.words.tail.map Token.parse) split.trailingSpace with
  | (_, none) => split.words
  | (completed, some token) =>
    match (d.walk completed).complete token with
    | .consumed _ => split.words
    | _ => split.words.dropLast

/-- The words in front of every suggestion are the kept ones, if there is a suggestion. -/
theorem lead_predictWith (d : Dictionary σ) (mode : MatchMode) (items : Parameter σ → List Item)
    (split : SplitLine) (nonempty : ∀ word ∈ split.words, word ≠ "") :
    let p := d.predictWith mode items (TokenLine.ofWords split.words split.trailingSpace)
    p.buffered = [] ∧
      (p.choices = [] ∨
        d.keptWords split ≠ [] ∧ p.lead = Predictions.joinWords (d.keptWords split)) := by
  rw [TokenLine.ofWords_of_nonempty nonempty]
  unfold keptWords
  obtain ⟨words, trailing⟩ := split
  cases words with
  | nil => exact ⟨rfl, .inl rfl⟩
  | cons command rest =>
      simp only [predictWith, List.map_cons, List.tail_cons]
      split
      · exact ⟨rfl, .inl rfl⟩
      · have raws : (rest.map Token.parse).map (·.raw) = rest := by simp [Function.comp_def]
        cases cursor : splitCursor (rest.map Token.parse) trailing with
        | mk completed current =>
            cases current with
            | none =>
                obtain rfl := eq_of_splitCursor_none cursor
                exact ⟨rfl, .inr ⟨by simp, by simp [raws]⟩⟩
            | some token =>
                have whole := eq_of_splitCursor_some cursor
                have kept : rest = completed.map (·.raw) ++ [token.raw] := by
                  rw [← raws, whole, List.map_append, List.map_singleton]
                have front : (command :: rest).dropLast = command :: completed.map (·.raw) := by
                  rw [kept, ← List.cons_append, List.dropLast_concat]
                cases complete : (completed.foldl Walk.consume (Walk.start d.parameters)).complete
                    token with
                | consumed next =>
                    have walked : (d.walk completed).complete token = .consumed next := complete
                    simp only [complete, walked]
                    exact ⟨trivial, .inr ⟨by simp, by simp [kept]⟩⟩
                | filter typed =>
                    have walked : (d.walk completed).complete token = .filter typed := complete
                    simp only [complete, walked]
                    exact ⟨trivial, .inr ⟨by simp [front], by simp [front]⟩⟩
                | values parameter key typed =>
                    have walked : (d.walk completed).complete token = .values parameter key typed :=
                      complete
                    simp only [complete, walked]
                    exact ⟨trivial, .inr ⟨by simp [front], by simp [front]⟩⟩

end Dictionary

/-! ## Suggestions on the line -/

namespace SplitLine

/-- Kept words and an insertion behind them are split into these words and one more that is read as
what is inserted exactly where the kept words are finished and the insertion stands. -/
theorem insertion_iff {kept : List String} {trailing : Bool} (nonempty : kept ≠ [])
    (ends : WordsEnd (kept.map String.toList) trailing) (i : Insertion) (quote : Quote) :
    (∃ word, ofLine (Predictions.joinWords kept ++ " " ++ i.write quote) =
          ⟨kept ++ [word], false⟩ ∧ (Token.parse word).text = i.text) ↔
      (∀ word ∈ kept, Finished word.toList) ∧ i.Stands quote := by
  have line : (Predictions.joinWords kept ++ " " ++ i.write quote).toList =
      [' '].intercalate (kept.map String.toList ++ [(i.write quote).toList]) := by
    have joined : Predictions.joinWords kept ++ " " ++ i.write quote =
        Predictions.joinWords (kept ++ [i.write quote]) := by
      rw [Predictions.joinWords, Predictions.joinWords,
        String.intercalate_append_of_ne_nil nonempty (by simp)]
      simp
    rw [joined, Predictions.joinWords, String.toList_intercalate, List.map_append]
    rfl
  have words (word : String) :
      ofLine (Predictions.joinWords kept ++ " " ++ i.write quote) = ⟨kept ++ [word], false⟩ ↔
        (∀ word ∈ kept, Finished word.toList) ∧
          ofChars (i.write quote).toList = ([word.toList], false) := by
    rw [ofLine_eq_iff, line, List.map_append, List.map_singleton,
      ofChars_join_iff ends.nonempty (i.toList_write_ne_nil quote)]
    simp
  rw [← i.stands_iff quote]
  simp only [words, and_assoc, exists_and_left]

end SplitLine

theorem Dictionary.keptWords_wordsEnd (d : Dictionary σ) (line : String) :
    SplitLine.WordsEnd ((d.keptWords (SplitLine.ofLine line)).map String.toList)
      (SplitLine.ofLine line).trailingSpace := by
  have ends := SplitLine.ofLine_wordsEnd line
  unfold keptWords
  split
  · exact ends
  · split
    · exact ends
    · rw [List.map_dropLast]
      exact ends.dropLast

open SplitLine in
/-- For every suggestion: its line is split into the kept words and one more word that is read as
what is offered, exactly where the kept words are finished and the added word stands for it. -/
theorem Suggestor.kept_words_iff (s : Suggestor) (caches : Caches) (clock : Clock) (line : String)
    (directory : Option String) :
    let predictions := s.predict caches clock { line := TokenLine.ofLine line, directory }
    let kept := s.dictionary.keptWords (SplitLine.ofLine line)
    List.Forall₂
      (fun suggestion insertion =>
        (∃ word, SplitLine.ofLine suggestion.text = ⟨kept ++ [word], false⟩ ∧
            (Token.parse word).text = insertion.text) ↔
          (∀ word ∈ kept, Finished word.toList) ∧ insertion.Stands predictions.typed.quote)
      predictions.toList predictions.insertions := by
  intro predictions kept
  have ends := s.dictionary.keptWords_wordsEnd line
  have nonempty : ∀ word ∈ (SplitLine.ofLine line).words, word ≠ "" := by
    rintro word member rfl
    exact (ofLine_wordsEnd line).nonempty [] (List.mem_map_of_mem member) rfl
  obtain ⟨fresh, lead⟩ := s.dictionary.lead_predictWith s.options.mode
    (s.itemsOf caches clock directory) (SplitLine.ofLine line) nonempty
  refine Predictions.forall₂_texts fresh
    (R := fun text insertion => (∃ word, ofLine text = ⟨kept ++ [word], false⟩ ∧
        (Token.parse word).text = insertion.text) ↔
      (∀ word ∈ kept, Finished word.toList) ∧ insertion.Stands predictions.typed.quote) ?_
  intro i member
  rcases lead with choices | ⟨keeps, lead⟩
  · rw [Predictions.insertions, choices] at member
    simp at member
  · rw [lead]
    exact insertion_iff keeps ends i predictions.typed.quote

/-- A command whose only parameter has a blank in its key. -/
def spacedKey : Suggestor where
  dictionary := (Dictionary.ofCommand "git").withParameter <|
    (Parameter.value ["--my key"] "Value").withSource
      { name := "Values", provider := .fixed [{ name := "v1" }], cell := 0 }

/-- The key of an assignment is put back without the backslash it was typed with, so the line falls
apart at the blank in it. -/
theorem spacedKey_not_kept :
    ¬ ∀ suggestion ∈ (spacedKey.predict {} (fun _ => 0)
          { line := TokenLine.ofLine "git --my\\ key=v" }).toList,
        ∃ word,
          SplitLine.ofLine suggestion.text =
              ⟨spacedKey.dictionary.keptWords (SplitLine.ofLine "git --my\\ key=v") ++ [word],
                false⟩ ∧
            (Token.parse word).text = "--my key=v1" := by
  intro every
  have only : (spacedKey.predict {} (fun _ => 0)
      { line := TokenLine.ofLine "git --my\\ key=v" }).toList =
        [{ text := "git --my key=v1", kind := .value }] := by rfl
  rw [only] at every
  obtain ⟨word, split, _⟩ := every _ (List.mem_singleton_self _)
  have words : SplitLine.ofLine "git --my key=v1" = ⟨["git", "--my", "key=v1"], false⟩ := by decide
  have kept : spacedKey.dictionary.keptWords (SplitLine.ofLine "git --my\\ key=v") = ["git"] := by
    decide
  rw [words, kept] at split
  simp at split

end LineCompletion

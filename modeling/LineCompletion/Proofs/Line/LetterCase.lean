import LineCompletion.Line.Split
import LineCompletion.Proofs.Line.LeftOut
import LineCompletion.Proofs.Text.AsciiCase

/-! # Words and the case of ASCII letters

Quotes, backslashes, blanks and equals signs are no letters. So a word in small letters is read as
the word is, with its texts in small letters.
-/

namespace LineCompletion

namespace Text

/-- A text with its ASCII letters made small. -/
def fold (s : String) : String :=
  String.ofList (s.toList.map Char.toLower)

@[simp] theorem toList_fold (s : String) : (fold s).toList = s.toList.map Char.toLower := by
  simp [fold]

theorem fold_ofList (cs : List Char) :
    fold (String.ofList cs) = String.ofList (cs.map Char.toLower) := by
  simp [fold]

@[simp] theorem fold_fold (s : String) : fold (fold s) = fold s := by
  simp [fold, Function.comp_def]

theorem fold_append (a b : String) : fold (a ++ b) = fold a ++ fold b := by
  simp [← String.toList_inj]

theorem equalAsciiCase_iff {a b : String} : equalAsciiCase a b = true ↔ fold a = fold b := by
  simp [equalAsciiCase, ← String.toList_inj]

theorem equalAsciiCase_fold (a b : String) : equalAsciiCase a (fold b) = equalAsciiCase a b := by
  simp [equalAsciiCase, Function.comp_def]

theorem toLower_eq_iff {c d : Char} (other : ¬ d.isAlpha = true) : c.toLower = d ↔ c = d := by
  by_cases letter : c.isAlpha = true
  · have small : c.toLower.isAlpha = true := by simpa using letter
    refine iff_of_false ?_ ?_
    · rintro rfl
      exact other small
    · rintro rfl
      exact other letter
  · rw [toLower_eq_self letter]

theorem eq_cons_of_map_toLower {cs rest : List Char} {d : Char} (other : ¬ d.isAlpha = true)
    (same : cs.map Char.toLower = d :: rest) : ∃ back, cs = d :: back := by
  obtain ⟨c, back, rfl, small, -⟩ := List.map_eq_cons_iff.mp same
  exact ⟨back, by rw [(toLower_eq_iff other).mp small]⟩

end Text

open Text

namespace Word

theorem unescape_toLower (cs : List Char) :
    unescape (cs.map Char.toLower) = (unescape cs).map Char.toLower := by
  fun_induction unescape cs with
  | case1 c rest ih => simpa [unescape] using ih
  | case2 c rest lone ih =>
      rw [List.map_cons, List.map_cons, ← ih]
      refine unescape.eq_2 _ _ fun d more slash follows => ?_
      obtain ⟨e, back, rfl, -, -⟩ := List.map_eq_cons_iff.mp follows
      exact lone e back ((toLower_eq_iff (by decide)).mp slash) rfl
  | case3 => rfl

theorem readDouble_toLower (cs : List Char) :
    readDouble (cs.map Char.toLower) =
      ((readDouble cs).1.map Char.toLower, (readDouble cs).2) := by
  fun_induction readDouble cs with
  | case1 => rfl
  | case2 rest r ih => simp [readDouble, ih, r]
  | case3 rest r ih => simp [readDouble, ih, r]
  | case4 c rest _ _ quote =>
      obtain rfl : c = '"' := by simpa using quote
      simp [readDouble, unescape_toLower]
  | case5 c rest noQuote noSlash quote r ih =>
      have other : c ≠ '"' := by simpa using quote
      rw [List.map_cons, readDouble.eq_4]
      · simp [toLower_eq_iff, other, ih, r]
      · intro more slash follows
        obtain ⟨back, rfl⟩ := eq_cons_of_map_toLower (by decide) follows
        exact noQuote back ((toLower_eq_iff (by decide)).mp slash) rfl
      · intro more slash follows
        obtain ⟨back, rfl⟩ := eq_cons_of_map_toLower (by decide) follows
        exact noSlash back ((toLower_eq_iff (by decide)).mp slash) rfl

theorem readSingle_toLower (cs : List Char) :
    readSingle (cs.map Char.toLower) =
      ((readSingle cs).1.map Char.toLower, (readSingle cs).2) := by
  induction cs with
  | nil => rfl
  | cons c rest ih =>
      by_cases quote : c = '\''
      · subst quote
        simp [readSingle, unescape_toLower]
      · simp [readSingle, toLower_eq_iff, quote, ih]

theorem opensQuote_toLower (cs : List Char) :
    Token.opensQuote (cs.map Char.toLower) = Token.opensQuote cs := by
  cases cs with
  | nil => rfl
  | cons c rest =>
      rw [Bool.eq_iff_iff]
      simp [Token.opensQuote, toLower_eq_iff]

theorem readChars_toLower (cs : List Char) :
    readChars (cs.map Char.toLower) =
      ((readChars cs).1.map Char.toLower, (readChars cs).2) := by
  by_cases bare : Token.opensQuote cs = false
  · rw [readChars_of_bare bare, readChars_of_bare ((opensQuote_toLower cs).trans bare),
      unescape_toLower]
  · cases cs with
    | nil => simp [Token.opensQuote] at bare
    | cons c rest =>
        have quote : c = '"' ∨ c = '\'' := by
          simpa only [Token.opensQuote, Bool.not_eq_false, Bool.or_eq_true, beq_iff_eq] using bare
        rcases quote with rfl | rfl
        · simp [readChars, readDouble_toLower]
        · simp [readChars, readSingle_toLower]

/-- A word with its texts in small letters. -/
def fold (w : Word) : Word :=
  { w with raw := Text.fold w.raw, text := Text.fold w.text }

theorem ofChars_toLower (cs : List Char) : ofChars (cs.map Char.toLower) = (ofChars cs).fold := by
  simp [ofChars, readChars_toLower, fold, fold_ofList]

end Word

namespace Assignment

theorem splitRaw_toLower (cs : List Char) :
    splitRaw (cs.map Char.toLower) =
      (splitRaw cs).map fun r => (r.1.map Char.toLower, r.2.map Char.toLower) := by
  fun_induction splitRaw cs with
  | case1 => rfl
  | case2 c rest ih => simp [splitRaw, ih, Function.comp_def]
  | case3 c rest lone quote =>
      have quote : c = '"' ∨ c = '\'' := by simpa only [Bool.or_eq_true, beq_iff_eq] using quote
      rcases quote with rfl | rfl <;> simp [splitRaw]
  | case4 c rest lone quote equals =>
      obtain rfl : c = '=' := by simpa using equals
      simp [splitRaw]
  | case5 c rest lone quote equals ih =>
      simp only [Bool.or_eq_true, beq_iff_eq, not_or] at quote equals
      rw [List.map_cons, splitRaw.eq_3, ih]
      · simp [toLower_eq_iff, quote, equals, Function.comp_def]
      · intro d more slash follows
        obtain ⟨e, back, rfl, -, -⟩ := List.map_eq_cons_iff.mp follows
        exact lone e back ((toLower_eq_iff (by decide)).mp slash) rfl

theorem split?_toLower (cs : List Char) :
    split? (cs.map Char.toLower) =
      (split? cs).map fun r => (r.1.map Char.toLower, r.2.map Char.toLower) := by
  cases cs with
  | nil => rfl
  | cons c rest =>
      by_cases equals : c = '='
      · subst equals
        rfl
      · have small : c.toLower ≠ '=' := fun same => equals ((toLower_eq_iff (by decide)).mp same)
        rw [List.map_cons, split?_eq_splitRaw small, split?_eq_splitRaw equals, ← List.map_cons,
          splitRaw_toLower]

/-- An assignment with its texts in small letters. -/
def fold (a : Assignment) : Assignment :=
  { key := Text.fold a.key, value := a.value.fold }

end Assignment

namespace Token

/-- A token with its texts in small letters. -/
def fold (t : Token) : Token :=
  { t.toWord.fold with assignment := t.assignment.map Assignment.fold }

theorem ofChars_toLower (cs : List Char) : ofChars (cs.map Char.toLower) = (ofChars cs).fold := by
  unfold ofChars
  rw [Word.opensQuote_toLower, Word.ofChars_toLower, Assignment.split?_toLower]
  split
  · rfl
  · cases Assignment.split? cs with
    | none => rfl
    | some parts =>
        have sign : Text.fold "=" = "=" := by decide
        simp [fold, Assignment.fold, Word.fold, Word.ofChars_toLower, Word.unescape_toLower,
          fold_ofList, fold_append, sign]

theorem parse_fold (raw : String) : parse (Text.fold raw) = (parse raw).fold := by
  rw [parse, Text.toList_fold, ofChars_toLower, parse]

theorem isFlagLike_fold (t : Token) : t.fold.isFlagLike = t.isFlagLike := by
  have first : ((Text.fold t.text).toList.head? == some '-') =
      (t.text.toList.head? == some '-') := by
    rw [Text.toList_fold, Bool.eq_iff_iff]
    cases t.text.toList with
    | nil => simp
    | cons c rest => simp [toLower_eq_iff]
  exact congrArg (!t.isQuoted && ·) first

end Token

end LineCompletion

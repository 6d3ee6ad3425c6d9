import Mathlib.Data.List.Basic
import LineCompletion.Proofs.Line.Layout
import LineCompletion.Proofs.Line.Reading

/-! # Literals are read back

A text written as a literal is one finished word of a line and is read as that text again, whatever
the quote. While its quote is still open the text under the cursor is the same.
-/

namespace LineCompletion

instance : LawfulBEq Quote where
  eq_of_beq {left right} same := by
    cases left <;> cases right <;> first | rfl | exact absurd same (by decide)
  rfl {quote} := by cases quote <;> rfl

namespace Literal

/-- The three ways of writing a text as a word. -/
inductive Form (cs : List Char) : List Char → Prop where
  | bare (plain : needsQuotes cs = false) : Form cs cs
  | single (plain : '\'' ∉ cs) : Form cs ('\'' :: (cs ++ ['\'']))
  | double : Form cs ('"' :: (escapeDouble cs ++ ['"']))

theorem chars_form (cs : List Char) (quote : Quote) : Form cs (chars cs quote) := by
  unfold chars
  split
  · rename_i held
    exact .single (by simpa using (Bool.and_eq_true _ _ |>.mp held).2)
  · split
    · rename_i held
      exact .bare (by simpa using (Bool.and_eq_true _ _ |>.mp held).2)
    · exact .double

theorem ne_of_not_special {c : Char} (plain : isSpecial c = false) :
    Text.isBlank c = false ∧ c ≠ '"' ∧ c ≠ '\'' ∧ c ≠ '\\' := by
  simpa [isSpecial, and_assoc] using plain

theorem plain_of_needsQuotes {cs : List Char} (plain : needsQuotes cs = false) :
    cs ≠ [] ∧ ∀ c ∈ cs, isSpecial c = false := by
  simpa [needsQuotes] using plain

theorem opensQuote_of_needsQuotes {cs : List Char} (plain : needsQuotes cs = false) :
    Token.opensQuote cs = false := by
  cases cs with
  | nil => rfl
  | cons c rest =>
      obtain ⟨_, double, single, _⟩ :=
        ne_of_not_special ((plain_of_needsQuotes plain).2 c (by simp))
      simp [Token.opensQuote, double, single]

end Literal

namespace SplitLine

open Literal

theorem run_plain {cs : List Char} (plain : ∀ c ∈ cs, isSpecial c = false) : Finished cs := by
  induction cs with
  | nil => rfl
  | cons c cs ih =>
      obtain ⟨blank, double, single, slash⟩ := ne_of_not_special (plain c (by simp))
      have stepped : Place.start.step c = some Place.start := by
        simp [Place.step, blank, double, single, slash]
      rw [Finished, Place.run_cons, stepped, Option.bind_some]
      exact ih fun d member => plain d (by simp [member])

theorem run_single {cs : List Char} (plain : '\'' ∉ cs) :
    (Place.within .single).run cs = some (.within .single) := by
  induction cs with
  | nil => rfl
  | cons c cs ih =>
      obtain ⟨head, tail⟩ := not_or.mp (mt List.mem_cons.mpr plain)
      simpa [Place.step, Ne.symm head] using ih tail

theorem run_escapeDouble (cs : List Char) :
    (Place.within .double).run (escapeDouble cs) = some (.within .double) := by
  induction cs with
  | nil => rfl
  | cons c cs ih =>
      by_cases quote : c = '"'
      · subst quote
        simpa [escapeDouble, Place.step] using ih
      · by_cases slash : c = '\\'
        · subst slash
          simpa [escapeDouble, Place.step] using ih
        · simpa [escapeDouble, Place.step, quote, slash] using ih

end SplitLine

namespace Literal

open SplitLine

theorem Form.finished {cs word : List Char} (form : Form cs word) :
    word ≠ [] ∧ Finished word := by
  cases form with
  | bare plain =>
      obtain ⟨nonempty, special⟩ := plain_of_needsQuotes plain
      exact ⟨nonempty, run_plain special⟩
  | single plain =>
      refine ⟨by simp, ?_⟩
      have opened : Place.start.step '\'' = some (.within .single) := by decide
      rw [Finished, Place.run_cons, opened, Option.bind_some, Place.run_append, run_single plain]
      rfl
  | double =>
      refine ⟨by simp, ?_⟩
      have opened : Place.start.step '"' = some (.within .double) := by decide
      rw [Finished, Place.run_cons, opened, Option.bind_some, Place.run_append, run_escapeDouble]
      rfl

/-- A literal reads as the text it was written for. -/
theorem Form.readChars {cs word : List Char} (form : Form cs word) :
    (Word.readChars word).1 = cs ∧ (Word.readChars word).2.2 = true := by
  cases form with
  | bare plain =>
      obtain ⟨nonempty, special⟩ := plain_of_needsQuotes plain
      have slash : '\\' ∉ cs := fun member => (ne_of_not_special (special _ member)).2.2.2 rfl
      rw [Word.readChars_of_bare (opensQuote_of_needsQuotes plain), Word.unescape_eq_self slash]
      exact ⟨rfl, rfl⟩
  | single plain =>
      simp [Word.readChars, Word.readSingle_append plain, Word.readSingle, Word.unescape]
  | double =>
      simp [Word.readChars, Word.readDouble_escapeDouble, Word.readDouble, Word.unescape]

theorem Form.ofChars {cs word : List Char} (form : Form cs word) :
    (Token.ofChars word).text.toList = cs ∧ (Token.ofChars word).closed = true := by
  cases form with
  | bare plain =>
      obtain ⟨nonempty, special⟩ := plain_of_needsQuotes plain
      exact Token.ofChars_plain fun c member => (ne_of_not_special (special c member)).2
  | single plain =>
      have opens : Token.opensQuote ('\'' :: (cs ++ ['\''])) = true := rfl
      rw [Token.ofChars_of_opensQuote opens]
      simpa [Word.ofChars] using (Form.single plain).readChars
  | double =>
      have opens : Token.opensQuote ('"' :: (escapeDouble cs ++ ['"'])) = true := rfl
      rw [Token.ofChars_of_opensQuote opens]
      have form : Form cs ('"' :: (escapeDouble cs ++ ['"'])) := .double
      simpa [Word.ofChars] using form.readChars

/-- A quoted literal ends in the quote it opens with; without that last character it is an unclosed
token with the same quote and the same text. -/
theorem Form.dropLast {cs word : List Char} {quote : Quote} (form : Form cs word)
    (opens : word.head?.bind Quote.ofChar? = some quote) :
    word.getLast? = quote.char? ∧ (Token.ofChars word.dropLast).text.toList = cs ∧
      (Token.ofChars word.dropLast).quote = quote ∧
        (Token.ofChars word.dropLast).closed = false := by
  cases form with
  | bare plain =>
      obtain ⟨nonempty, special⟩ := plain_of_needsQuotes plain
      cases cs with
      | nil => exact absurd rfl nonempty
      | cons c rest =>
          obtain ⟨_, double, single, _⟩ := ne_of_not_special (special c (by simp))
          simp [Quote.ofChar?, double, single] at opens
  | single plain =>
      obtain rfl : Quote.single = quote := by simpa [Quote.ofChar?] using opens
      have read := Word.readSingle_append plain []
      rw [List.append_nil] at read
      rw [← List.cons_append, List.dropLast_concat, Token.ofChars_of_opensQuote rfl]
      refine ⟨List.getLast?_concat, ?_⟩
      simp [Word.ofChars, Word.readChars, read, Word.readSingle]
  | double =>
      obtain rfl : Quote.double = quote := by simpa [Quote.ofChar?] using opens
      have read := Word.readDouble_escapeDouble cs []
      rw [List.append_nil] at read
      rw [← List.cons_append, List.dropLast_concat, Token.ofChars_of_opensQuote rfl]
      refine ⟨List.getLast?_concat, ?_⟩
      simp [Word.ofChars, Word.readChars, read, Word.readDouble]

/-! ## Lines of literals -/

theorem toList_write (text : String) (quote : Quote) :
    (write text quote).toList = chars text.toList quote := by
  simp [write]

theorem parse_write (text : String) (quote : Quote) :
    (Token.parse (write text quote)).text = text ∧
      (Token.parse (write text quote)).closed = true := by
  obtain ⟨read, closed⟩ := (chars_form text.toList quote).ofChars
  rw [← toList_write] at read closed
  exact ⟨String.toList_injective read, closed⟩

theorem write_ne_empty (text : String) (quote : Quote) : write text quote ≠ "" := by
  intro empty
  have nonempty := (chars_form text.toList quote).finished.1
  rw [← toList_write, empty] at nonempty
  exact nonempty rfl

theorem ofChars_literals (literals : List (List Char × Quote)) :
    ofChars ([' '].intercalate (literals.map fun l => chars l.1 l.2)) =
      (literals.map fun l => chars l.1 l.2, false) := by
  refine (wordsEnd_of_finished ?_).ofChars_join
  intro word member
  obtain ⟨l, _, rfl⟩ := List.mem_map.mp member
  exact (chars_form _ _).finished

/-- Literals joined by blanks are split into these literals, and each is read as a closed token with
the text it was written for. A literal whose closing quote is still missing is an unclosed token
with the same text. -/
theorem literals_read_back (literals : List (String × Quote)) :
    let words := literals.map fun l => write l.1 l.2
    SplitLine.ofLine (Predictions.joinWords words) = { words, trailingSpace := false } ∧
      (TokenLine.ofWords words false).trailingSpace = false ∧
      (TokenLine.ofWords words false).tokens.map (fun t => (t.raw, t.text, t.closed)) =
        literals.map (fun l => (write l.1 l.2, l.1, true)) ∧
      ∀ text wanted quote, (write text wanted).toList.head?.bind Quote.ofChar? = some quote →
        let opened := Token.parse (String.ofList (write text wanted).toList.dropLast)
        (write text wanted).toList.getLast? = quote.char? ∧
          opened.text = text ∧ opened.quote = quote ∧ opened.closed = false := by
  intro words
  have nonempty : ∀ word ∈ words, word ≠ "" := by
    intro word member
    obtain ⟨l, _, rfl⟩ := List.mem_map.mp member
    exact write_ne_empty l.1 l.2
  refine ⟨?_, ?_, ?_, ?_⟩
  · have split := ofChars_literals (literals.map fun l => (l.1.toList, l.2))
    simp only [List.map_map, Function.comp_def] at split
    have line : (Predictions.joinWords words).toList =
        [' '].intercalate (literals.map fun l => chars l.1.toList l.2) := by
      simp [words, Predictions.joinWords, Function.comp_def, toList_write]
    simp only [SplitLine.ofLine, line, split]
    simp [words, Function.comp_def, write]
  · rw [TokenLine.ofWords_of_nonempty nonempty]
  · rw [TokenLine.ofWords_of_nonempty nonempty]
    simp [words, Function.comp_def, parse_write]
  · intro text wanted quote opens
    rw [toList_write] at opens ⊢
    obtain ⟨last, read, opened, closed⟩ := (chars_form text.toList wanted).dropLast opens
    refine ⟨last, ?_, ?_, ?_⟩
    · exact String.toList_injective (by simpa [Token.parse] using read)
    · simpa [Token.parse] using opened
    · simpa [Token.parse] using closed

/-- A text with an apostrophe is put in double quotes whatever quote is wanted. -/
theorem literals_read_back_apostrophe :
    (write "it's" .single).toList.head?.bind Quote.ofChar? = some .double ∧
      (Token.parse (String.ofList (write "it's" .single).toList.dropLast)).text = "it's" ∧
      (Token.parse (String.ofList (write "it's" .single).toList.dropLast)).closed = false := by
  have opens : (write "it's" .single).toList.head?.bind Quote.ofChar? = some .double := by decide
  obtain ⟨_, _, _, dropped⟩ := literals_read_back [("it's", .single), ("", .bare), ("a=b", .bare)]
  obtain ⟨_, read, _, unclosed⟩ := dropped "it's" .single .double opens
  exact ⟨opens, read, unclosed⟩

end Literal

end LineCompletion

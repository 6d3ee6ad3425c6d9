import LineCompletion.Proofs.Line.Reading

/-! # Keys that are written with escapes

A text in which every backslash, quote and equals sign has a backslash before it is read as that
text and never split. Before an equals sign it is the key of an assignment, whatever the value.
-/

namespace LineCompletion

namespace Literal

/-- Whether a character would be taken for something else in a bare key. -/
def isKeyMark (c : Char) : Bool :=
  c == '\\' || c == '"' || c == '\'' || c == '='

def escapeKey : List Char → List Char
  | [] => []
  | c :: rest => if isKeyMark c then '\\' :: c :: escapeKey rest else c :: escapeKey rest

def writeKey (text : String) : String :=
  String.ofList (escapeKey text.toList)

/-- A text and a bare word in which at least its marks are escaped. -/
inductive Escaped : List Char → List Char → Prop where
  | nil : Escaped [] []
  | slash (c : Char) {cs word : List Char} (rest : Escaped cs word) :
      Escaped (c :: cs) ('\\' :: c :: word)
  | plain {c : Char} (plain : c ≠ '"' ∧ c ≠ '\'' ∧ c ≠ '\\' ∧ c ≠ '=') {cs word : List Char}
      (rest : Escaped cs word) : Escaped (c :: cs) (c :: word)

theorem escaped_escapeKey (cs : List Char) : Escaped cs (escapeKey cs) := by
  induction cs with
  | nil => exact .nil
  | cons c cs ih =>
      rw [escapeKey]
      split
      · exact .slash c ih
      · rename_i mark
        simp only [isKeyMark, Bool.or_eq_true, beq_iff_eq, not_or] at mark
        obtain ⟨⟨⟨slash, double⟩, single⟩, equals⟩ := mark
        exact .plain ⟨double, single, slash, equals⟩ ih

namespace Escaped

variable {cs word : List Char}

theorem ne_nil (escaped : Escaped cs word) (nonempty : cs ≠ []) : word ≠ [] := by
  cases escaped with
  | nil => exact absurd rfl nonempty
  | slash c rest => exact List.cons_ne_nil _ _
  | plain plain rest => exact List.cons_ne_nil _ _

theorem unescape_eq (escaped : Escaped cs word) : Word.unescape word = cs := by
  induction escaped with
  | nil => rfl
  | slash c rest ih => rw [Word.unescape, ih]
  | plain plain rest ih => rw [Word.unescape_cons plain.2.2.1, ih]

theorem opensQuote_eq (escaped : Escaped cs word) : Token.opensQuote word = false := by
  cases escaped with
  | nil => rfl
  | slash c rest => rfl
  | plain plain rest => simp [Token.opensQuote, plain.1, plain.2.1]

theorem splitRaw_eq_none (escaped : Escaped cs word) : Assignment.splitRaw word = none := by
  induction escaped with
  | nil => rfl
  | slash c rest ih => rw [Assignment.splitRaw, ih, Option.map_none]
  | plain plain rest ih =>
      obtain ⟨double, single, slash, equals⟩ := plain
      simp [Assignment.splitRaw_cons slash, double, single, equals, ih]

theorem splits (escaped : Escaped cs word) (value : List Char) :
    Assignment.Splits (word ++ '=' :: value) word value := by
  induction escaped with
  | nil => exact .equals value
  | slash c rest ih => exact .escaped c ih
  | plain plain rest ih => exact .plain plain ih

theorem ofChars_eq (escaped : Escaped cs word) :
    Token.ofChars word =
      { raw := String.ofList word
        text := String.ofList cs
        quote := .bare
        closed := true
        assignment := none } := by
  have whole := Assignment.split?_eq_none_of_splitRaw escaped.splitRaw_eq_none
  have read := Word.readChars_of_bare escaped.opensQuote_eq
  simp [Token.ofChars_of_whole whole, Word.ofChars, read, escaped.unescape_eq]

theorem ofChars_equals (escaped : Escaped cs word) (nonempty : cs ≠ []) (value : List Char) :
    Token.ofChars (word ++ '=' :: value) =
      { raw := String.ofList (word ++ '=' :: value)
        text := String.ofList cs ++ "=" ++ (Word.ofChars value).text
        quote := .bare
        closed := (Word.ofChars value).closed
        assignment := some { key := String.ofList cs, value := Word.ofChars value } } := by
  have split := (escaped.splits value).split? (escaped.ne_nil nonempty)
  rw [Token.ofChars_of_split split, escaped.unescape_eq]

end Escaped

/-- A key with escapes is read as its text and not split. Before an equals sign it is the key of an
assignment whose value is all that follows, read without looking for another key. -/
theorem writeKey_read_back (key : String) :
    Token.parse (writeKey key) =
        { raw := writeKey key, text := key, quote := .bare, closed := true, assignment := none } ∧
      (key ≠ "" → ∀ value : String,
        Token.parse (writeKey key ++ "=" ++ value) =
            { raw := writeKey key ++ "=" ++ value
              text := key ++ "=" ++ (Word.ofChars value.toList).text
              quote := .bare
              closed := (Word.ofChars value.toList).closed
              assignment := some { key, value := Word.ofChars value.toList } } ∧
          (Word.ofChars value.toList).raw = value) := by
  have escaped := escaped_escapeKey key.toList
  constructor
  · rw [Token.parse, writeKey, String.toList_ofList, escaped.ofChars_eq, String.ofList_toList]
  · intro nonempty value
    have chars : (writeKey key ++ "=" ++ value).toList =
        escapeKey key.toList ++ '=' :: value.toList := by
      simp [writeKey]
    refine ⟨?_, by simp [Word.ofChars]⟩
    rw [Token.parse, chars, escaped.ofChars_equals (by simpa using nonempty), ← chars]
    simp only [String.ofList_toList]

/-- The equals sign and the quote in the key are escaped, the quote that the value opens is not. -/
theorem writeKey_read_back_option :
    "--a=\"b" ≠ "" ∧
      ((Token.parse (writeKey "--a=\"b" ++ "=" ++ "'x=y")).assignment.map (·.key)) =
        some "--a=\"b" ∧
      (Token.parse (writeKey "--a=\"b" ++ "=" ++ "'x=y")).closed = false := by
  have nonempty : "--a=\"b" ≠ "" := by decide
  obtain ⟨read, _⟩ := (writeKey_read_back "--a=\"b").2 nonempty "'x=y"
  rw [read]
  exact ⟨nonempty, rfl, by decide⟩

end Literal

end LineCompletion

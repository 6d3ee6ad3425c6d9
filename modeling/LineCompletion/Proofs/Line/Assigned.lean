import Mathlib.Data.List.Basic
import LineCompletion.Proofs.Line.LeftOut
import LineCompletion.Proofs.Line.Literals

/-! # A literal after a key

An assignment is completed by a literal behind the bare text of its key and an equals sign. The word
that comes out is read as the key and the value only for some keys. Before a quoted literal the key
may hold nothing special and no equals sign; before a bare one it may hold no backslash and must be
read as itself.
-/

namespace LineCompletion

namespace Assignment

/-- A key before an equals sign and a quote ends there, or earlier. -/
theorem Splits.length_le_of_quote {c : Char} (quote : c = '"' ∨ c = '\'')
    {front rest key value : List Char} (splits : Splits (front ++ '=' :: c :: rest) key value) :
    key.length ≤ front.length := by
  generalize whole : front ++ '=' :: c :: rest = cs at splits
  induction splits generalizing front with
  | equals rest => exact Nat.zero_le _
  | escaped d splits ih =>
      match front, whole with
      | [e], whole =>
          -- the backslash takes the equals sign, and the quote ends the search
          obtain ⟨_, starts⟩ := List.cons.inj whole
          obtain ⟨_, rfl⟩ := List.cons.inj starts
          cases splits with
          | equals => rcases quote with same | same <;> exact absurd same (by decide)
          | escaped => rcases quote with same | same <;> exact absurd same (by decide)
          | plain plain =>
              rcases quote with same | same
              · exact absurd same plain.1
              · exact absurd same plain.2.1
      | e :: f :: front, whole =>
          have shorter := ih (List.cons.inj (List.cons.inj whole).2).2
          simp only [List.length_cons]
          omega
  | plain plain splits ih =>
      cases front with
      | nil => exact absurd (List.cons.inj whole).1.symm plain.2.2.2
      | cons e front => exact Nat.succ_le_succ (ih (List.cons.inj whole).2)

theorem Splits.plain_of_unescape {cs key value : List Char} (splits : Splits cs key value)
    (same : Word.unescape key = key) :
    ∀ c ∈ key, c ≠ '"' ∧ c ≠ '\'' ∧ c ≠ '\\' ∧ c ≠ '=' := by
  induction splits with
  | equals rest => simp
  | @escaped c rest key value splits ih =>
      have shorter := (Word.unescape_sublist key).length_le
      have equal := congrArg List.length same
      simp only [Word.unescape, List.length_cons] at equal
      omega
  | plain plain splits ih =>
      rw [Word.unescape_cons plain.2.2.1] at same
      intro d member
      rcases List.mem_cons.mp member with rfl | member
      · exact plain
      · exact ih (List.cons.inj same).2 d member

theorem Splits.append {cs key value : List Char} (splits : Splits cs key value)
    (rest : List Char) : Splits (cs ++ rest) key (value ++ rest) := by
  induction splits with
  | equals others => exact .equals _
  | escaped c splits ih => exact .escaped c ih
  | plain plain splits ih => exact .plain plain ih

theorem splits_of_plain {key : List Char}
    (plain : ∀ c ∈ key, c ≠ '"' ∧ c ≠ '\'' ∧ c ≠ '\\' ∧ c ≠ '=') (rest : List Char) :
    Splits (key ++ '=' :: rest) key rest := by
  induction key with
  | nil => exact .equals rest
  | cons c key ih =>
      exact .plain (plain c (by simp)) (ih fun d member => plain d (by simp [member]))

/-- A text that is not split is split at an equals sign behind it, or not at all. -/
theorem splitRaw_equals {cs : List Char} (whole : splitRaw cs = none) (slash : '\\' ∉ cs)
    (rest : List Char) :
    splitRaw (cs ++ '=' :: rest) = none ∨ splitRaw (cs ++ '=' :: rest) = some (cs, rest) := by
  induction cs with
  | nil => exact .inr rfl
  | cons c cs ih =>
      obtain ⟨head, tail⟩ := not_or.mp (mt List.mem_cons.mpr slash)
      rw [splitRaw_cons (Ne.symm head)] at whole
      rw [List.cons_append, splitRaw_cons (Ne.symm head)]
      split
      · exact .inl rfl
      · rename_i quoted
        rw [if_neg quoted] at whole
        split
        · rename_i equals
          simp [equals] at whole
        · rename_i equals
          rw [if_neg equals, Option.map_eq_none_iff] at whole
          rcases ih whole tail with same | parts
          · simp [same]
          · simp [parts]

end Assignment

/-! ## Words that are read as themselves -/

namespace Token

theorem opensQuote_append_equals (cs rest : List Char) :
    opensQuote (cs ++ '=' :: rest) = opensQuote cs := by
  cases cs with
  | nil => rfl
  | cons c cs => rfl

/-- A word is read as itself exactly where it has no backslash, and no quote at its start or at the
start of the value that it assigns. -/
theorem text_eq_self_iff {cs : List Char} (last : cs.getLast? ≠ some '\\') :
    (ofChars cs).text.toList = cs ↔
      '\\' ∉ cs ∧ opensQuote cs = false ∧
        ∀ key value, Assignment.split? cs = some (key, value) → opensQuote value = false := by
  rw [text_ofChars]
  cases split : Assignment.split? cs with
  | none =>
      constructor
      · intro same
        obtain ⟨bare, unescaped⟩ := Word.plain_of_readChars_eq_self same
        exact ⟨Word.slash_notMem_of_unescape_eq_self unescaped last, bare, by simp⟩
      · rintro ⟨slash, bare, _⟩
        simp [Word.readChars_of_bare bare, Word.unescape_eq_self slash]
  | some parts =>
      obtain ⟨key, value⟩ := parts
      have splits := (Assignment.splits_of_split? split).1
      have bare : opensQuote cs = false := Assignment.opensQuote_of_split? split
      rw [splits.eq_append] at last ⊢
      constructor
      · intro same
        have keyShorter := (Word.unescape_sublist key).length_le
        have valueShorter := (Word.readChars_sublist value).length_le
        have lengths := congrArg List.length same
        simp only [List.length_append, List.length_cons] at lengths
        obtain ⟨keySame, rest⟩ := List.append_inj same (by omega)
        obtain ⟨valueBare, valueSame⟩ :=
          Word.plain_of_readChars_eq_self (List.cons.inj rest).2
        have keyPlain := splits.plain_of_unescape keySame
        have valueLast : value.getLast? ≠ some '\\' := by
          intro slash
          exact last (by simp [List.getLast?_append, List.getLast?_cons, slash])
        have valueSlash := Word.slash_notMem_of_unescape_eq_self valueSame valueLast
        refine ⟨?_, ?_, ?_⟩
        · simp only [List.mem_append, List.mem_cons, not_or]
          exact ⟨fun member => (keyPlain _ member).2.2.1 rfl, by decide, valueSlash⟩
        · rwa [← splits.eq_append]
        · rintro other rest found
          obtain ⟨rfl, rfl⟩ := Prod.mk.inj (Option.some.inj found)
          exact valueBare
      · rintro ⟨slash, _, valueBare⟩
        simp only [List.mem_append, List.mem_cons, not_or] at slash
        simp [Word.readChars_of_bare (valueBare key value rfl), Word.unescape_eq_self slash.1,
          Word.unescape_eq_self slash.2.2]

end Token

/-! ## Quoted literals after a key -/

namespace Literal

open SplitLine

theorem count_of_blank {c : Char} (blank : Text.isBlank c = true) (cs : List Char) (quote : Quote) :
    (chars cs quote).count c = cs.count c := by
  have slash : c ≠ '\\' := by rintro rfl; revert blank; decide
  have double : '"' ≠ c := by rintro rfl; revert blank; decide
  have single : '\'' ≠ c := by rintro rfl; revert blank; decide
  have form := chars_form cs quote
  generalize chars cs quote = word at form ⊢
  cases form with
  | bare plain => rfl
  | single plain => simp [single]
  | double => simp [double, Word.count_escapeDouble slash]

theorem eq_of_append_concat (front before cs : List Char) {c d : Char}
    (same : front ++ (cs ++ [c]) = before ++ d :: cs) : d = c := by
  obtain ⟨_, ends⟩ := List.append_inj' same (by simp)
  have counts := congrArg (List.count c) ends
  by_contra other
  simp [other] at counts

theorem mem_of_getLast?_equals {front value : List Char} {c : Char}
    (ends : (front ++ '=' :: value).getLast? = some c) (equals : c ≠ '=') : c ∈ value := by
  have last : ('=' :: value).getLast? = some c := by
    simpa [List.getLast?_append, List.getLast?_cons] using ends
  rcases List.mem_cons.mp (List.mem_of_getLast? last) with same | member
  · exact absurd same equals
  · exact member

theorem Form.count_quote {value word : List Char} (form : Form value word) {c : Char}
    (opens : word.head? = some c) (quote : c = '"' ∨ c = '\'') :
    word.count c = value.count c + 2 := by
  cases form with
  | bare plain =>
      obtain ⟨_, double, single, _⟩ :=
        ne_of_not_special ((plain_of_needsQuotes plain).2 c (List.mem_of_head? opens))
      rcases quote with same | same
      · exact absurd same double
      · exact absurd same single
  | single plain =>
      obtain rfl : '\'' = c := by simpa using opens
      simp
  | double =>
      obtain rfl : '"' = c := by simpa using opens
      simp [Word.count_escapeDouble]

/-- Where a quoted literal is not read on its own, the text that is read is not the one before the
equals sign and the one the literal was written for: a quote of the literal is left in it. -/
theorem Form.read_with_key_ne {value word : List Char} (form : Form value word)
    (quoted : Token.opensQuote word = true) (kept front : List Char)
    (counts : ∀ c, c ≠ '\\' → kept.count c = front.count c) (key : List Char) :
    kept ++ (Word.readChars (key ++ '=' :: word)).1 ≠ front ++ (key ++ '=' :: value) := by
  intro same
  obtain ⟨c, opens, quote⟩ : ∃ c, word.head? = some c ∧ (c = '"' ∨ c = '\'') := by
    cases word with
    | nil => simp [Token.opensQuote] at quoted
    | cons c rest => exact ⟨c, rfl, by simpa [Token.opensQuote] using quoted⟩
  have slash : c ≠ '\\' := by rcases quote with rfl | rfl <;> decide
  have equals : c ≠ '=' := by rcases quote with rfl | rfl <;> decide
  by_cases head : (key ++ '=' :: word).head? = some c
  · -- the quote that the key opens is closed by the first quote of the literal, or before it
    cases key with
    | nil => exact equals (by simpa using head.symm)
    | cons d key =>
        obtain rfl : d = c := by simpa using head
        cases form with
        | bare plain => simp [opensQuote_of_needsQuotes plain] at quoted
        | single plain =>
            obtain rfl : '\'' = d := by simpa using opens
            obtain ⟨more, read⟩ :=
              Word.readSingle_append_quote (key ++ ['=']) (value ++ ['\''])
            obtain ⟨others, unescaped⟩ := Word.unescape_append slash value []
            simp only [List.append_assoc, List.singleton_append] at read
            simp only [List.cons_append, Word.readChars, read, unescaped, Word.unescape] at same
            have ends : (front ++ '\'' :: key ++ '=' :: value).getLast? = some '\'' := by
              simpa [List.getLast?_append] using (congrArg List.getLast? same).symm
            exact plain (mem_of_getLast?_equals ends equals)
        | double =>
            obtain rfl : '"' = d := by simpa using opens
            obtain ⟨more, read⟩ :=
              Word.readDouble_equals_quote key (escapeDouble value ++ ['"'])
            simp only [List.cons_append, Word.readChars, read, Word.unescape_escapeDouble] at same
            exact equals (eq_of_append_concat (kept ++ more) (front ++ '"' :: key) value
              (by simpa [Word.unescape] using same)).symm
  · have count := congrArg (List.count c) same
    simp only [List.count_append, Word.count_readChars slash head, counts c slash,
      List.count_cons_of_ne equals.symm, form.count_quote opens quote] at count
    omega

end Literal

/-! ## Keys that stand before a literal -/

namespace SplitLine

open Literal

theorem run_of_notBlank {cs : List Char} (plain : ∀ c ∈ cs, Text.isBlank c = false) (p : Place) :
    ∃ next, p.run cs = some next := by
  induction cs generalizing p with
  | nil => exact ⟨p, rfl⟩
  | cons c cs ih =>
      cases stepped : p.step c with
      | none =>
          have blank := (Place.eq_start_of_step_eq_none stepped).2
          rw [plain c (by simp)] at blank
          simp at blank
      | some next =>
          obtain ⟨last, reached⟩ := ih (fun d member => plain d (by simp [member])) next
          exact ⟨last, by rw [Place.run_cons, stepped, Option.bind_some, reached]⟩

theorem notSpecial_of_run {cs : List Char} {p : Place} (reached : Place.start.run cs = some p)
    (plain : ∀ c ∈ cs, c ≠ '"' ∧ c ≠ '\'' ∧ c ≠ '\\') : ∀ c ∈ cs, isSpecial c = false := by
  induction cs with
  | nil => simp
  | cons c cs ih =>
      obtain ⟨double, single, slash⟩ := plain c (by simp)
      have blank : Text.isBlank c = false := by
        by_contra blank
        rw [Bool.not_eq_false] at blank
        simp [Place.step, slash, blank] at reached
      have special : isSpecial c = false := by simp [isSpecial, blank, double, single, slash]
      have stepped : Place.start.step c = some Place.start := by
        simp [Place.step, blank, double, single, slash]
      rw [Place.run_cons, stepped, Option.bind_some] at reached
      intro d member
      rcases List.mem_cons.mp member with rfl | member
      · exact special
      · exact ih reached (fun e member => plain e (by simp [member])) d member

end SplitLine

namespace Assignment

open SplitLine Literal

/-- A key that may stand before a bare value as it is: no blank breaks it, and nothing in it is
left out when it is read. -/
structure StandsBare (key : List Char) : Prop where
  unescaped : '\\' ∉ key
  unbroken : Place.start.run key ≠ none
  itself : (Token.ofChars key).text.toList = key

structure StandsQuoted (key : List Char) : Prop where
  bare : needsQuotes key = false
  noEquals : '=' ∉ key

/-- Whether a key may stand as it is before a value that is written in a wanted quote. -/
def Stands (key value : List Char) (quote : Quote) : Prop :=
  if quote = .bare ∧ needsQuotes value = false then StandsBare key else StandsQuoted key

theorem split?_equals_iff {key value : List Char} (slash : '\\' ∉ key)
    (bare : Token.opensQuote value = false) :
    (∀ front rest, split? (key ++ '=' :: value) = some (front, rest) →
        Token.opensQuote rest = false) ↔
      ∀ front rest, split? key = some (front, rest) → Token.opensQuote rest = false := by
  cases split : split? key with
  | some parts =>
      obtain ⟨front, rest⟩ := parts
      obtain ⟨splits, nonempty⟩ := splits_of_split? split
      have same : Token.opensQuote (rest ++ '=' :: value) = Token.opensQuote rest :=
        Token.opensQuote_append_equals rest value
      simp [(splits.append ('=' :: value)).split? nonempty, same]
  | none =>
      -- the equals sign behind the key may now split the word, and then the bare value follows it
      refine iff_of_true ?_ (by simp)
      intro front rest found
      cases key with
      | nil => simp [split?] at found
      | cons c key =>
          by_cases equals : c = '='
          · simp [equals, split?] at found
          · rw [split?_eq_splitRaw equals] at split
            rw [List.cons_append, split?_eq_splitRaw equals, ← List.cons_append] at found
            rcases splitRaw_equals split slash value with whole | parts
            · rw [whole] at found
              simp at found
            · rw [parts] at found
              obtain ⟨rfl, rfl⟩ := Prod.mk.inj (Option.some.inj found)
              exact bare

/-- A key and a bare value are read as they stand where the key alone is. -/
theorem standsBare_iff {key value : List Char} (plain : needsQuotes value = false) :
    (∃ p, Place.start.run (key ++ '=' :: value) = some p) ∧
        (Token.ofChars (key ++ '=' :: value)).text.toList = key ++ '=' :: value ↔
      StandsBare key := by
  obtain ⟨nonempty, special⟩ := plain_of_needsQuotes plain
  have bare := opensQuote_of_needsQuotes plain
  have valueSlash : '\\' ∉ value := fun member => (ne_of_not_special (special _ member)).2.2.2 rfl
  have last : (key ++ '=' :: value).getLast? ≠ some '\\' := by
    intro slash
    exact valueSlash (mem_of_getLast?_equals slash (by decide))
  have keyLast (slash : '\\' ∉ key) : key.getLast? ≠ some '\\' :=
    fun ends => slash (List.mem_of_getLast? ends)
  rw [Token.text_eq_self_iff last, Token.opensQuote_append_equals]
  constructor
  · rintro ⟨⟨p, reached⟩, slash, keyBare, values⟩
    have keySlash : '\\' ∉ key := fun member => slash (by simp [member])
    obtain ⟨q, before, _⟩ := Place.run_append_eq_some_iff.mp reached
    refine ⟨keySlash, by simp [before], ?_⟩
    exact (Token.text_eq_self_iff (keyLast keySlash)).mpr
      ⟨keySlash, keyBare, (split?_equals_iff keySlash bare).mp values⟩
  · rintro ⟨keySlash, unbroken, itself⟩
    obtain ⟨_, keyBare, values⟩ := (Token.text_eq_self_iff (keyLast keySlash)).mp itself
    obtain ⟨q, before⟩ := Option.ne_none_iff_exists'.mp unbroken
    have blanks : ∀ c ∈ '=' :: value, Text.isBlank c = false := by
      intro c member
      rcases List.mem_cons.mp member with rfl | member
      · decide
      · exact (ne_of_not_special (special c member)).1
    obtain ⟨p, after⟩ := run_of_notBlank blanks q
    refine ⟨⟨p, Place.run_append_eq_some_iff.mpr ⟨q, before, after⟩⟩, ?_, keyBare, ?_⟩
    · simpa [keySlash] using valueSlash
    · exact (split?_equals_iff keySlash bare).mpr values

theorem append_equals_cases {front rest key word : List Char}
    (whole : front ++ '=' :: rest = key ++ '=' :: word) (first : front.length ≤ key.length) :
    (front = key ∧ rest = word) ∨
      ∃ middle, key = front ++ '=' :: middle ∧ rest = middle ++ '=' :: word := by
  rcases List.append_eq_append_iff.mp whole with ⟨middle, longer, tails⟩ | ⟨middle, longer, tails⟩
  · cases middle with
    | nil => exact .inl (by simpa [eq_comm] using And.intro longer tails)
    | cons c middle =>
        obtain ⟨rfl, rfl⟩ := List.cons.inj tails
        exact .inr ⟨middle, longer, rfl⟩
  · have empty : middle = [] := by
      rw [longer, List.length_append] at first
      exact List.eq_nil_of_length_eq_zero (by omega)
    subst empty
    exact .inl (by simpa [eq_comm] using And.intro longer tails)

/-- A key and a quoted value are read as they stand where the key needs no quotes itself. -/
theorem standsQuoted_iff {key value word : List Char} (form : Form value word)
    (quoted : Token.opensQuote word = true) :
    (∃ p, Place.start.run (key ++ '=' :: word) = some p) ∧
        (Token.ofChars (key ++ '=' :: word)).text.toList = key ++ '=' :: value ↔
      StandsQuoted key := by
  constructor
  · rintro ⟨⟨p, reached⟩, read⟩
    rw [Token.text_ofChars] at read
    cases split : split? (key ++ '=' :: word) with
    | none =>
        rw [split] at read
        exact absurd read (form.read_with_key_ne quoted [] [] (by simp) key)
    | some parts =>
        obtain ⟨front, rest⟩ := parts
        obtain ⟨splits, nonempty⟩ := splits_of_split? split
        rw [split] at read
        have first : front.length ≤ key.length := by
          cases word with
          | nil => simp [Token.opensQuote] at quoted
          | cons c word =>
              exact splits.length_le_of_quote (by simpa [Token.opensQuote] using quoted)
        rcases append_equals_cases splits.eq_append.symm first with ⟨rfl, rfl⟩ | ⟨middle, rfl, rfl⟩
        · obtain ⟨same, _⟩ := List.append_inj' read (by simp [form.readChars.1])
          have plain := splits.plain_of_unescape same
          obtain ⟨q, before, _⟩ := Place.run_append_eq_some_iff.mp reached
          have special := notSpecial_of_run before fun c member =>
            ⟨(plain c member).1, (plain c member).2.1, (plain c member).2.2.1⟩
          exact ⟨by simpa [needsQuotes, nonempty] using special,
            fun member => (plain _ member).2.2.2 rfl⟩
        · -- the word was split inside the key, so the literal is read with the rest of the key
          have counts : ∀ c, c ≠ '\\' →
              (Word.unescape front ++ ['=']).count c = (front ++ ['=']).count c := by
            intro c slash
            rw [List.count_append, List.count_append, Word.count_unescape slash]
          exact absurd (by simpa using read) (form.read_with_key_ne quoted _ _ counts middle)
  · rintro ⟨bare, noEquals⟩
    obtain ⟨nonempty, special⟩ := plain_of_needsQuotes bare
    have plain : ∀ c ∈ key, c ≠ '"' ∧ c ≠ '\'' ∧ c ≠ '\\' ∧ c ≠ '=' := by
      intro c member
      obtain ⟨_, double, single, slash⟩ := ne_of_not_special (special c member)
      exact ⟨double, single, slash, fun equals => noEquals (equals ▸ member)⟩
    refine ⟨⟨Place.start, ?_⟩, ?_⟩
    · have equals : Finished ['='] := by decide
      exact (run_plain special).append (equals.append form.finished.2)
    · have split := (splits_of_plain plain word).split? nonempty
      rw [Token.text_ofChars, split]
      have slash : '\\' ∉ key := fun member => (plain _ member).2.2.1 rfl
      simp [Word.unescape_eq_self slash, form.readChars.1]

/-- The word of an assignment is one word that is read as the key and the value exactly where the
key may stand before that value. -/
theorem stands_iff (key value : List Char) (quote : Quote) :
    (∃ word, SplitLine.ofChars (key ++ '=' :: chars value quote) = ([word], false) ∧
        (Token.ofChars word).text.toList = key ++ '=' :: value) ↔
      Stands key value quote := by
  have nonempty : key ++ '=' :: chars value quote ≠ [] := by simp
  have whole : (∃ word, SplitLine.ofChars (key ++ '=' :: chars value quote) = ([word], false) ∧
        (Token.ofChars word).text.toList = key ++ '=' :: value) ↔
      (∃ p, Place.start.run (key ++ '=' :: chars value quote) = some p) ∧
        (Token.ofChars (key ++ '=' :: chars value quote)).text.toList = key ++ '=' :: value := by
    constructor
    · rintro ⟨word, one, read⟩
      -- the text has every blank of the line, so the line has lost none
      have blanks (c : Char) (blank : Text.isBlank c = true) :
          (key ++ '=' :: chars value quote).count c ≤ word.count c := by
        have kept := (Token.text_sublist word).count_le c
        rw [read] at kept
        simpa [List.count_cons, count_of_blank blank] using kept
      obtain ⟨p, reached⟩ := run_of_ofChars one blanks
      rw [ofChars_of_run nonempty reached] at one
      obtain rfl := (List.cons.inj (Prod.mk.inj one).1).1
      exact ⟨⟨p, reached⟩, read⟩
    · rintro ⟨⟨p, reached⟩, read⟩
      exact ⟨_, ofChars_of_run nonempty reached, read⟩
  rw [whole, Stands]
  split
  · rename_i held
    have written : chars value quote = value := by simp [chars, held.1, held.2]
    rw [written]
    exact standsBare_iff held.2
  · rename_i held
    have quoted : Token.opensQuote (chars value quote) = true := by
      unfold chars
      split
      · rfl
      · split
        · rename_i bare
          exact absurd (by simpa using bare) held
        · rfl
    exact standsQuoted_iff (chars_form value quote) quoted

end Assignment

end LineCompletion

import Mathlib.Data.List.Basic
import LineCompletion.Line.Token

/-! # What a word is read as

The text of a token is spelled out on characters: the part before an unescaped equals sign is
unescaped, and what follows it, or the whole word where there is none, is read by its quote.
-/

namespace LineCompletion

namespace Word

theorem unescape_cons {c : Char} (plain : c ≠ '\\') (rest : List Char) :
    unescape (c :: rest) = c :: unescape rest :=
  unescape.eq_2 c rest fun _ _ slash => absurd slash plain

theorem unescape_eq_self {cs : List Char} (plain : '\\' ∉ cs) : unescape cs = cs := by
  induction cs with
  | nil => rfl
  | cons c cs ih =>
      obtain ⟨head, tail⟩ := not_or.mp (mt List.mem_cons.mpr plain)
      rw [unescape_cons (Ne.symm head), ih tail]

theorem readDouble_cons {c : Char} (quote : c ≠ '"') (slash : c ≠ '\\') (rest : List Char) :
    readDouble (c :: rest) = (c :: (readDouble rest).1, (readDouble rest).2) := by
  rw [readDouble.eq_4 c rest (fun _ same => absurd same slash) (fun _ same => absurd same slash)]
  simp [quote]

theorem readDouble_escapeDouble (cs rest : List Char) :
    readDouble (Literal.escapeDouble cs ++ rest) =
      (cs ++ (readDouble rest).1, (readDouble rest).2) := by
  induction cs with
  | nil => rfl
  | cons c cs ih =>
      by_cases quote : c = '"'
      · subst quote
        simp [Literal.escapeDouble, readDouble, ih]
      · by_cases slash : c = '\\'
        · subst slash
          simp [Literal.escapeDouble, readDouble, ih]
        · simp [Literal.escapeDouble, quote, slash, readDouble_cons, ih]

theorem readSingle_append {cs : List Char} (plain : '\'' ∉ cs) (rest : List Char) :
    readSingle (cs ++ rest) = (cs ++ (readSingle rest).1, (readSingle rest).2) := by
  induction cs with
  | nil => rfl
  | cons c cs ih =>
      obtain ⟨head, tail⟩ := not_or.mp (mt List.mem_cons.mpr plain)
      simp [readSingle, Ne.symm head, ih tail]

theorem readChars_of_bare {cs : List Char} (bare : Token.opensQuote cs = false) :
    readChars cs = (unescape cs, .bare, true) := by
  cases cs with
  | nil => rfl
  | cons c rest =>
      simp only [Token.opensQuote, Bool.or_eq_false_iff, beq_eq_false_iff_ne] at bare
      exact readChars.eq_3 (c :: rest) (fun _ same => absurd (List.cons.inj same).1 bare.1)
        (fun _ same => absurd (List.cons.inj same).1 bare.2)

end Word

namespace Assignment

theorem splitRaw_cons {c : Char} (slash : c ≠ '\\') (rest : List Char) :
    splitRaw (c :: rest) =
      if c == '"' || c == '\'' then none
      else if c == '=' then some ([], rest)
      else (splitRaw rest).map fun r => (c :: r.1, r.2) :=
  splitRaw.eq_3 c rest fun _ _ same => absurd same slash

/-- A word and its parts around the first equals sign that is neither escaped nor behind a quote. -/
inductive Splits : List Char → List Char → List Char → Prop where
  | equals (rest : List Char) : Splits ('=' :: rest) [] rest
  | escaped (c : Char) {rest key value : List Char} (splits : Splits rest key value) :
      Splits ('\\' :: c :: rest) ('\\' :: c :: key) value
  | plain {c : Char} (plain : c ≠ '"' ∧ c ≠ '\'' ∧ c ≠ '\\' ∧ c ≠ '=')
      {rest key value : List Char} (splits : Splits rest key value) :
      Splits (c :: rest) (c :: key) value

theorem splits_of_splitRaw {cs key value : List Char} (split : splitRaw cs = some (key, value)) :
    Splits cs key value := by
  fun_induction splitRaw cs generalizing key with
  | case1 => simp at split
  | case2 c rest ih =>
      obtain ⟨⟨front, back⟩, found, parts⟩ := Option.map_eq_some_iff.mp split
      obtain ⟨rfl, rfl⟩ := Prod.mk.inj parts
      exact .escaped c (ih found)
  | case3 c rest lone quote => simp at split
  | case4 c rest lone quote equals =>
      obtain ⟨rfl, rfl⟩ := Prod.mk.inj (Option.some.inj split)
      obtain rfl : c = '=' := by simpa using equals
      exact .equals rest
  | case5 c rest lone quote equals ih =>
      obtain ⟨⟨front, back⟩, found, parts⟩ := Option.map_eq_some_iff.mp split
      obtain ⟨rfl, rfl⟩ := Prod.mk.inj parts
      have slash : c ≠ '\\' := by
        rintro rfl
        cases rest with
        | nil => simp [splitRaw] at found
        | cons d rest => exact lone d rest rfl rfl
      simp only [Bool.or_eq_true, beq_iff_eq, not_or] at quote equals
      exact .plain ⟨quote.1, quote.2, slash, equals⟩ (ih found)

theorem Splits.splitRaw {cs key value : List Char} (splits : Splits cs key value) :
    splitRaw cs = some (key, value) := by
  induction splits with
  | equals rest => rfl
  | escaped c splits ih => simp [Assignment.splitRaw, ih]
  | plain plain splits ih =>
      obtain ⟨double, single, slash, equals⟩ := plain
      simp [splitRaw_cons slash, double, single, equals, ih]

theorem Splits.eq_append {cs key value : List Char} (splits : Splits cs key value) :
    cs = key ++ '=' :: value := by
  induction splits with
  | equals rest => rfl
  | escaped c splits ih => simp [ih]
  | plain plain splits ih => simp [ih]

theorem split?_eq_splitRaw {c : Char} (equals : c ≠ '=') (rest : List Char) :
    split? (c :: rest) = splitRaw (c :: rest) :=
  split?.eq_2 (c :: rest) fun _ same => absurd (List.cons.inj same).1 equals

theorem split?_eq_none_of_splitRaw {cs : List Char} (whole : splitRaw cs = none) :
    split? cs = none := by
  cases cs with
  | nil => rfl
  | cons c rest =>
      by_cases equals : c = '='
      · subst equals
        rfl
      · rw [split?_eq_splitRaw equals, whole]

theorem split?_eq_none_of_opensQuote {cs : List Char} (opens : Token.opensQuote cs = true) :
    split? cs = none := by
  cases cs with
  | nil => rfl
  | cons c rest =>
      simp only [Token.opensQuote, Bool.or_eq_true, beq_iff_eq] at opens
      rcases opens with rfl | rfl <;> rfl

theorem opensQuote_of_split? {cs : List Char} {parts : List Char × List Char}
    (split : split? cs = some parts) : Token.opensQuote cs = false := by
  by_contra opens
  rw [split?_eq_none_of_opensQuote (by simpa using opens)] at split
  simp at split

theorem splits_of_split? {cs key value : List Char} (split : split? cs = some (key, value)) :
    Splits cs key value ∧ key ≠ [] := by
  cases cs with
  | nil => simp [split?, splitRaw] at split
  | cons c rest =>
      by_cases equals : c = '='
      · subst equals
        simp [split?] at split
      · rw [split?_eq_splitRaw equals] at split
        have splits := splits_of_splitRaw split
        refine ⟨splits, ?_⟩
        rintro rfl
        exact equals (List.cons.inj splits.eq_append).1

theorem Splits.split? {cs key value : List Char} (splits : Splits cs key value)
    (nonempty : key ≠ []) : split? cs = some (key, value) := by
  cases splits with
  | equals rest => exact absurd rfl nonempty
  | escaped c splits => exact (Splits.escaped c splits).splitRaw
  | plain plain splits =>
      rw [split?_eq_splitRaw plain.2.2.2]
      exact (Splits.plain plain splits).splitRaw

theorem eq_append_of_split? {cs key value : List Char} (split : split? cs = some (key, value)) :
    cs = key ++ '=' :: value :=
  (splits_of_split? split).1.eq_append

end Assignment

namespace Token

theorem ofChars_of_whole {cs : List Char} (whole : Assignment.split? cs = none) :
    ofChars cs = { Word.ofChars cs with assignment := none } := by
  simp [ofChars, whole]

theorem ofChars_of_split {cs key value : List Char}
    (split : Assignment.split? cs = some (key, value)) :
    ofChars cs =
      { raw := String.ofList cs
        text := String.ofList (Word.unescape key) ++ "=" ++ (Word.ofChars value).text
        quote := .bare
        closed := (Word.ofChars value).closed
        assignment := some
          { key := String.ofList (Word.unescape key), value := Word.ofChars value } } := by
  simp [ofChars, Assignment.opensQuote_of_split? split, split]

theorem text_ofChars (cs : List Char) :
    (ofChars cs).text.toList =
      match Assignment.split? cs with
      | none => (Word.readChars cs).1
      | some (key, value) => Word.unescape key ++ '=' :: (Word.readChars value).1 := by
  cases split : Assignment.split? cs with
  | none => simp [ofChars_of_whole split, Word.ofChars]
  | some parts => simp [ofChars_of_split split, Word.ofChars]

theorem closed_ofChars (cs : List Char) :
    (ofChars cs).closed =
      match Assignment.split? cs with
      | none => (Word.readChars cs).2.2
      | some (_, value) => (Word.readChars value).2.2 := by
  cases split : Assignment.split? cs with
  | none => simp [ofChars_of_whole split, Word.ofChars]
  | some parts => simp [ofChars_of_split split, Word.ofChars]

theorem assignment_ofChars (cs : List Char) :
    (ofChars cs).assignment =
      (Assignment.split? cs).map fun parts =>
        { key := String.ofList (Word.unescape parts.1), value := Word.ofChars parts.2 } := by
  cases split : Assignment.split? cs with
  | none => simp [ofChars_of_whole split]
  | some parts => simp [ofChars_of_split split]

theorem raw_ofChars (cs : List Char) : (ofChars cs).raw = String.ofList cs := by
  cases split : Assignment.split? cs with
  | none => simp [ofChars_of_whole split, Word.ofChars]
  | some parts => simp [ofChars_of_split split]

@[simp]
theorem raw_parse (raw : String) : (parse raw).raw = raw := by
  simp [parse, raw_ofChars]

theorem ofChars_of_opensQuote {cs : List Char} (opens : opensQuote cs = true) :
    ofChars cs = { Word.ofChars cs with assignment := none } :=
  ofChars_of_whole (Assignment.split?_eq_none_of_opensQuote opens)

/-- A word without quotes and backslashes stands for itself. -/
theorem ofChars_plain {cs : List Char} (plain : ∀ c ∈ cs, c ≠ '"' ∧ c ≠ '\'' ∧ c ≠ '\\') :
    (ofChars cs).text.toList = cs ∧ (ofChars cs).closed = true := by
  have slash {part : List Char} (sub : part ⊆ cs) : '\\' ∉ part :=
    fun member => (plain _ (sub member)).2.2 rfl
  have read {part : List Char} (sub : part ⊆ cs) : Word.readChars part = (part, .bare, true) := by
    rw [Word.readChars_of_bare, Word.unescape_eq_self (slash sub)]
    cases part with
    | nil => rfl
    | cons c rest =>
        obtain ⟨double, single, _⟩ := plain c (sub (by simp))
        simp [opensQuote, double, single]
  rw [text_ofChars, closed_ofChars]
  cases split : Assignment.split? cs with
  | none => simp [read (List.Subset.refl cs)]
  | some parts =>
      obtain ⟨key, value⟩ := parts
      have whole := Assignment.eq_append_of_split? split
      have keySub : key ⊆ cs := by simp [whole]
      have valueSub : value ⊆ cs := by
        rw [whole]
        exact fun c member => by simp [member]
      simp [read valueSub, Word.unescape_eq_self (slash keySub), whole]

end Token

end LineCompletion

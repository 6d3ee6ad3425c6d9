import LineCompletion.Proofs.Line.Layout
import LineCompletion.Proofs.Line.LeftOut

/-! # Words that have ended are closed

The line is split by one scan and its words are read by another, which escapes less inside double
quotes and starts again behind an equals sign. They agree on quotes: a word is closed exactly where
the first scan gets out of the quote that the word, or the value it assigns, opens.
-/

namespace LineCompletion

theorem Quote.ofChar?_cases {c : Char} {quote : Quote} (opens : ofChar? c = some quote) :
    c = '"' ∧ quote = .double ∨ c = '\'' ∧ quote = .single := by
  unfold ofChar? at opens
  split at opens
  · rename_i double
    exact .inl ⟨by simpa using double, (Option.some.inj opens).symm⟩
  · split at opens
    · rename_i single
      exact .inr ⟨by simpa using single, (Option.some.inj opens).symm⟩
    · simp at opens

namespace SplitLine.Place

/-- Whether the reader is outside quotes at some point of a text. -/
def Leaves (p : Place) (cs : List Char) : Prop :=
  ∃ front rest, cs = front ++ rest ∧ p.run front = some start

theorem leaves_start (cs : List Char) : start.Leaves cs :=
  ⟨[], cs, rfl, rfl⟩

theorem Leaves.of_run {p : Place} {cs : List Char} (reached : p.run cs = some start) :
    p.Leaves cs :=
  ⟨cs, [], by simp, reached⟩

theorem not_leaves_nil {p : Place} (away : p ≠ start) : ¬ p.Leaves [] := by
  rintro ⟨front, rest, whole, reached⟩
  obtain ⟨rfl, rfl⟩ := List.append_eq_nil_iff.mp whole.symm
  exact away (Option.some.inj reached)

theorem leaves_cons_iff {p next : Place} (away : p ≠ start) {c : Char}
    (stepped : p.step c = some next) (cs : List Char) : p.Leaves (c :: cs) ↔ next.Leaves cs := by
  constructor
  · rintro ⟨front, rest, whole, reached⟩
    cases front with
    | nil => exact absurd (Option.some.inj reached) away
    | cons d front =>
        obtain ⟨rfl, tails⟩ := List.cons.inj whole
        rw [run_cons, stepped, Option.bind_some] at reached
        exact ⟨front, rest, tails, reached⟩
  · rintro ⟨front, rest, rfl, reached⟩
    exact ⟨c :: front, rest, rfl, by rw [run_cons, stepped, Option.bind_some, reached]⟩

theorem leaves_escaped_iff (c : Char) (cs : List Char) :
    (within .double).Leaves ('\\' :: c :: cs) ↔ (within .double).Leaves cs := by
  have slash : (within .double).step '\\' = some (.escaped .double) := by decide
  have taken : (escaped .double).step c = some (within .double) := rfl
  rw [leaves_cons_iff (by decide) slash, leaves_cons_iff (by decide) taken]

theorem leaves_plain_iff {c : Char} (quote : c ≠ '"') (slash : c ≠ '\\') (cs : List Char) :
    (within .double).Leaves (c :: cs) ↔ (within .double).Leaves cs :=
  leaves_cons_iff (by decide) (by simp [step, quote, slash]) cs

theorem step_of_ofChar? {c : Char} {quote : Quote} (opens : Quote.ofChar? c = some quote) :
    start.step c = some (.within quote) := by
  rcases Quote.ofChar?_cases opens with ⟨rfl, rfl⟩ | ⟨rfl, rfl⟩ <;> decide

end SplitLine.Place

open SplitLine

namespace Word

/-- Inside double quotes a backslash takes any character along for the one scan and only a quote or
a backslash for the other, but no other character changes the state of either. -/
theorem readDouble_closed_iff (cs : List Char) :
    (readDouble cs).2 = true ↔ (Place.within .double).Leaves cs := by
  fun_induction readDouble cs with
  | case1 => simpa using Place.not_leaves_nil (p := .within .double) (by decide)
  | case2 rest r ih => exact ih.trans (Place.leaves_escaped_iff '"' rest).symm
  | case3 rest r ih => exact ih.trans (Place.leaves_escaped_iff '\\' rest).symm
  | case4 c rest quoteEscape slashEscape quote =>
      obtain rfl : c = '"' := by simpa using quote
      have closes : (Place.within .double).step '"' = some Place.start := by decide
      rw [Place.leaves_cons_iff (by decide) closes]
      exact iff_of_true rfl (Place.leaves_start rest)
  | case5 c rest quoteEscape slashEscape quote r ih =>
      have quote : c ≠ '"' := by simpa using quote
      refine ih.trans ?_
      -- the splitter takes a backslash and what follows in one, and here that is no quote
      by_cases slash : c = '\\'
      · subst slash
        cases rest with
        | nil =>
            have stepped : (Place.within .double).step '\\' = some (.escaped .double) := by decide
            rw [Place.leaves_cons_iff (by decide) stepped]
            exact iff_of_false (Place.not_leaves_nil (by decide)) (Place.not_leaves_nil (by decide))
        | cons d rest =>
            have notQuote : d ≠ '"' := fun same => quoteEscape rest rfl (by rw [same])
            have notSlash : d ≠ '\\' := fun same => slashEscape rest rfl (by rw [same])
            rw [Place.leaves_escaped_iff, Place.leaves_plain_iff notQuote notSlash]
      · exact (Place.leaves_plain_iff quote slash rest).symm

theorem readSingle_closed_iff (cs : List Char) :
    (readSingle cs).2 = true ↔ (Place.within .single).Leaves cs := by
  induction cs with
  | nil => simpa [readSingle] using Place.not_leaves_nil (p := .within .single) (by decide)
  | cons c cs ih =>
      by_cases quote : c = '\''
      · subst quote
        have closes : (Place.within .single).step '\'' = some Place.start := by decide
        rw [Place.leaves_cons_iff (by decide) closes]
        exact iff_of_true (by simp [readSingle]) (Place.leaves_start cs)
      · have stays : (Place.within .single).step c = some (.within .single) := by
          simp [Place.step, quote]
        rw [Place.leaves_cons_iff (by decide) stays, ← ih]
        simp [readSingle, quote]

theorem closed_readChars_iff {c : Char} {rest : List Char} :
    (readChars (c :: rest)).2.2 = true ↔
      ∀ quote, Quote.ofChar? c = some quote → (Place.within quote).Leaves rest := by
  cases opened : Quote.ofChar? c with
  | none =>
      have bare : Token.opensQuote (c :: rest) = false := by
        by_contra opens
        simp only [Token.opensQuote, Bool.not_eq_false, Bool.or_eq_true, beq_iff_eq] at opens
        rcases opens with rfl | rfl
        · exact absurd opened (by decide)
        · exact absurd opened (by decide)
      rw [readChars_of_bare bare]
      exact iff_of_true rfl (by simp)
  | some quote =>
      rcases Quote.ofChar?_cases opened with ⟨rfl, rfl⟩ | ⟨rfl, rfl⟩
      · simpa [readChars] using readDouble_closed_iff rest
      · simpa [readChars] using readSingle_closed_iff rest

theorem closed_readChars_of_finished {cs : List Char} (finished : Finished cs) :
    (readChars cs).2.2 = true := by
  cases cs with
  | nil => rfl
  | cons c rest =>
      rw [closed_readChars_iff]
      intro quote opens
      apply Place.Leaves.of_run
      rwa [Finished, Place.run_cons, Place.step_of_ofChar? opens, Option.bind_some] at finished

end Word

/-- The splitter stands outside quotes behind the key of an assignment. -/
theorem Assignment.Splits.run_value {cs key value : List Char} (splits : Splits cs key value)
    {p : Place} (reached : Place.start.run cs = some p) : Place.start.run value = some p := by
  induction splits with
  | equals rest =>
      have stepped : Place.start.step '=' = some Place.start := by decide
      rwa [Place.run_cons, stepped, Option.bind_some] at reached
  | escaped c splits ih =>
      apply ih
      have stepped : Place.start.step '\\' = some (.escaped .bare) := by decide
      rwa [Place.run_cons, stepped, Option.bind_some, Place.run_cons] at reached
  | @plain c plain rest key value splits ih =>
      obtain ⟨double, single, slash, _⟩ := plain
      apply ih
      cases stepped : Place.start.step c with
      | none => simp [stepped] at reached
      | some next =>
          have blank : Text.isBlank c = false := by
            by_contra blank
            simp [Place.start_step_blank (by simpa using blank)] at stepped
          obtain rfl : Place.start = next := by
            simpa [Place.step, double, single, slash, blank] using stepped
          rwa [Place.run_cons, stepped, Option.bind_some] at reached

namespace Token

theorem closed_of_finished {cs : List Char} (finished : Finished cs) :
    (ofChars cs).closed = true ∧ ∀ a, (ofChars cs).assignment = some a → a.value.closed = true := by
  cases split : Assignment.split? cs with
  | none =>
      rw [ofChars_of_whole split]
      exact ⟨Word.closed_readChars_of_finished finished, by simp⟩
  | some parts =>
      obtain ⟨key, value⟩ := parts
      have closed : (Word.ofChars value).closed = true :=
        Word.closed_readChars_of_finished
          ((Assignment.splits_of_split? split).1.run_value finished)
      rw [ofChars_of_split split]
      refine ⟨closed, ?_⟩
      rintro a assigned
      obtain rfl := Option.some.inj assigned
      exact closed

end Token

/-- Every word of a line, but the last one while it is still being typed, is read as a closed token,
and so is the value it assigns. -/
theorem SplitLine.ended_words_closed (line : String) :
    let split := ofLine line
    ∀ word ∈ (if split.trailingSpace then split.words else split.words.dropLast),
      (Token.parse word).closed = true ∧
        ∀ a, (Token.parse word).assignment = some a → a.value.closed = true := by
  intro split word member
  have ends := ofLine_wordsEnd line
  have finished : Finished word.toList := by
    split at member
    · rename_i trailing
      exact ends.finishedLast trailing _ (List.mem_map_of_mem member)
    · apply ends.finished
      rw [← List.map_dropLast]
      exact List.mem_map_of_mem member
  exact Token.closed_of_finished finished

/-- A quote that is escaped for both scans closes neither. -/
theorem SplitLine.ended_words_closed_assigned :
    let split := ofLine "git -m=\"a\\\"b c\" x"
    "-m=\"a\\\"b c\"" ∈ (if split.trailingSpace then split.words else split.words.dropLast) ∧
      (Token.parse "-m=\"a\\\"b c\"").closed = true := by
  intro split
  have member : "-m=\"a\\\"b c\"" ∈
      (if split.trailingSpace then split.words else split.words.dropLast) := by decide
  exact ⟨member, (ended_words_closed "git -m=\"a\\\"b c\" x" _ member).1⟩

end LineCompletion

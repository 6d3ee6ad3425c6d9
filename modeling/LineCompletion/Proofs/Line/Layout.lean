import Mathlib.Data.List.Infix
import LineCompletion.Suggest.Predictions
import LineCompletion.Proofs.Line.Splitting

/-! # The words of a line and the blanks around them

A line is a gap of blanks, then words with a gap behind each. A layout is sound where a word that a
blank follows is finished; every line has a sound layout, and the line is split into its words. So
the split loses nothing, and words joined by blanks are split into the same words again.
-/

namespace LineCompletion.SplitLine

/-- A line from left to right: blanks, and words with blanks behind them. -/
inductive Layout where
  /-- The blanks at the end of a line. -/
  | last (gap : List Char)
  /-- Blanks, a word, and what stands behind the word. -/
  | next (gap word : List Char) (rest : Layout)
  deriving Repr, DecidableEq, Inhabited

namespace Layout

def line : Layout → List Char
  | .last gap => gap
  | .next gap word rest => gap ++ word ++ rest.line

def words : Layout → List (List Char)
  | .last _ => []
  | .next _ word rest => word :: rest.words

/-- All gaps, those at the two ends of the line included. -/
def gaps : Layout → List (List Char)
  | .last gap => [gap]
  | .next gap _ rest => gap :: rest.gaps

/-- The gap before the first word, or the whole line where there is none. -/
def lead : Layout → List Char
  | .last gap => gap
  | .next gap _ _ => gap

/-- The gap behind the last word, or the whole line where there is none. -/
def final : Layout → List Char
  | .last gap => gap
  | .next _ _ rest => rest.final

/-- The same words one blank further to the right. -/
def indent (c : Char) : Layout → Layout
  | .last gap => .last (c :: gap)
  | .next gap word rest => .next (c :: gap) word rest

/-- Gaps hold blanks only and no blank breaks a word. Behind a word the line ends, or the word is
finished and a blank follows. -/
inductive Sound : Layout → Prop where
  | last {gap : List Char} (blank : ∀ c ∈ gap, Text.isBlank c = true) : Sound (.last gap)
  | next {gap word : List Char} {rest : Layout} (blank : ∀ c ∈ gap, Text.isBlank c = true)
      (nonempty : word ≠ []) (unbroken : ∃ p, Place.start.run word = some p)
      (ended : rest.line = [] ∨ rest.lead ≠ [] ∧ Finished word) (sound : Sound rest) :
      Sound (.next gap word rest)

@[simp]
theorem line_indent (c : Char) (layout : Layout) : (layout.indent c).line = c :: layout.line := by
  cases layout with
  | last gap => rfl
  | next gap word rest => rfl

@[simp]
theorem lead_indent (c : Char) (layout : Layout) : (layout.indent c).lead = c :: layout.lead := by
  cases layout with
  | last gap => rfl
  | next gap word rest => rfl

theorem Sound.indent {layout : Layout} (sound : layout.Sound) {c : Char}
    (blank : Text.isBlank c = true) : (layout.indent c).Sound := by
  cases sound with
  | last blanks => exact .last (List.forall_mem_cons.mpr ⟨blank, blanks⟩)
  | next blanks nonempty unbroken ended sound =>
      exact .next (List.forall_mem_cons.mpr ⟨blank, blanks⟩) nonempty unbroken ended sound

theorem Sound.eq_last_nil {layout : Layout} (sound : layout.Sound) (empty : layout.line = []) :
    layout = .last [] := by
  cases sound with
  | last blank => exact congrArg Layout.last empty
  | next blank nonempty => simp [line, nonempty] at empty

theorem Sound.line_of_lead {layout : Layout} (sound : layout.Sound) (lead : layout.lead ≠ []) :
    ∃ c rest, Text.isBlank c = true ∧ layout.line = c :: rest := by
  cases sound with
  | @last gap blank =>
      obtain ⟨c, gap, rfl⟩ := List.exists_cons_of_ne_nil lead
      exact ⟨c, gap, blank c (by simp), rfl⟩
  | @next gap word rest blank =>
      obtain ⟨c, gap, rfl⟩ := List.exists_cons_of_ne_nil lead
      exact ⟨c, gap ++ word ++ rest.line, blank c (by simp), rfl⟩

theorem gaps_ne_nil (layout : Layout) : layout.gaps ≠ [] := by
  cases layout with
  | last gap => exact List.cons_ne_nil gap []
  | next gap word rest => exact List.cons_ne_nil gap rest.gaps

theorem final_of_words_eq_nil {layout : Layout} (none : layout.words = []) :
    layout.final = layout.line := by
  cases layout with
  | last gap => rfl
  | next gap word rest => exact absurd none (List.cons_ne_nil word rest.words)

theorem Sound.isBlank {layout : Layout} (sound : layout.Sound) :
    ∀ gap ∈ layout.gaps, ∀ c ∈ gap, Text.isBlank c = true := by
  induction sound with
  | last blank => simpa [gaps] using blank
  | next blank _ _ _ _ ih => exact List.forall_mem_cons.mpr ⟨blank, ih⟩

theorem Sound.separated {layout : Layout} (sound : layout.Sound) :
    ∀ gap ∈ layout.gaps.tail.dropLast, gap ≠ [] := by
  induction sound with
  | last blank => simp [gaps]
  | @next gap word rest blank nonempty unbroken ended sound ih =>
      cases rest with
      | last after => simp [gaps]
      | next after other rest =>
          have lead : after ≠ [] := by
            rcases ended with empty | ⟨lead, _⟩
            · simpa using sound.eq_last_nil empty
            · exact lead
          simp only [gaps, List.tail_cons] at ih ⊢
          rw [List.dropLast_cons_of_ne_nil rest.gaps_ne_nil]
          exact List.forall_mem_cons.mpr ⟨lead, ih⟩

/-! ## Every line has a layout -/

theorem exists_after {p : Place} {word : List Char}
    (reached : Place.start.run word.reverse = some p) (cs : List Char) :
    ∃ layout : Layout, layout.Sound ∧ layout.line = word.reverse ++ cs ∧
      (word ≠ [] → layout.lead = []) := by
  -- along the reader: `word` is what it has taken of a word, and the layout starts with that word
  induction cs generalizing p word with
  | nil =>
      by_cases empty : word = []
      · subst empty
        exact ⟨.last [], .last (by simp), rfl, fun _ => rfl⟩
      · refine ⟨.next [] word.reverse (.last []), ?_, by simp [line], fun _ => rfl⟩
        exact .next (by simp) (by simpa using empty) ⟨p, reached⟩ (.inl rfl) (.last (by simp))
  | cons c cs ih =>
      cases stepped : p.step c with
      | none =>
          obtain ⟨rfl, blank⟩ := Place.eq_start_of_step_eq_none stepped
          obtain ⟨rest, sound, whole, _⟩ := @ih Place.start [] rfl
          by_cases empty : word = []
          · subst empty
            exact ⟨rest.indent c, sound.indent blank, by simp [whole], fun some => absurd rfl some⟩
          · refine ⟨.next [] word.reverse (rest.indent c), ?_, by simp [line, whole], fun _ => rfl⟩
            refine .next (by simp) (by simpa using empty) ⟨_, reached⟩ (.inr ⟨?_, reached⟩)
              (sound.indent blank)
            simp
      | some next =>
          have longer : Place.start.run (c :: word).reverse = some next := by
            simp [Place.run_append, reached, stepped]
          obtain ⟨layout, sound, whole, lead⟩ := ih longer
          exact ⟨layout, sound, by simpa using whole, fun _ => lead (List.cons_ne_nil c word)⟩

theorem exists_line (cs : List Char) : ∃ layout : Layout, layout.Sound ∧ layout.line = cs := by
  obtain ⟨layout, sound, whole, _⟩ := @exists_after Place.start [] rfl cs
  exact ⟨layout, sound, whole⟩

/-! ## A layout is read as its words -/

theorem readFrom_blanks {gap : List Char} (blank : ∀ c ∈ gap, Text.isBlank c = true)
    (trailing : Bool) (rest : List Char) :
    readFrom Place.start [] trailing (gap ++ rest) =
      readFrom Place.start [] (trailing || !gap.isEmpty) rest := by
  induction gap generalizing trailing with
  | nil => simp
  | cons c gap ih =>
      obtain ⟨first, others⟩ := List.forall_mem_cons.mp blank
      rw [List.cons_append, readFrom_blank first, ih others]
      simp [flush]

/-- The flag at the start counts only for a line without words. -/
theorem Sound.readFrom_line {layout : Layout} (sound : layout.Sound) (trailing : Bool) :
    readFrom Place.start [] trailing layout.line =
      (layout.words, !layout.final.isEmpty || (trailing && layout.words.isEmpty)) := by
  induction sound generalizing trailing with
  | @last gap blank =>
      have read := readFrom_blanks blank trailing []
      rw [List.append_nil] at read
      rw [line, read]
      simp [readFrom, flush, words, final, Bool.or_comm]
  | @next gap word rest blank nonempty unbroken ended sound ih =>
      obtain ⟨p, reached⟩ := unbroken
      have started : word.reverse ≠ [] := by simpa using nonempty
      rw [line, List.append_assoc, readFrom_blanks blank, readFrom_append reached, List.append_nil]
      rcases ended with empty | ⟨lead, finished⟩
      · obtain rfl := sound.eq_last_nil empty
        simp [line, readFrom, flush_of_ne_nil started, words, final, nonempty]
      · -- the blank that ends the word belongs to the next gap
        obtain rfl : p = Place.start := Option.some.inj (reached.symm.trans finished)
        obtain ⟨c, more, first, starts⟩ := sound.line_of_lead lead
        have read := ih false
        rw [starts, readFrom_blank first] at read ⊢
        obtain ⟨others, flag⟩ := Prod.mk.inj read
        rw [flush_of_ne_nil started, flag]
        simp only [flush, List.isEmpty_nil, if_true] at others
        simp [others, words, final]

theorem Sound.ofChars_line {layout : Layout} (sound : layout.Sound) :
    ofChars layout.line = (layout.words, !layout.final.isEmpty) := by
  rw [ofChars_eq_readFrom, sound.readFrom_line]
  simp

end Layout

/-- A line is split into words exactly where it is laid out as these words, and the flag tells of a
gap at its end. -/
theorem ofChars_eq_iff {cs : List Char} {words : List (List Char)} {trailing : Bool} :
    ofChars cs = (words, trailing) ↔
      ∃ layout : Layout, layout.Sound ∧ layout.line = cs ∧ layout.words = words ∧
        trailing = !layout.final.isEmpty := by
  constructor
  · intro split
    obtain ⟨layout, sound, rfl⟩ := Layout.exists_line cs
    rw [sound.ofChars_line] at split
    obtain ⟨words, flag⟩ := Prod.mk.inj split
    exact ⟨layout, sound, rfl, words, flag.symm⟩
  · rintro ⟨layout, sound, rfl, rfl, rfl⟩
    exact sound.ofChars_line

/-! ## The words of any line -/

/-- Every word of a split line is unbroken, and all but the last are finished. The last one is
finished too when the line ends in a blank. -/
structure WordsEnd (words : List (List Char)) (trailing : Bool) : Prop where
  nonempty : ∀ word ∈ words, word ≠ []
  unbroken : ∀ word ∈ words, ∃ p, Place.start.run word = some p
  finished : ∀ word ∈ words.dropLast, Finished word
  finishedLast : trailing = true → ∀ word ∈ words, Finished word

theorem WordsEnd.dropLast {words : List (List Char)} {trailing : Bool}
    (ends : WordsEnd words trailing) : WordsEnd words.dropLast trailing where
  nonempty word member := ends.nonempty word (List.mem_of_mem_dropLast member)
  unbroken word member := ends.unbroken word (List.mem_of_mem_dropLast member)
  finished word member := ends.finished word (List.mem_of_mem_dropLast member)
  finishedLast _ word member := ends.finished word member

theorem wordsEnd_of_finished {words : List (List Char)}
    (whole : ∀ word ∈ words, word ≠ [] ∧ Finished word) : WordsEnd words true where
  nonempty word member := (whole word member).1
  unbroken word member := ⟨Place.start, (whole word member).2⟩
  finished word member := (whole word (List.mem_of_mem_dropLast member)).2
  finishedLast _ word member := (whole word member).2

theorem Layout.Sound.wordsEnd {layout : Layout} (sound : layout.Sound) :
    WordsEnd layout.words (!layout.final.isEmpty) := by
  induction sound with
  | last blank => exact ⟨by simp [words], by simp [words], by simp [words], by simp [words]⟩
  | @next gap word rest blank nonempty unbroken ended sound ih =>
      refine ⟨List.forall_mem_cons.mpr ⟨nonempty, ih.nonempty⟩,
        List.forall_mem_cons.mpr ⟨unbroken, ih.unbroken⟩, ?_, ?_⟩
      · rcases ended with empty | ⟨_, finished⟩
        · obtain rfl := sound.eq_last_nil empty
          simp [words]
        · rw [words]
          by_cases none : rest.words = []
          · simp [none]
          · rw [List.dropLast_cons_of_ne_nil none]
            exact List.forall_mem_cons.mpr ⟨finished, ih.finished⟩
      · intro trailing
        rcases ended with empty | ⟨_, finished⟩
        · obtain rfl := sound.eq_last_nil empty
          simp [final] at trailing
        · exact List.forall_mem_cons.mpr ⟨finished, ih.finishedLast trailing⟩

theorem ofChars_wordsEnd (cs : List Char) : WordsEnd (ofChars cs).1 (ofChars cs).2 := by
  obtain ⟨layout, sound, rfl⟩ := Layout.exists_line cs
  rw [sound.ofChars_line]
  exact sound.wordsEnd

/-- A line is one word, with all its blanks, only where no blank breaks it. -/
theorem run_of_ofChars {cs word : List Char} {trailing : Bool}
    (one : ofChars cs = ([word], trailing))
    (blanks : ∀ c, Text.isBlank c = true → cs.count c ≤ word.count c) :
    ∃ p, Place.start.run cs = some p := by
  obtain ⟨layout, sound, rfl, words, _⟩ := ofChars_eq_iff.mp one
  cases sound with
  | last blank => simp [Layout.words] at words
  | @next gap first rest blank nonempty unbroken ended sound =>
      cases sound with
      | next => simp [Layout.words] at words
      | @last after blankAfter =>
          obtain rfl : first = word := by simpa [Layout.words] using words
          -- every character of a gap would be counted once too often
          have none (c : Char) (member : c ∈ gap ∨ c ∈ after) : False := by
            have blank : Text.isBlank c = true := member.elim (blank c) (blankAfter c)
            have kept := blanks c blank
            simp only [Layout.line, List.count_append] at kept
            rcases member with member | member
            · have counted := List.count_pos_iff.mpr member
              omega
            · have counted := List.count_pos_iff.mpr member
              omega
          have gapEmpty : gap = [] :=
            List.eq_nil_iff_forall_not_mem.mpr fun c member => none c (.inl member)
          have afterEmpty : after = [] :=
            List.eq_nil_iff_forall_not_mem.mpr fun c member => none c (.inr member)
          simpa [Layout.line, gapEmpty, afterEmpty] using unbroken

/-! ## Words joined by blanks -/

theorem readFrom_trailing {cs : List Char} (nonempty : cs ≠ []) (trailing : Bool) :
    readFrom Place.start [] trailing cs = ofChars cs := by
  rw [ofChars_eq_readFrom]
  cases cs with
  | nil => exact absurd rfl nonempty
  | cons c cs => rfl

theorem ofChars_finished {word rest : List Char} (nonempty : word ≠ []) (finished : Finished word)
    (more : rest ≠ []) :
    ofChars (word ++ ' ' :: rest) = (word :: (ofChars rest).1, (ofChars rest).2) := by
  rw [ofChars_eq_readFrom, readFrom_append finished, readFrom_blank (by decide),
    readFrom_trailing more, flush_of_ne_nil (by simpa using nonempty)]
  simp

theorem ofChars_join {words : List (List Char)}
    (whole : ∀ word ∈ words, word ≠ [] ∧ Finished word) {last : List Char} (nonempty : last ≠ []) :
    ofChars ([' '].intercalate (words ++ [last])) =
      (words ++ (ofChars last).1, (ofChars last).2) := by
  induction words with
  | nil => simp
  | cons word words ih =>
      obtain ⟨⟨some, finished⟩, others⟩ := List.forall_mem_cons.mp whole
      have line : [' '].intercalate (word :: (words ++ [last])) =
          word ++ ' ' :: [' '].intercalate (words ++ [last]) := by
        rw [List.intercalate_cons_of_ne_nil (by simp), List.append_assoc, List.singleton_append]
      have more : [' '].intercalate (words ++ [last]) ≠ [] := by
        cases words with
        | nil => simpa using nonempty
        | cons next words => simp [List.intercalate_cons_of_ne_nil, (others next (by simp)).1]
      rw [List.cons_append, line, ofChars_finished some finished more, ih others]
      rfl

theorem ofChars_join_iff {words : List (List Char)} (nonempty : ∀ word ∈ words, word ≠ [])
    {last : List Char} (more : last ≠ []) (word : List Char) :
    ofChars ([' '].intercalate (words ++ [last])) = (words ++ [word], false) ↔
      (∀ word ∈ words, Finished word) ∧ ofChars last = ([word], false) := by
  constructor
  · intro split
    have ends := ofChars_wordsEnd ([' '].intercalate (words ++ [last]))
    rw [split] at ends
    have finished : ∀ word ∈ words, Finished word := by simpa using ends.finished
    rw [ofChars_join (fun other member => ⟨nonempty other member, finished other member⟩)
      more] at split
    obtain ⟨rest, flag⟩ := Prod.mk.inj split
    exact ⟨finished, Prod.ext (List.append_cancel_left rest) flag⟩
  · rintro ⟨finished, one⟩
    rw [ofChars_join (fun other member => ⟨nonempty other member, finished other member⟩) more, one]

/-- The words of a line, joined by blanks, are split into the same words. -/
theorem WordsEnd.ofChars_join {words : List (List Char)} {trailing : Bool}
    (ends : WordsEnd words trailing) : ofChars ([' '].intercalate words) = (words, false) := by
  rcases List.eq_nil_or_concat' words with rfl | ⟨front, last, rfl⟩
  · rfl
  · have before : ∀ word ∈ front, word ≠ [] ∧ Finished word := by
      intro word member
      exact ⟨ends.nonempty word (by simp [member]), ends.finished word (by simpa using member)⟩
    have nonempty : last ≠ [] := ends.nonempty last (by simp)
    obtain ⟨p, reached⟩ := ends.unbroken last (by simp)
    rw [SplitLine.ofChars_join before nonempty, ofChars_of_run nonempty reached]

/-! ## Lines as strings -/

/-- Every blank of a word stands inside quotes or behind a backslash. -/
def Guarded (word : List Char) : Prop :=
  ∀ before c after, word = before ++ c :: after → Text.isBlank c = true →
    ∃ p, Place.start.run before = some p ∧ p ≠ Place.start

theorem guarded_of_run {word : List Char} {p : Place} (reached : Place.start.run word = some p) :
    Guarded word := by
  intro before c after whole blank
  rw [whole] at reached
  obtain ⟨q, there, onward⟩ := Place.run_append_eq_some_iff.mp reached
  refine ⟨q, there, ?_⟩
  rintro rfl
  simp [Place.start_step_blank blank] at onward

theorem ofLine_eq_iff {line : String} {words : List String} {trailing : Bool} :
    ofLine line = ⟨words, trailing⟩ ↔
      ofChars line.toList = (words.map String.toList, trailing) := by
  have back (parts : List (List Char)) :
      parts.map String.ofList = words ↔ parts = words.map String.toList := by
    constructor
    · rintro rfl
      simp [Function.comp_def]
    · rintro rfl
      simp [Function.comp_def]
  rw [ofLine, SplitLine.mk.injEq, back, Prod.ext_iff]

theorem ofLine_wordsEnd (line : String) :
    WordsEnd ((ofLine line).words.map String.toList) (ofLine line).trailingSpace := by
  have ends := ofChars_wordsEnd line.toList
  simpa [ofLine, Function.comp_def] using ends

/-- A line is its words with gaps of blanks around them, none of them empty between two words, and
the flag tells of a gap at the end. No blank of a word could end it, the words joined by blanks are
split into the same words, and each of them alone into itself. -/
theorem words_and_gaps_of_line (line : String) :
    let split := ofLine line
    (∃ layout : Layout,
        layout.line = line.toList ∧ layout.words = split.words.map String.toList ∧
          (∀ gap ∈ layout.gaps, ∀ c ∈ gap, Text.isBlank c = true) ∧
          (∀ gap ∈ layout.gaps.tail.dropLast, gap ≠ []) ∧
          (split.trailingSpace = true ↔ layout.final ≠ [])) ∧
      (split.words = [] → (split.trailingSpace = true ↔ line ≠ "")) ∧
      (∀ word ∈ split.words, word ≠ "" ∧ Guarded word.toList) ∧
      ofLine (Predictions.joinWords split.words) = ⟨split.words, false⟩ ∧
      ∀ word ∈ split.words, ofLine word = ⟨[word], false⟩ := by
  intro split
  have ends := ofLine_wordsEnd line
  have whole (word : String) (member : word ∈ split.words) :
      word.toList ≠ [] ∧ ∃ p, Place.start.run word.toList = some p :=
    ⟨ends.nonempty _ (List.mem_map_of_mem member), ends.unbroken _ (List.mem_map_of_mem member)⟩
  have read : ofChars line.toList = (split.words.map String.toList, split.trailingSpace) :=
    ofLine_eq_iff.mp rfl
  obtain ⟨layout, sound, lineSame, wordsSame, flagSame⟩ := ofChars_eq_iff.mp read
  have flag : split.trailingSpace = true ↔ layout.final ≠ [] := by simp [flagSame]
  refine ⟨⟨layout, lineSame, wordsSame, sound.isBlank, sound.separated, flag⟩, ?_, ?_, ?_, ?_⟩
  · intro none
    have empty : layout.words = [] := by rw [wordsSame, List.map_eq_nil_iff.mpr none]
    rw [flag, Layout.final_of_words_eq_nil empty, lineSame]
    simp
  · intro word member
    obtain ⟨nonempty, p, reached⟩ := whole word member
    exact ⟨by simpa using nonempty, guarded_of_run reached⟩
  · rw [ofLine_eq_iff]
    simpa [Predictions.joinWords] using ends.ofChars_join
  · intro word member
    obtain ⟨nonempty, p, reached⟩ := whole word member
    rw [ofLine_eq_iff]
    exact ofChars_of_run nonempty reached

/-- A blank in quotes belongs to its word. -/
theorem words_and_gaps_of_line_quoted :
    "\"a b\"" ∈ (ofLine "git -m  \"a b\" ").words ∧ Guarded "\"a b\"".toList ∧
      ofLine "\"a b\"" = ⟨["\"a b\""], false⟩ := by
  have member : "\"a b\"" ∈ (ofLine "git -m  \"a b\" ").words := by decide
  obtain ⟨_, _, words, _, alone⟩ := words_and_gaps_of_line "git -m  \"a b\" "
  exact ⟨member, (words _ member).2, alone _ member⟩

end LineCompletion.SplitLine

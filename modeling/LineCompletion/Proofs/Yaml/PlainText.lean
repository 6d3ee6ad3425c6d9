import LineCompletion.Proofs.Yaml.Styles

/-! # Plain text read back

A plain text is read word by word, and the spaces between two words are kept. It ends with its line,
as long as the next line is indented by less.
-/

namespace LineCompletion.Yaml

variable {rest : List Char} {i l k : Nat}

theorem length_spaces (n : Nat) : (spaces n).length = n :=
  List.length_replicate

theorem eq_spaces {cs : List Char} (all : ∀ c ∈ cs, c = ' ') : cs = spaces cs.length :=
  List.eq_replicate_of_mem all

/-! ## Gaps -/

variable {indent : Nat} {g : Gap}

theorem gap_read_stop (stop : ∀ c ∈ rest.head?, isGap c = false) (fuel : Nat) :
    Gap.read indent fuel g ⟨rest, i, l, k⟩ = some (g, ⟨rest, i, l, k⟩) := by
  cases fuel with
  | zero => rfl
  | succ fuel =>
      cases rest with
      | nil => rfl
      | cons c rest =>
          obtain ⟨space, ends⟩ := isGap_eq_false.mp (stop c rfl)
          simp [Gap.read, Cursor.peek_cons, space, ends]

theorem gap_read_spaces (n : Nat) :
    Gap.read indent ((spaces n ++ rest).length + 1) g ⟨spaces n ++ rest, i, l, k⟩ =
      Gap.read indent (rest.length + 1)
        { g with spaces := if g.first.isSome then g.spaces else g.spaces ++ spaces n }
        ⟨rest, i + n, l, k + n⟩ := by
  induction n generalizing g i k with
  | zero => simp [spaces]
  | succ n ih =>
      have first : spaces (n + 1) ++ rest = ' ' :: (spaces n ++ rest) := rfl
      have space : isSpace ' ' = true := rfl
      have later : ∀ sp : List Char, sp ++ [' '] ++ spaces n = sp ++ spaces (n + 1) := by
        intro sp
        rw [List.append_assoc]
        rfl
      rw [first, List.length_cons, Gap.read]
      simp only [Cursor.peek_cons, space, if_true, Cursor.skip_eq, List.drop_succ_cons,
        List.drop_zero]
      cases begun : g.first with
      | none =>
          have moved := ih (g := { g with spaces := g.spaces ++ [' '] }) (i := i + 1) (k := k + 1)
          simp only [begun, later, Nat.add_right_comm i 1 n, Nat.add_right_comm k 1 n] at moved
          simpa [begun, Nat.add_assoc, Nat.add_comm 1 n] using moved
      | some first =>
          have moved := ih (g := g) (i := i + 1) (k := k + 1)
          simpa [begun, Nat.add_assoc, Nat.add_comm 1 n] using moved

theorem gap_read_break {c : Char} (ends : isBreak c = true) (printable : isPrintable c = true) :
    Gap.read indent ((c :: rest).length + 1) g ⟨c :: rest, i, l, k⟩ =
      Gap.read indent (rest.length + 1)
        (if g.first.isSome then { g with more := g.more ++ [c] } else { g with first := some [c] })
        ⟨rest, i + 1, l + 1, 0⟩ := by
  have solid : isSpace c = false := by
    obtain rfl | rfl | rfl := break_cases ends printable <;> rfl
  simp only [List.length_cons, Gap.read, Cursor.peek_cons, solid, ends, Bool.false_eq_true,
    if_false, if_true, Cursor.nextLine_cons ends printable]
  split <;> rfl

/-! ## Words -/

theorem gapFollows_append {run : List Char} (solid : gapFollows run = false) (rest : List Char) :
    gapFollows (run ++ rest) = false := by
  cases run with
  | nil => simp [gapFollows] at solid
  | cons c run => exact solid

theorem gapFollows_of_clean {before : Option Char}
    (clean : (scan before {} (':' :: rest)).indicator = false) : gapFollows rest = false := by
  have first := ((scan_cons_eq_false Features.splits_indicator).mp clean).1
  cases before with
  | none => simpa [Features.ofChar, leadsBlock] using first
  | some b => simpa [Features.ofChar] using first

theorem readPlainWord_step {c : Char} (solid : isGap c = false)
    (goes : c = ':' → gapFollows rest = false) (fuel : Nat) (acc : List Char) :
    readPlainWord false (fuel + 1) acc ⟨c :: rest, i, l, k⟩ =
      readPlainWord false fuel (c :: acc) ⟨rest, i + 1, l, k + 1⟩ := by
  have apart : (c == ':' && gapFollows rest) = false := by
    by_cases colon : c = ':'
    · simp [goes colon]
    · simp [colon]
  simp only [readPlainWord, Cursor.atGap_cons, solid, Cursor.meets_cons, Cursor.atGap_one, apart,
    Cursor.peek_cons, Bool.false_and, Bool.or_false, Bool.false_eq_true, if_false]
  rfl

theorem readPlainWord_run {word later : List Char} {before : Option Char}
    (solid : ∀ c ∈ word, isGap c = false)
    (clean : (scan before {} (word ++ later)).indicator = false) (tail acc : List Char) :
    readPlainWord false ((word ++ (later ++ tail)).length + 1) acc
        ⟨word ++ (later ++ tail), i, l, k⟩ =
      readPlainWord false ((later ++ tail).length + 1) (word.reverse ++ acc)
        ⟨later ++ tail, i + word.length, l, k + word.length⟩ := by
  induction word generalizing before acc i k with
  | nil => rfl
  | cons c word ih =>
      obtain ⟨first, others⟩ := List.forall_mem_cons.mp solid
      have goes : c = ':' → gapFollows (word ++ (later ++ tail)) = false := by
        rintro rfl
        rw [← List.append_assoc]
        exact gapFollows_append (gapFollows_of_clean clean) tail
      have free := ((scan_cons_eq_false Features.splits_indicator).mp clean).2
      rw [List.cons_append, List.length_cons, readPlainWord_step first goes, ih others free]
      simp [Nat.add_assoc, Nat.add_comm 1]

theorem readPlainWord_stop (stop : gapFollows rest = true) (fuel : Nat) (acc : List Char) :
    readPlainWord false fuel acc ⟨rest, i, l, k⟩ = some (acc, ⟨rest, i, l, k⟩) := by
  cases fuel with
  | zero => rfl
  | succ fuel => simp [readPlainWord, Cursor.atGap_eq, stop]

theorem readPlainWord_colon (stop : gapFollows rest = true) (fuel : Nat) (acc : List Char) :
    readPlainWord false fuel acc ⟨':' :: rest, i, l, k⟩ = some (acc, ⟨':' :: rest, i, l, k⟩) := by
  cases fuel with
  | zero => rfl
  | succ fuel => simp [readPlainWord, Cursor.atGap_one, Cursor.meets_cons, stop]

theorem readPlainWord_gap {word later : List Char} {before : Option Char}
    (solid : ∀ c ∈ word, isGap c = false)
    (clean : (scan before {} (word ++ later)).indicator = false) {tail : List Char}
    (stop : gapFollows (later ++ tail) = true) :
    readPlainWord false ((word ++ (later ++ tail)).length + 1) []
        ⟨word ++ (later ++ tail), i, l, k⟩ =
      some (word.reverse, ⟨later ++ tail, i + word.length, l, k + word.length⟩) := by
  rw [readPlainWord_run solid clean, readPlainWord_stop stop, List.append_nil]

/-! ## Texts -/

section Step

variable {c next : Cursor} {word : List Char}

theorem readPlain_last (indent fuel : Nat) (acc : List Char) (g : Gap)
    (mark : c.atDocumentMark = false) (comment : c.meets '#' = false)
    (read : readPlainWord false (c.rest.length + 1) [] c = some (word, next)) (filled : word ≠ [])
    (last : (next.atSpace || next.peek.any isBreak) = false) :
    readPlain false indent (fuel + 1) acc g c =
      some { reversed := word ++ g.text.reverse ++ acc, lineEnded := false, next } := by
  simp only [readPlain, mark, comment, read, List.isEmpty_iff, filled, last, Bool.or_self,
    Bool.false_eq_true, if_false, Bool.not_false, if_true, bind, Option.bind_some]

theorem readPlain_gap (indent fuel : Nat) (acc : List Char) (g : Gap)
    (mark : c.atDocumentMark = false) (comment : c.meets '#' = false)
    (read : readPlainWord false (c.rest.length + 1) [] c = some (word, next)) (filled : word ≠ [])
    (goes : (next.atSpace || next.peek.any isBreak) = true) {gap : Gap} {after : Cursor}
    (passed : Gap.read indent (next.rest.length + 1) {} next = some (gap, after)) :
    readPlain false indent (fuel + 1) acc g c =
      if after.column < indent then
        some { reversed := word ++ g.text.reverse ++ acc, lineEnded := gap.first.isSome
               next := after }
      else readPlain false indent fuel (word ++ g.text.reverse ++ acc) gap after := by
  simp only [readPlain, mark, comment, read, List.isEmpty_iff, filled, goes, passed, Bool.or_self,
    Bool.false_eq_true, if_false, Bool.not_true, Bool.not_false, Bool.true_and, decide_eq_true_eq,
    bind, Option.bind_some]

end Step

theorem meets_comment {word : List Char} {before : Option Char} (filled : word ≠ [])
    (clean : (scan before {} word).indicator = false) (gap : before.all isGap = true)
    (rest : List Char) : (⟨word ++ rest, i, l, k⟩ : Cursor).meets '#' = false := by
  cases word with
  | nil => exact absurd rfl filled
  | cons c word =>
      have first := ((scan_cons_eq_false Features.splits_indicator).mp clean).1
      rw [List.cons_append, Cursor.meets_cons, beq_eq_false_iff_ne]
      rintro rfl
      cases before with
      | none => simp [Features.ofChar, leadsBlock] at first
      | some b => simp_all [Features.ofChar]

theorem readPlain_word {word : List Char} (bare : Bare word) (solid : ∀ c ∈ word, isGap c = false)
    (lead : ∀ c ∈ word.head?, c ≠ '-' ∧ c ≠ '.') (stop : gapFollows rest = true)
    (indent fuel : Nat) :
    readPlain false indent (fuel + 1) [] {} ⟨word ++ ':' :: rest, i, l, k⟩ =
      some { reversed := word.reverse, lineEnded := false
             next := ⟨':' :: rest, i + word.length, l, k + word.length⟩ } := by
  have mark : (⟨word ++ ':' :: rest, i, l, k⟩ : Cursor).atDocumentMark = false := by
    obtain ⟨c, cs, rfl⟩ := List.exists_cons_of_ne_nil bare.filled
    obtain ⟨dash, dot⟩ := lead c rfl
    simp [Cursor.atDocumentMark, Cursor.atMark, Cursor.meets_cons, dash, dot]
  have read : readPlainWord false ((word ++ ':' :: rest).length + 1) []
      ⟨word ++ ':' :: rest, i, l, k⟩ =
        some (word.reverse, ⟨':' :: rest, i + word.length, l, k + word.length⟩) := by
    have clean : (scan none {} (word ++ [])).indicator = false := by
      rw [List.append_nil]
      exact bare.clean
    have run := readPlainWord_run (i := i) (l := l) (k := k) solid clean (':' :: rest) []
    rw [List.nil_append] at run
    rw [run, readPlainWord_colon stop, List.append_nil]
  rw [readPlain_last indent fuel [] {} mark (meets_comment bare.filled bare.clean rfl _) read
    (by simpa using bare.filled) rfl]
  simp [Gap.text]

/-- A text as words with spaces between them. -/
inductive Words : List Char → Prop where
  | last {word : List Char} (filled : word ≠ []) (solid : ∀ c ∈ word, isGap c = false) : Words word
  | more {word later : List Char} {m : Nat} (filled : word ≠ [])
      (solid : ∀ c ∈ word, isGap c = false) (apart : m ≠ 0) (words : Words later) :
      Words (word ++ (spaces m ++ later))

namespace Words

variable {cs : List Char}

theorem ne_nil (words : Words cs) : cs ≠ [] := by
  cases words with
  | last filled => exact filled
  | more filled => simp [filled]

theorem not_gap (words : Words cs) : ∀ c ∈ cs.head?, isGap c = false := by
  cases words with
  | last filled solid =>
      intro c first
      exact solid c (List.mem_of_mem_head? first)
  | more filled solid =>
      obtain ⟨c, word, rfl⟩ := List.exists_cons_of_ne_nil filled
      intro d first
      exact solid d (by simpa using .inl (Option.some.inj first).symm)

theorem of_spaced {cs : List Char} (filled : cs ≠ []) (spaced : ∀ c ∈ cs, isGap c = true → c = ' ')
    (starts : ∀ c ∈ cs.head?, c ≠ ' ') (ends : ∀ c ∈ cs.getLast?, c ≠ ' ') : Words cs := by
  obtain ⟨word, later, same, solid, next⟩ := exists_run (fun c => !isGap c) cs
  have solid : ∀ c ∈ word, isGap c = false := by simpa using solid
  have begun : word ≠ [] := by
    rintro rfl
    obtain ⟨c, more, rfl⟩ := List.exists_cons_of_ne_nil filled
    have gap : isGap c = true := by
      rw [List.nil_append] at same
      subst same
      simpa using next c rfl
    exact starts c rfl (spaced c List.mem_cons_self gap)
  cases later with
  | nil =>
      rw [same, List.append_nil]
      exact .last begun solid
  | cons c later =>
      obtain ⟨run, more, split, all, stop⟩ := exists_run (· == ' ') (c :: later)
      obtain ⟨m, rfl⟩ : ∃ m, run = spaces m := ⟨_, eq_spaces (by simpa using all)⟩
      have first : c = ' ' := spaced c (by simp [same]) (by simpa using next c rfl)
      have apart : m ≠ 0 := by
        rintro rfl
        cases split
        simp [first] at stop
      rw [same, split]
      have inner : more ≠ [] := by
        rintro rfl
        simp [same, split, spaces, apart, List.getLast?_replicate] at ends
      refine .more begun solid apart (of_spaced inner ?_ (by simpa using stop) ?_)
      · intro d member gap
        exact spaced d (by simp [same, split, member]) gap
      · intro d last
        refine ends d ?_
        rw [same, split, List.getLast?_append, List.getLast?_append, Option.mem_def.mp last]
        rfl
termination_by cs.length
decreasing_by
  have lengths := congrArg List.length same
  have later_length := congrArg List.length split
  simp only [List.length_append, List.length_cons, length_spaces] at lengths later_length
  omega

end Words

/-- A text is read up to the end of its line. -/
theorem readPlain_words {indent n fuel : Nat} {cs acc : List Char} {before : Option Char} {g : Gap}
    (words : Words cs) (enough : cs.length < fuel)
    (clean : (scan before {} cs).indicator = false) (gap : before.all isGap = true)
    (inside : indent ≤ k) (outside : n < indent) (stop : ∀ c ∈ rest.head?, isGap c = false) :
    readPlain false indent fuel acc g ⟨cs ++ '\n' :: (spaces n ++ rest), i, l, k⟩ =
      some { reversed := cs.reverse ++ g.text.reverse ++ acc, lineEnded := true
             next := ⟨rest, i + cs.length + 1 + n, l + 1, n⟩ } := by
  -- word by word; the character before a word decides whether a comment could begin with it
  induction words generalizing fuel acc before g i k with
  | @last word filled solid =>
      obtain ⟨fuel, rfl⟩ : ∃ m, fuel = m + 1 := ⟨fuel - 1, by omega⟩
      have mark : (⟨word ++ '\n' :: (spaces n ++ rest), i, l, k⟩ : Cursor).atDocumentMark = false :=
        Cursor.atDocumentMark_of_column (by omega)
      have read : readPlainWord false ((word ++ '\n' :: (spaces n ++ rest)).length + 1) []
          ⟨word ++ '\n' :: (spaces n ++ rest), i, l, k⟩ =
            some (word.reverse,
              ⟨'\n' :: (spaces n ++ rest), i + word.length, l, k + word.length⟩) := by
        rw [← List.append_nil word] at clean
        exact readPlainWord_gap solid clean rfl
      have ended : Gap.read indent (('\n' :: (spaces n ++ rest)).length + 1) {}
          ⟨'\n' :: (spaces n ++ rest), i + word.length, l, k + word.length⟩ =
            some ({ first := some ['\n'] }, ⟨rest, i + word.length + 1 + n, l + 1, n⟩) := by
        rw [gap_read_break rfl (by decide), gap_read_spaces, gap_read_stop stop]
        simp
      rw [readPlain_gap indent fuel acc g mark (meets_comment filled clean gap _) read
        (by simpa using filled) rfl ended, if_pos outside]
      rfl
  | @more word later m filled solid apart words ih =>
      obtain ⟨fuel, rfl⟩ : ∃ m, fuel = m + 1 := ⟨fuel - 1, by omega⟩
      obtain ⟨m, rfl⟩ : ∃ d, m = d + 1 := ⟨m - 1, by omega⟩
      have mark : (⟨word ++ (spaces (m + 1) ++ later) ++ '\n' :: (spaces n ++ rest), i, l, k⟩ :
          Cursor).atDocumentMark = false := Cursor.atDocumentMark_of_column (by omega)
      have comment := meets_comment (i := i) (l := l) (k := k) (by simp [filled]) clean gap
        ('\n' :: (spaces n ++ rest))
      have read : readPlainWord false
          ((word ++ (spaces (m + 1) ++ later) ++ '\n' :: (spaces n ++ rest)).length + 1) []
          ⟨word ++ (spaces (m + 1) ++ later) ++ '\n' :: (spaces n ++ rest), i, l, k⟩ =
            some (word.reverse, ⟨spaces (m + 1) ++ (later ++ '\n' :: (spaces n ++ rest)),
              i + word.length, l, k + word.length⟩) := by
        rw [List.append_assoc, readPlainWord_gap solid clean rfl, List.append_assoc]
      have passed : Gap.read indent
          ((spaces (m + 1) ++ (later ++ '\n' :: (spaces n ++ rest))).length + 1) {}
          ⟨spaces (m + 1) ++ (later ++ '\n' :: (spaces n ++ rest)), i + word.length, l,
            k + word.length⟩ =
            some ({ spaces := spaces (m + 1) }, ⟨later ++ '\n' :: (spaces n ++ rest),
              i + word.length + (m + 1), l, k + word.length + (m + 1)⟩) := by
        have stops : ∀ c ∈ (later ++ '\n' :: (spaces n ++ rest)).head?, isGap c = false := by
          obtain ⟨c, later, rfl⟩ := List.exists_cons_of_ne_nil words.ne_nil
          exact words.not_gap
        rw [gap_read_spaces, gap_read_stop stops]
        simp
      have free := scan_append_eq_false Features.splits_indicator clean
      have free := scan_append_eq_false Features.splits_indicator free
      have short : later.length < fuel := by
        simp only [List.length_append, length_spaces] at enough
        omega
      have gap : ((spaces (m + 1)).getLast?.or (word.getLast?.or before)).all isGap = true := by
        simp [spaces, List.getLast?_replicate, isGap, isSpace]
      have deep : indent ≤ k + word.length + (m + 1) := by omega
      rw [readPlain_gap indent fuel acc g mark comment read (by simpa using filled) rfl passed,
        if_neg (Nat.not_lt.mpr deep), ih short free gap deep]
      simp [Gap.text, spaces, Nat.add_assoc]

theorem words_of_bare {cs : List Char} (bare : Bare cs) : Words cs := by
  refine .of_spaced bare.filled (fun c member gap => ?_) bare.starts bare.ends
  rw [isGap, bare.unbroken c member, Bool.or_false] at gap
  exact eq_of_isSpace gap (bare.printable c member)

theorem readPlain_bare {indent n : Nat} {cs : List Char} (bare : Bare cs) (inside : indent ≤ k)
    (outside : n < indent) (stop : ∀ c ∈ rest.head?, isGap c = false) :
    readPlain false indent ((cs ++ '\n' :: (spaces n ++ rest)).length + 2) [] {}
        ⟨cs ++ '\n' :: (spaces n ++ rest), i, l, k⟩ =
      some { reversed := cs.reverse, lineEnded := true
             next := ⟨rest, i + cs.length + 1 + n, l + 1, n⟩ } := by
  have enough := Nat.lt_succ_of_lt (length_lt_steps cs ('\n' :: (spaces n ++ rest)))
  rw [readPlain_words (words_of_bare bare) enough bare.clean rfl inside outside stop]
  simp [Gap.text]

end LineCompletion.Yaml

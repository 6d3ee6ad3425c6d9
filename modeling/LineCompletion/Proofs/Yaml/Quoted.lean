import LineCompletion.Proofs.Yaml.Escapes
import LineCompletion.Proofs.Yaml.PlainText

/-! # Quoted text read back

Between quotes a text is read word by word with the gaps between them: spaces are kept, and so are
line ends if no line feed is among them.
-/

namespace LineCompletion.Yaml

variable {cs written rest : List Char} {single : Bool}

/-- Between quotes a text is written as characters told. -/
inductive Quotes (single : Bool) : List Char → List Char → Prop where
  | done : Quotes single [] []
  | char {c : Char} {first cs written : List Char} (reads : ReadsAs single first c)
      (later : Quotes single cs written) : Quotes single (c :: cs) (first ++ written)
  | spaces {m : Nat} {cs written : List Char} (apart : m ≠ 0)
      (stop : ∀ c ∈ written.head?, isGap c = false) (later : Quotes single cs written) :
      Quotes single (spaces m ++ cs) (spaces m ++ written)
  | breaks {c : Char} {run cs written : List Char} {m : Nat} (lineFeed : c ≠ '\n')
      (ends : ∀ d ∈ c :: run, isBreak d = true) (printable : ∀ d ∈ c :: run, isPrintable d = true)
      (apart : m ≠ 0) (stop : ∀ c ∈ written.head?, isGap c = false)
      (later : Quotes single cs written) :
      Quotes single (c :: run ++ cs) (c :: run ++ (spaces m ++ written))

/-! ## Reading -/

def quoteOf (single : Bool) : Char :=
  if single then '\'' else '"'

/-- What becomes of a word between quotes: its text ends with a quote, or goes on behind a gap. -/
def finishQuoted (single : Bool) (fuel : Nat) (acc : List Char) :
    List Char × Bool × Cursor → Option (List Char × Cursor)
  | (word, joined, next) =>
    if !joined && next.meets (quoteOf single) then some (word ++ acc, next.skip)
    else
      (Gap.read 0 (next.rest.length + 1) (if joined then { first := some [] } else {}) next).bind
        fun (g, next) => readQuoted single fuel (g.text.reverse ++ (word ++ acc)) next

theorem readQuoted_succ {i l k : Nat} (filled : rest ≠ []) (column : k ≠ 0) (fuel : Nat)
    (acc : List Char) :
    readQuoted single (fuel + 1) acc ⟨rest, i, l, k⟩ =
      (readQuotedWord single (rest.length + 1) [] ⟨rest, i, l, k⟩).bind
        (finishQuoted single fuel acc) := by
  obtain ⟨c, rest, rfl⟩ := List.exists_cons_of_ne_nil filled
  rw [readQuoted]
  simp only [Cursor.atDocumentMark_of_column column, Cursor.peek_cons, Option.isNone_some,
    Bool.or_self, Bool.false_eq_true, if_false]
  rfl

theorem readQuotedWord_gap {c : Char} {i l k : Nat} (gap : isGap c = true) (fuel : Nat)
    (acc : List Char) :
    readQuotedWord single (fuel + 1) acc ⟨c :: rest, i, l, k⟩ =
      some (acc, false, ⟨c :: rest, i, l, k⟩) := by
  have gap : (isSpace c || isBreak c) = true := gap
  simp only [readQuotedWord, Cursor.peek_cons, gap, if_true]

theorem ReadsAs.starts {first : List Char} {c : Char} (reads : ReadsAs single first c) :
    ∃ d tail, first = d :: tail ∧ isGap d = false := by
  cases first with
  | nil =>
      have stuck := reads 0 [] [' '] 0 0 0
      simp [readQuotedWord, Cursor.peek_cons, isSpace] at stuck
  | cons d tail =>
      refine ⟨d, tail, rfl, ?_⟩
      rw [Bool.eq_false_iff]
      intro gap
      have stuck := reads 0 [] [] 0 0 0
      rw [List.append_nil, readQuotedWord_gap gap] at stuck
      simp [readQuotedWord] at stuck

theorem readQuotedWord_quote {i l k : Nat} (apart : rest.head? ≠ some (quoteOf single)) (fuel : Nat)
    (acc : List Char) :
    readQuotedWord single (fuel + 1) acc ⟨quoteOf single :: rest, i, l, k⟩ =
      some (acc, false, ⟨quoteOf single :: rest, i, l, k⟩) := by
  cases single with
  | false => rfl
  | true =>
      have apart : (rest.head? == some '\'') = false := by simpa [quoteOf] using apart
      simp [readQuotedWord, Cursor.peek_cons, Cursor.meets_one, quoteOf, apart, isSpace, isBreak]

theorem gap_read_breaks {run : List Char} {m i l k : Nat} (ends : ∀ d ∈ run, isBreak d = true)
    (printable : ∀ d ∈ run, isPrintable d = true) (stop : ∀ c ∈ rest.head?, isGap c = false)
    {g : Gap} (begun : g.first.isSome = true) :
    ∃ i' l' k', Gap.read 0 ((run ++ (spaces m ++ rest)).length + 1) g
        ⟨run ++ (spaces m ++ rest), i, l, k⟩ =
      some ({ g with more := g.more ++ run }, ⟨rest, i', l', k' + m⟩) ∧ l ≤ l' := by
  induction run generalizing g i l k with
  | nil =>
      refine ⟨i + m, l, k, ?_, Nat.le_refl l⟩
      rw [List.nil_append, gap_read_spaces, gap_read_stop stop]
      simp [begun]
  | cons c run ih =>
      obtain ⟨first, others⟩ := List.forall_mem_cons.mp ends
      obtain ⟨shown, others_shown⟩ := List.forall_mem_cons.mp printable
      obtain ⟨i', l', k', read, later⟩ := ih (i := i + 1) (l := l + 1) (k := 0)
        (g := { g with more := g.more ++ [c] }) others others_shown begun
      refine ⟨i', l', k', ?_, by omega⟩
      rw [List.cons_append, gap_read_break first shown, if_pos begun, read]
      simp

theorem gap_read_run {m i l k : Nat} (stop : ∀ c ∈ rest.head?, isGap c = false) :
    Gap.read 0 ((spaces m ++ rest).length + 1) {} ⟨spaces m ++ rest, i, l, k⟩ =
      some ({ spaces := spaces m }, ⟨rest, i + m, l, k + m⟩) := by
  rw [gap_read_spaces, gap_read_stop stop]
  simp

theorem gap_read_lines {c : Char} {run : List Char} {m i l k : Nat}
    (ends : ∀ d ∈ c :: run, isBreak d = true) (printable : ∀ d ∈ c :: run, isPrintable d = true)
    (stop : ∀ c ∈ rest.head?, isGap c = false) :
    ∃ i' l' k', Gap.read 0 ((c :: (run ++ (spaces m ++ rest))).length + 1) {}
        ⟨c :: (run ++ (spaces m ++ rest)), i, l, k⟩ =
      some ({ first := some [c], more := run }, ⟨rest, i', l', k' + m⟩) ∧ l < l' := by
  obtain ⟨first, others⟩ := List.forall_mem_cons.mp ends
  obtain ⟨shown, others_shown⟩ := List.forall_mem_cons.mp printable
  obtain ⟨i', l', k', read, later⟩ := gap_read_breaks (m := m) (i := i + 1) (l := l + 1) (k := 0)
    (g := { first := some [c] }) others others_shown stop rfl
  refine ⟨i', l', k', ?_, later⟩
  rw [gap_read_break first shown]
  exact read

theorem stop_quote (single : Bool) (stop : ∀ c ∈ written.head?, isGap c = false)
    (rest : List Char) :
    ∀ c ∈ (written ++ quoteOf single :: rest).head?, isGap c = false := by
  cases written with
  | nil =>
      intro c first
      obtain rfl : quoteOf single = c := Option.some.inj first
      cases single <;> rfl
  | cons c written => exact stop

theorem finishQuoted_gap {text later : List Char} {c : Char} {i l k i' l' k' : Nat}
    (first : text.head? = some c) (gap : isGap c = true) {g : Gap}
    (passed : Gap.read 0 (text.length + 1) {} ⟨text, i, l, k⟩ = some (g, ⟨later, i', l', k'⟩))
    (filled : later ≠ []) (column : k' ≠ 0) (fuel n : Nat) (word acc : List Char) :
    (readQuotedWord single (n + 1) word ⟨text, i, l, k⟩).bind (finishQuoted single (fuel + 1) acc) =
      (readQuotedWord single (later.length + 1) [] ⟨later, i', l', k'⟩).bind
        (finishQuoted single fuel (g.text.reverse ++ (word ++ acc))) := by
  obtain ⟨tail, rfl⟩ : ∃ tail, text = c :: tail := List.head?_eq_some_iff.mp first
  have apart : (c == quoteOf single) = false := by
    rw [beq_eq_false_iff_ne]
    rintro rfl
    cases single <;> simp [quoteOf, isGap, isSpace, isBreak] at gap
  rw [readQuotedWord_gap gap, Option.bind_some, ← readQuoted_succ filled column]
  simp only [finishQuoted, Cursor.meets_cons, apart, Bool.not_false, Bool.and_false,
    Bool.false_eq_true, if_false, passed, Option.bind_some]

/-- A text between quotes is read up to the quote that closes it. -/
theorem readQuoted_quotes (quotes : Quotes single cs written)
    (apart : rest.head? ≠ some (quoteOf single)) (fuel n i l k : Nat) (word acc : List Char)
    (enough : cs.length ≤ fuel) (long : written.length < n) (column : k ≠ 0) :
    ∃ i' l' k', (readQuotedWord single n word ⟨written ++ quoteOf single :: rest, i, l, k⟩).bind
        (finishQuoted single fuel acc) =
      some (cs.reverse ++ word ++ acc, ⟨rest, i', l', k'⟩) ∧ l ≤ l' ∧ k' ≠ 0 := by
  -- a character is added to the word that is being read, behind a gap a new word begins
  induction quotes generalizing fuel n i l k word acc with
  | done =>
      obtain ⟨n, rfl⟩ : ∃ m, n = m + 1 := ⟨n - 1, by simp at long; omega⟩
      refine ⟨i + 1, l, k + 1, ?_, Nat.le_refl l, by omega⟩
      rw [List.nil_append, readQuotedWord_quote apart]
      simp [finishQuoted, Cursor.meets_cons, Cursor.skip_eq]
  | @char c first cs written reads later ih =>
      obtain ⟨d, tail, rfl, -⟩ := reads.starts
      simp only [List.length_append, List.length_cons] at long enough
      obtain ⟨n, rfl⟩ : ∃ m, n = m + 1 := ⟨n - 1, by omega⟩
      obtain ⟨i', l', k', read, after⟩ := ih fuel n (i + (d :: tail).length) l
        (k + (d :: tail).length)
        (c :: word) acc (by omega) (by omega) (by omega)
      refine ⟨i', l', k', ?_, after⟩
      rw [List.append_assoc, reads, read]
      simp
  | @spaces m cs written some_space stop later ih =>
      simp only [List.length_append, length_spaces] at long enough
      obtain ⟨n, rfl⟩ : ∃ d, n = d + 1 := ⟨n - 1, by omega⟩
      obtain ⟨fuel, rfl⟩ : ∃ d, fuel = d + 1 := ⟨fuel - 1, by omega⟩
      have first : (spaces m ++ (written ++ quoteOf single :: rest)).head? = some ' ' := by
        simp [spaces, List.head?_append, List.head?_replicate, some_space]
      have passed := gap_read_run (m := m) (i := i) (l := l) (k := k) (stop_quote single stop rest)
      obtain ⟨i', l', k', read, after⟩ := ih fuel
        ((written ++ quoteOf single :: rest).length + 1) (i + m) l (k + m) []
        ((spaces m).reverse ++ (word ++ acc)) (by omega) (length_lt_steps _ _) (by omega)
      refine ⟨i', l', k', ?_, after⟩
      rw [List.append_assoc, finishQuoted_gap first rfl passed (by simp) (by omega)]
      exact read.trans (by simp)
  | @breaks c run cs written m lineFeed ends printable some_space stop later ih =>
      simp only [List.length_append, List.length_cons, length_spaces] at long enough
      obtain ⟨n, rfl⟩ : ∃ d, n = d + 1 := ⟨n - 1, by omega⟩
      obtain ⟨fuel, rfl⟩ : ∃ d, fuel = d + 1 := ⟨fuel - 1, by omega⟩
      have gap : isGap c = true := by rw [isGap, ends c List.mem_cons_self, Bool.or_true]
      obtain ⟨i₁, l₁, k₁, passed, moved⟩ := gap_read_lines (m := m) (i := i) (l := l) (k := k) ends
        printable (stop_quote single stop rest)
      have text : ({ first := some [c], more := run } : Gap).text = c :: run := by
        simp [Gap.text, lineFeed]
      obtain ⟨i', l', k', read, after, apart⟩ := ih fuel
        ((written ++ quoteOf single :: rest).length + 1) i₁ l₁ (k₁ + m) []
        ((c :: run).reverse ++ (word ++ acc)) (by omega) (length_lt_steps _ _) (by omega)
      refine ⟨i', l', k', ?_, by omega, apart⟩
      have shape : c :: run ++ (spaces m ++ written) ++ quoteOf single :: rest =
          c :: (run ++ (spaces m ++ (written ++ quoteOf single :: rest))) := by simp
      rw [shape, finishQuoted_gap rfl gap passed (by simp) (by omega), text]
      exact read.trans (by simp)

theorem Quotes.length_le (quotes : Quotes single cs written) : cs.length ≤ written.length := by
  induction quotes with
  | done => exact Nat.le_refl 0
  | char reads later ih =>
      obtain ⟨d, tail, rfl, -⟩ := reads.starts
      simp only [List.length_cons, List.length_append]
      omega
  | spaces apart stop later ih =>
      simp only [List.length_append]
      omega
  | breaks lineFeed ends printable apart stop later ih =>
      simp only [List.length_append]
      omega

theorem readQuoted_whole {i l k : Nat} (quotes : Quotes single cs written)
    (apart : rest.head? ≠ some (quoteOf single)) (column : k ≠ 0) :
    ∃ i' l' k', readQuoted single ((written ++ quoteOf single :: rest).length + 2) []
        ⟨written ++ quoteOf single :: rest, i, l, k⟩ =
      some (cs.reverse, ⟨rest, i', l', k'⟩) ∧ l ≤ l' ∧ k' ≠ 0 := by
  have short := quotes.length_le
  have enough : cs.length ≤ (written ++ quoteOf single :: rest).length + 1 := by
    rw [List.length_append]
    omega
  obtain ⟨i', l', k', read, after⟩ :=
    readQuoted_quotes quotes apart _ _ i l k [] [] enough (length_lt_steps _ _) column
  refine ⟨i', l', k', ?_, after⟩
  rw [readQuoted_succ (by simp) column, read, List.append_nil, List.append_nil]

/-! ## Writing -/

theorem flatMap_spaces {write : Char → List Char} (same : write ' ' = [' ']) (m : Nat) :
    (spaces m).flatMap write = spaces m := by
  induction m with
  | zero => rfl
  | succ m ih =>
      rw [spaces, List.replicate_succ, List.flatMap_cons, same]
      exact congrArg ([' '] ++ ·) ih

theorem exists_spaces (cs : List Char) :
    ∃ m rest, ' ' :: cs = spaces (m + 1) ++ rest ∧ (∀ c ∈ rest.head?, c ≠ ' ') := by
  obtain ⟨run, rest, same, all, stop⟩ := exists_run (· == ' ') cs
  have spaced : run = spaces run.length := eq_spaces (by simpa using all)
  refine ⟨run.length, rest, ?_, by simpa using stop⟩
  rw [same, spaces, List.replicate_succ, List.cons_append, ← spaces, ← spaced]

theorem starts_flatMap {write : Char → List Char}
    (reads : ∀ c ∈ cs.head?, ReadsAs single (write c) c) :
    ∀ c ∈ (cs.flatMap write).head?, isGap c = false := by
  cases cs with
  | nil => simp
  | cons c cs =>
      obtain ⟨d, tail, same, solid⟩ := (reads c rfl).starts
      simpa [same] using solid

theorem quotes_double (cs : List Char) : Quotes false cs (cs.flatMap doubleChar) := by
  match cs with
  | [] => exact .done
  | c :: cs =>
      by_cases space : c = ' '
      · subst space
        obtain ⟨m, rest, same, stop⟩ := exists_spaces cs
        have shorter : rest.length < (' ' :: cs).length := by
          rw [same, List.length_append, length_spaces]
          omega
        rw [same, List.flatMap_append, flatMap_spaces (by decide)]
        exact .spaces (by omega) (starts_flatMap fun c first => readsAs_doubleChar (stop c first))
          (quotes_double rest)
      · exact .char (readsAs_doubleChar space) (quotes_double cs)
termination_by cs.length
decreasing_by
  · exact shorter
  · exact Nat.lt_succ_self cs.length

section Single

variable {m : Nat} {run : List Char} {before : Option Char}

theorem singleChars_unbroken (unbroken : ∀ c ∈ run, isBreak c = false) :
    singleChars m false (run ++ rest) = run.flatMap singleChar ++ singleChars m false rest := by
  induction run with
  | nil => rfl
  | cons c run ih =>
      obtain ⟨first, others⟩ := List.forall_mem_cons.mp unbroken
      simp [singleChars, first, singleChar, ih others]

theorem singleChars_broken (ends : ∀ c ∈ run, isBreak c = true)
    (stop : ∀ c ∈ rest.head?, isBreak c = false) :
    singleChars m true (run ++ rest) = run ++ (spaces m ++ singleChars m false rest) := by
  induction run with
  | nil =>
      cases rest with
      | nil => simp [singleChars]
      | cons c rest => simp [singleChars, stop c rfl]
  | cons c run ih =>
      obtain ⟨first, others⟩ := List.forall_mem_cons.mp ends
      simp [singleChars, first, ih others]

theorem singleChars_breaks {c : Char} (lineFeed : c ≠ '\n')
    (ends : ∀ d ∈ c :: run, isBreak d = true) (stop : ∀ c ∈ rest.head?, isBreak c = false) :
    singleChars m false (c :: run ++ rest) =
      c :: run ++ (spaces m ++ singleChars m false rest) := by
  obtain ⟨first, others⟩ := List.forall_mem_cons.mp ends
  have later := singleChars_broken (m := m) others stop
  simp [singleChars, first, lineFeed, later]

theorem singleChars_cons {c : Char} (unbroken : isBreak c = false) :
    singleChars m false (c :: rest) = singleChar c ++ singleChars m false rest := by
  simp [singleChars, unbroken, singleChar]

theorem starts_singleChars (stop : ∀ c ∈ rest.head?, isGap c = false) :
    ∀ c ∈ (singleChars m false rest).head?, isGap c = false := by
  cases rest with
  | nil => simp [singleChars]
  | cons c rest =>
      obtain ⟨d, tail, same, solid⟩ := (readsAs_singleChar (stop c rfl)).starts
      rw [singleChars_cons (isGap_eq_false.mp (stop c rfl)).2, same]
      simpa using solid

theorem solid_of_printable {c : Char} (printable : isPrintable c = true) (space : c ≠ ' ')
    (unbroken : isBreak c = false) : isGap c = false := by
  rw [isGap, unbroken, Bool.or_false, Bool.eq_false_iff]
  exact fun gap => space (eq_of_isSpace gap printable)

namespace Quotable

theorem tail {c : Char} (quotable : Quotable before (c :: rest)) : Quotable (some c) rest :=
  append (show Quotable before ([c] ++ rest) from quotable)

theorem starts_behind_breaks {c : Char} (quotable : Quotable ((c :: run).getLast?.or before) rest)
    (ends : ∀ d ∈ c :: run, isBreak d = true) (stop : ∀ d ∈ rest.head?, isBreak d = false) :
    ∀ d ∈ rest.head?, isGap d = false := by
  intro d first
  obtain ⟨tail, rfl⟩ := List.head?_eq_some_iff.mp first
  refine solid_of_printable (quotable.printable d List.mem_cons_self) ?_ (stop d rfl)
  rintro rfl
  have apart := ((scan_cons_eq_false Features.splits_endSpace).mp quotable.endSpace).1
  obtain ⟨b, last⟩ : ∃ b, (c :: run).getLast? = some b := ⟨_, List.getLast?_cons⟩
  simp [Features.ofChar, last, ends b (List.mem_of_getLast? last)] at apart

theorem starts_behind_spaces {j : Nat}
    (quotable : Quotable ((spaces (j + 1)).getLast?.or before) rest)
    (stop : ∀ d ∈ rest.head?, d ≠ ' ') : ∀ d ∈ rest.head?, isGap d = false := by
  intro d first
  obtain ⟨tail, rfl⟩ := List.head?_eq_some_iff.mp first
  have last : (spaces (j + 1)).getLast? = some ' ' := by simp [spaces, List.getLast?_replicate]
  have apart := ((scan_cons_eq_false Features.splits_spaceEnd).mp quotable.spaceEnd).1
  exact solid_of_printable (quotable.printable d List.mem_cons_self) (stop d rfl)
    (by simpa [Features.ofChar, last] using apart)

end Quotable

/-- Between single quotes a text can be written whose spaces stand apart from its line ends. -/
theorem quotes_single {before : Option Char} {cs : List Char} (apart : m ≠ 0)
    (quotable : Quotable before cs) : Quotes true cs (singleChars m false cs) := by
  match cs with
  | [] => exact .done
  | c :: cs =>
      by_cases ends : isBreak c = true
      · obtain ⟨run, rest, same, all, stop⟩ := exists_run isBreak cs
        have lineFeed : c ≠ '\n' := fun same => quotable.joined (by simp [same])
        have shorter : rest.length < (c :: cs).length := by
          rw [same, List.length_cons, List.length_append]
          omega
        have all : ∀ d ∈ c :: run, isBreak d = true := List.forall_mem_cons.mpr ⟨ends, all⟩
        rw [same, ← List.cons_append] at quotable ⊢
        have solid := quotable.append.starts_behind_breaks all stop
        rw [singleChars_breaks lineFeed all stop]
        exact .breaks lineFeed all
          (fun d member => quotable.printable d (List.mem_append_left _ member)) apart
          (starts_singleChars solid) (quotes_single apart quotable.append)
      by_cases space : c = ' '
      · subst space
        obtain ⟨j, rest, same, stop⟩ := exists_spaces cs
        have shorter : rest.length < (' ' :: cs).length := by
          rw [same, List.length_append, length_spaces]
          omega
        rw [same] at quotable ⊢
        have solid := quotable.append.starts_behind_spaces stop
        rw [singleChars_unbroken (by simp [spaces, isBreak]), flatMap_spaces (by decide)]
        exact .spaces (by omega) (starts_singleChars solid) (quotes_single apart quotable.append)
      · have unbroken : isBreak c = false := by simpa using ends
        have solid := solid_of_printable (quotable.printable c List.mem_cons_self) space unbroken
        rw [singleChars_cons unbroken]
        exact .char (readsAs_singleChar solid)
          (quotes_single apart (quotable.tail))
termination_by cs.length
decreasing_by
  · exact shorter
  · exact shorter
  · exact Nat.lt_succ_self cs.length

end Single

end LineCompletion.Yaml

import LineCompletion.Proofs.Yaml.PlainText

/-! # Blocks read back

In a block every line of a text is a line of its own, indented unless it is empty. The marks before
the block tell its indentation where its first line does not, and what becomes of the line ends
after its last line.
-/

namespace LineCompletion.Yaml

variable {rest run : List Char} {m i l k : Nat}

/-! ## Empty lines -/

theorem readEmptyLines_break {c : Char} (ends : isBreak c = true) (printable : isPrintable c = true)
    (fuel : Nat) (acc : List Char) (widest : Nat) :
    readEmptyLines m (fuel + 1) acc widest ⟨c :: rest, i, l, 0⟩ =
      readEmptyLines m fuel (acc ++ [c]) widest ⟨rest, i + 1, l + 1, 0⟩ := by
  have solid : (c == ' ') = false ∧ (c == '\t') = false := by
    obtain rfl | rfl | rfl := break_cases ends printable <;> decide
  have none : (c :: rest).takeWhile (· == ' ') = [] := by simp [solid]
  have here : (⟨c :: rest, i, l, 0⟩ : Cursor).skip 0 = ⟨c :: rest, i, l, 0⟩ := rfl
  have count : (if m == 0 then 0 else min 0 (m - 0)) = 0 := by split <;> simp
  simp only [readEmptyLines, none, List.length_nil, count, here, Cursor.meets_cons, solid,
    Bool.and_false, Bool.false_eq_true, if_false, Cursor.peek_cons, Option.any_some, ends, if_true,
    Cursor.nextLine_cons ends printable, Nat.max_zero]

theorem readEmptyLines_breaks (ends : ∀ c ∈ run, isBreak c = true)
    (printable : ∀ c ∈ run, isPrintable c = true) (fuel : Nat) (acc : List Char) (widest : Nat) :
    readEmptyLines m (fuel + run.length) acc widest ⟨run ++ rest, i, l, 0⟩ =
      readEmptyLines m fuel (acc ++ run) widest ⟨rest, i + run.length, l + run.length, 0⟩ := by
  induction run generalizing acc i l with
  | nil => simp
  | cons c run ih =>
      obtain ⟨first, others⟩ := List.forall_mem_cons.mp ends
      obtain ⟨shown, others_shown⟩ := List.forall_mem_cons.mp printable
      rw [List.length_cons, ← Nat.add_assoc, List.cons_append, readEmptyLines_break first shown,
        ih others others_shown]
      simp [Nat.add_assoc, Nat.add_comm 1]

theorem readEmptyLines_stop {indent : Nat} {c : Cursor} (count : Nat)
    (counted : (if indent == 0 then (c.rest.takeWhile (· == ' ')).length
      else min (c.rest.takeWhile (· == ' ')).length (indent - c.column)) = count)
    (tab : ((indent == 0 || decide ((c.skip count).column < indent)) &&
      (c.skip count).meets '\t') = false)
    (stop : (c.skip count).peek.any isBreak = false) (fuel : Nat) (acc : List Char) (widest : Nat) :
    readEmptyLines indent (fuel + 1) acc widest c =
      some (acc, max widest (c.skip count).column, c.skip count) := by
  simp only [readEmptyLines, counted, tab, stop, Bool.false_eq_true, if_false]

theorem any_isBreak_peek (stop : ∀ c ∈ rest.head?, isBreak c = false) :
    (⟨rest, i, l, k⟩ : Cursor).peek.any isBreak = false := by
  cases rest with
  | nil => rfl
  | cons c rest => simpa [Cursor.peek_cons] using stop c rfl

theorem meets_tab (stop : ∀ c ∈ rest.head?, isGap c = false) :
    (⟨rest, i, l, k⟩ : Cursor).meets '\t' = false := by
  cases rest with
  | nil => rfl
  | cons c rest =>
      rw [Cursor.meets_cons, beq_eq_false_iff_ne]
      rintro rfl
      exact absurd (stop '\t' rfl) (by decide)

theorem unbroken_of_stop (stop : ∀ c ∈ rest.head?, isGap c = false) :
    ∀ c ∈ rest.head?, isBreak c = false :=
  fun c first => (isGap_eq_false.mp (stop c first)).2

theorem takeWhile_space (stop : ∀ c ∈ rest.head?, isGap c = false) :
    (spaces m ++ rest).takeWhile (· == ' ') = spaces m := by
  refine takeWhile_run (by simp [spaces]) fun c first => ?_
  rw [beq_eq_false_iff_ne]
  rintro rfl
  exact absurd (stop ' ' first) (by decide)

theorem readEmptyLines_inside (some_space : m ≠ 0) (ends : ∀ c ∈ run, isBreak c = true)
    (printable : ∀ c ∈ run, isPrintable c = true) (stop : ∀ c ∈ rest.head?, isBreak c = false)
    {fuel : Nat} (long : run.length < fuel) (acc : List Char) (widest : Nat) :
    readEmptyLines m fuel acc widest ⟨run ++ (spaces m ++ rest), i, l, 0⟩ =
      some (acc ++ run, max widest m, ⟨rest, i + run.length + m, l + run.length, m⟩) := by
  obtain ⟨fuel, rfl⟩ : ∃ n, fuel = n + 1 + run.length := ⟨fuel - 1 - run.length, by omega⟩
  have moved : (⟨spaces m ++ rest, i + run.length, l + run.length, 0⟩ : Cursor).skip m =
      ⟨rest, i + run.length + m, l + run.length, m⟩ := by
    simp [Cursor.skip_eq, spaces]
  have wide : m ≤ ((spaces m ++ rest).takeWhile (· == ' ')).length := by
    rw [List.takeWhile_append_of_pos (by simp [spaces]), List.length_append, length_spaces]
    omega
  rw [readEmptyLines_breaks ends printable, readEmptyLines_stop m, moved]
  · simp only [beq_eq_false_iff_ne.mpr some_space, Bool.false_eq_true, if_false]
    omega
  · simp [moved, some_space]
  · rw [moved]
    exact any_isBreak_peek stop

theorem readEmptyLines_outside (ends : ∀ c ∈ run, isBreak c = true)
    (printable : ∀ c ∈ run, isPrintable c = true) (stop : ∀ c ∈ rest.head?, isGap c = false)
    {fuel : Nat} (long : run.length < fuel) (acc : List Char) (widest : Nat) :
    readEmptyLines m fuel acc widest ⟨run ++ rest, i, l, 0⟩ =
      some (acc ++ run, widest, ⟨rest, i + run.length, l + run.length, 0⟩) := by
  obtain ⟨fuel, rfl⟩ : ∃ n, fuel = n + 1 + run.length := ⟨fuel - 1 - run.length, by omega⟩
  have here : (⟨rest, i + run.length, l + run.length, 0⟩ : Cursor).skip 0 =
      ⟨rest, i + run.length, l + run.length, 0⟩ := rfl
  have blanks : rest.takeWhile (· == ' ') = [] := takeWhile_space (m := 0) stop
  rw [readEmptyLines_breaks ends printable, readEmptyLines_stop 0, here, Nat.max_zero]
  · simp [blanks]
  · rw [here, meets_tab stop, Bool.and_false]
  · exact any_isBreak_peek (unbroken_of_stop stop)

theorem readEmptyLines_first (stop : ∀ c ∈ rest.head?, isGap c = false) (fuel : Nat) :
    readEmptyLines 0 (fuel + 1) [] 0 ⟨spaces m ++ rest, i, l, 0⟩ =
      some ([], m, ⟨rest, i + m, l, m⟩) := by
  have moved : (⟨spaces m ++ rest, i, l, 0⟩ : Cursor).skip m = ⟨rest, i + m, l, m⟩ := by
    simp [Cursor.skip_eq, spaces]
  rw [readEmptyLines_stop m, moved, Nat.zero_max]
  · simp [takeWhile_space stop, length_spaces]
  · rw [moved, meets_tab stop, Bool.and_false]
  · rw [moved]
    exact any_isBreak_peek (unbroken_of_stop stop)

/-! ## Lines -/

/-- The text of a block without its last line ends, how it is written behind its first indentation,
and the line ends after it. -/
inductive Lines (m : Nat) : List Char → List Char → Char → List Char → Prop where
  | last {line run : List Char} {c : Char} (filled : line ≠ [])
      (unbroken : ∀ d ∈ line, isBreak d = false) (ends : ∀ d ∈ c :: run, isBreak d = true)
      (printable : ∀ d ∈ c :: run, isPrintable d = true) :
      Lines m line (line ++ c :: run) c run
  | more {line between body written run : List Char} {b c : Char} (filled : line ≠ [])
      (unbroken : ∀ d ∈ line, isBreak d = false) (ends : ∀ d ∈ b :: between, isBreak d = true)
      (printable : ∀ d ∈ b :: between, isPrintable d = true) (later : Lines m body written c run) :
      Lines m (line ++ b :: between ++ body) (line ++ b :: (between ++ (spaces m ++ written))) c run

section Lines

variable {line body written : List Char} {c : Char}

theorem readBlockLines_line (filled : line ≠ []) (unbroken : ∀ d ∈ line, isBreak d = false)
    (ends : isBreak c = true) (printable : isPrintable c = true) (fuel : Nat)
    (acc lineEnd empty : List Char) (indented : Bool) :
    readBlockLines false m (fuel + 1) acc lineEnd empty indented ⟨line ++ c :: rest, i, l, m⟩ =
      (readEmptyLines m (rest.length + 1) [] 0 ⟨rest, i + line.length + 1, l + 1, 0⟩).bind
        fun (empty', _, next) =>
          readBlockLines false m fuel (acc ++ (lineEnd ++ empty) ++ line) [c] empty'
            (⟨line ++ c :: rest, i, l, m⟩ : Cursor).atSpace next := by
  have inside : ∀ d ∈ line, (!isBreak d) = true := by simpa using unbroken
  have stop : ∀ d ∈ (c :: rest).head?, (!isBreak d) = false := by simpa using ends
  have text : (line ++ c :: rest).takeWhile (fun d => !isBreak d) = line :=
    takeWhile_run inside stop
  have moved : (⟨line ++ c :: rest, i, l, m⟩ : Cursor).skipToBreak =
      ⟨c :: rest, i + line.length, l, m + line.length⟩ := Cursor.skipWhile_run inside stop
  have there : (⟨line ++ c :: rest, i, l, m⟩ : Cursor).peek.isNone = false := by
    obtain ⟨d, tail, rfl⟩ := List.exists_cons_of_ne_nil filled
    rfl
  simp only [readBlockLines, bne_self_eq_false, there, Bool.or_self, Bool.false_eq_true, if_false,
    Bool.false_and, text, moved, Cursor.nextLine_cons ends printable]
  rfl

theorem Lines.starts (lines : Lines m body written c run) :
    ∀ d ∈ (written ++ rest).head?, isBreak d = false := by
  cases lines with
  | last filled unbroken =>
      obtain ⟨d, tail, rfl⟩ := List.exists_cons_of_ne_nil filled
      simpa using unbroken d List.mem_cons_self
  | more filled unbroken =>
      obtain ⟨d, tail, rfl⟩ := List.exists_cons_of_ne_nil filled
      simpa using unbroken d List.mem_cons_self

theorem readBlockLines_lines (lines : Lines m body written c run)
    (stop : ∀ c ∈ rest.head?, isGap c = false) (some_space : m ≠ 0) (fuel : Nat)
    (acc lineEnd empty : List Char) (indented : Bool) (i l : Nat) (long : body.length + 1 < fuel) :
    ∃ i' l', readBlockLines false m fuel acc lineEnd empty indented ⟨written ++ rest, i, l, m⟩ =
      some (acc ++ (lineEnd ++ empty) ++ body, [c], run, ⟨rest, i', l', 0⟩) ∧ l < l' := by
  induction lines generalizing fuel acc lineEnd empty indented i l with
  | @last line run c filled unbroken ends printable =>
      obtain ⟨first, others⟩ := List.forall_mem_cons.mp ends
      obtain ⟨shown, others_shown⟩ := List.forall_mem_cons.mp printable
      obtain ⟨fuel, rfl⟩ : ∃ n, fuel = n + 2 := ⟨fuel - 2, by omega⟩
      refine ⟨i + line.length + 1 + run.length, l + 1 + run.length, ?_, by omega⟩
      rw [List.append_assoc, List.cons_append, readBlockLines_line filled unbroken first shown,
        readEmptyLines_outside others others_shown stop (length_lt_steps run rest)]
      simp [readBlockLines, some_space.symm]
  | @more line between body written run b c filled unbroken ends printable later ih =>
      obtain ⟨first, others⟩ := List.forall_mem_cons.mp ends
      obtain ⟨shown, others_shown⟩ := List.forall_mem_cons.mp printable
      obtain ⟨fuel, rfl⟩ : ∃ n, fuel = n + 1 := ⟨fuel - 1, by omega⟩
      simp only [List.length_append, List.length_cons] at long
      obtain ⟨i', l', read, later_line⟩ := ih fuel (acc ++ (lineEnd ++ empty) ++ line) [b] between
        (⟨line ++ b :: (between ++ (spaces m ++ (written ++ rest))), i, l, m⟩ : Cursor).atSpace
        (i + line.length + 1 + between.length + m) (l + 1 + between.length) (by omega)
      refine ⟨i', l', ?_, by omega⟩
      have shape : line ++ b :: (between ++ (spaces m ++ written)) ++ rest =
          line ++ b :: (between ++ (spaces m ++ (written ++ rest))) := by simp
      rw [shape, readBlockLines_line filled unbroken first shown,
        readEmptyLines_inside some_space others others_shown later.starts (length_lt_steps _ _),
        Option.bind_some]
      exact read.trans (by simp)

end Lines

/-! ## Writing -/

theorem blockChars_unbroken (unbroken : ∀ c ∈ run, isBreak c = false) (rest : List Char) :
    blockChars m false (run ++ rest) = run ++ blockChars m false rest := by
  induction run with
  | nil => rfl
  | cons c run ih =>
      obtain ⟨first, others⟩ := List.forall_mem_cons.mp unbroken
      simp [blockChars, first, ih others]

theorem blockChars_line (filled : rest ≠ []) (starts : ∀ c ∈ rest.head?, isBreak c = false) :
    blockChars m true rest = spaces m ++ blockChars m false rest := by
  obtain ⟨c, rest, rfl⟩ := List.exists_cons_of_ne_nil filled
  simp [blockChars, starts c rfl]

theorem blockChars_breaks (lineStart : Bool) {c : Char} (ends : ∀ d ∈ c :: run, isBreak d = true)
    (rest : List Char) :
    blockChars m lineStart (c :: run ++ rest) = c :: run ++ blockChars m true rest := by
  induction run generalizing c lineStart with
  | nil => simp [blockChars, ends c (by simp)]
  | cons d run ih =>
      obtain ⟨first, others⟩ := List.forall_mem_cons.mp ends
      rw [List.cons_append, blockChars, if_pos first, ih true others]
      rfl

theorem blockChars_lead {lead later : List Char} (ends : ∀ c ∈ lead, isBreak c = true)
    (filled : later ≠ []) (starts : ∀ c ∈ later.head?, isBreak c = false) :
    blockChars m true (lead ++ later) = lead ++ (spaces m ++ blockChars m false later) := by
  cases lead with
  | nil => exact blockChars_line filled starts
  | cons b lead => rw [blockChars_breaks true ends, blockChars_line filled starts]

theorem length_le_blockChars (lineStart : Bool) (cs : List Char) :
    cs.length ≤ (blockChars m lineStart cs).length := by
  induction cs generalizing lineStart with
  | nil => exact Nat.zero_le _
  | cons c cs ih =>
      rw [blockChars]
      split
      · simpa using ih true
      · have later := ih false
        simp only [List.length_append, List.length_cons]
        omega

/-- The line end that is written after a text which has none. -/
def lastLineEnd (cs : List Char) : List Char :=
  if cs.getLast?.any isBreak then [] else ['\n']

theorem lastLineEnd_append {before later : List Char} (filled : later ≠ []) :
    lastLineEnd (before ++ later) = lastLineEnd later := by
  rw [lastLineEnd, lastLineEnd, List.getLast?_append, List.getLast?_eq_some_getLast filled]
  rfl

theorem lastLineEnd_breaks (filled : run ≠ []) (ends : ∀ c ∈ run, isBreak c = true) :
    lastLineEnd run = [] := by
  have last := ends _ (List.getLast_mem filled)
  simp [lastLineEnd, List.getLast?_eq_some_getLast filled, last]

theorem lastLineEnd_unbroken (filled : run ≠ []) (unbroken : ∀ c ∈ run, isBreak c = false) :
    lastLineEnd run = ['\n'] := by
  have last := unbroken _ (List.getLast_mem filled)
  simp [lastLineEnd, List.getLast?_eq_some_getLast filled, last]

theorem exists_line {cs : List Char} (filled : cs ≠ [])
    (starts : ∀ c ∈ cs.head?, isBreak c = false) :
    ∃ line ends more, cs = line ++ (ends ++ more) ∧ line ≠ [] ∧
      (∀ c ∈ line, isBreak c = false) ∧ (∀ c ∈ ends, isBreak c = true) ∧
      (∀ c ∈ more.head?, isBreak c = false) ∧ (ends = [] → more = []) := by
  obtain ⟨line, later, same, unbroken, next⟩ := exists_run (fun c => !isBreak c) cs
  obtain ⟨ends, more, split, breaks, stop⟩ := exists_run isBreak later
  refine ⟨line, ends, more, by rw [same, split], ?_, by simpa using unbroken, breaks, stop, ?_⟩
  · rintro rfl
    obtain ⟨c, tail, rfl⟩ := List.exists_cons_of_ne_nil filled
    rw [List.nil_append] at same
    subst same
    simpa [starts c rfl] using next c rfl
  · rintro rfl
    rw [List.nil_append] at split
    subst split
    cases later with
    | nil => rfl
    | cons c tail => simpa [stop c rfl] using next c rfl

/-- A text that begins with a line is cut before its last line ends, or before the one that is
written where it has none. -/
structure Cut (m : Nat) (cs body ends : List Char) (c : Char) (run : List Char) : Prop where
  parts : cs = body ++ ends
  breaks : ∀ b ∈ ends, isBreak b = true
  solid : ∃ x, body.getLast? = some x ∧ isBreak x = false
  closing : c :: run = if ends = [] then ['\n'] else ends
  lines : Lines m body (blockChars m false cs ++ lastLineEnd cs) c run

theorem exists_unbroken (filled : run ≠ []) (unbroken : ∀ c ∈ run, isBreak c = false) :
    ∃ x, run.getLast? = some x ∧ isBreak x = false :=
  ⟨_, List.getLast?_eq_some_getLast filled, unbroken _ (List.getLast_mem filled)⟩

theorem cut_last {line : List Char} (filled : line ≠ [])
    (unbroken : ∀ c ∈ line, isBreak c = false) : Cut m line line [] '\n' [] where
  parts := (List.append_nil line).symm
  breaks := by simp
  solid := exists_unbroken filled unbroken
  closing := rfl
  lines := by
    have written := blockChars_unbroken (m := m) unbroken []
    rw [List.append_nil, blockChars, List.append_nil] at written
    rw [written, lastLineEnd_unbroken filled unbroken]
    exact .last filled unbroken (by simp [isBreak]) (by simp [isPrintable])

theorem cut_breaks {line between : List Char} {b : Char} (filled : line ≠ [])
    (unbroken : ∀ c ∈ line, isBreak c = false) (ends : ∀ c ∈ b :: between, isBreak c = true)
    (printable : ∀ c ∈ b :: between, isPrintable c = true) :
    Cut m (line ++ b :: between) line (b :: between) b between where
  parts := rfl
  breaks := ends
  solid := exists_unbroken filled unbroken
  closing := by simp
  lines := by
    have written := blockChars_breaks (m := m) false ends []
    rw [List.append_nil, blockChars, List.append_nil] at written
    rw [lastLineEnd_append (by simp), lastLineEnd_breaks (by simp) ends, List.append_nil,
      blockChars_unbroken unbroken, written]
    exact .last filled unbroken ends printable

theorem Cut.line {line between more body ends : List Char} {b c : Char}
    (cut : Cut m more body ends c run) (filled : line ≠ [])
    (unbroken : ∀ c ∈ line, isBreak c = false) (breaks : ∀ c ∈ b :: between, isBreak c = true)
    (printable : ∀ c ∈ b :: between, isPrintable c = true) (later : more ≠ [])
    (starts : ∀ c ∈ more.head?, isBreak c = false) :
    Cut m (line ++ (b :: between ++ more)) (line ++ b :: between ++ body) ends c run where
  parts := by simp [cut.parts]
  breaks := cut.breaks
  solid := by
    obtain ⟨x, last, solid⟩ := cut.solid
    exact ⟨x, by rw [List.getLast?_append, last]; rfl, solid⟩
  closing := cut.closing
  lines := by
    have written : blockChars m false (line ++ (b :: between ++ more)) ++
        lastLineEnd (line ++ (b :: between ++ more)) =
          line ++ b :: (between ++ (spaces m ++
            (blockChars m false more ++ lastLineEnd more))) := by
      rw [blockChars_unbroken unbroken, blockChars_breaks false breaks,
        blockChars_line later starts, lastLineEnd_append (by simp), lastLineEnd_append later]
      simp
    rw [written]
    exact .more filled unbroken breaks printable cut.lines

theorem exists_cut (cs : List Char) (filled : cs ≠ []) (starts : ∀ c ∈ cs.head?, isBreak c = false)
    (printable : ∀ c ∈ cs, isPrintable c = true) : ∃ body ends c run, Cut m cs body ends c run := by
  obtain ⟨line, ends, more, same, begun, unbroken, breaks, stop, last⟩ := exists_line filled starts
  cases ends with
  | nil =>
      rw [same, last rfl, List.append_nil, List.append_nil]
      exact ⟨_, _, _, _, cut_last begun unbroken⟩
  | cons b between =>
      have shown : ∀ c ∈ b :: between ++ more, isPrintable c = true := fun c member =>
        printable c (same ▸ List.mem_append_right line member)
      have between_shown : ∀ c ∈ b :: between, isPrintable c = true := fun c member =>
        shown c (List.mem_append_left _ member)
      by_cases empty : more = []
      · rw [same, empty, List.append_nil]
        exact ⟨_, _, _, _, cut_breaks begun unbroken breaks between_shown⟩
      · have shorter : more.length < cs.length := by
          rw [same]
          simp only [List.length_append, List.length_cons]
          omega
        obtain ⟨body, ends, c, run, cut⟩ := exists_cut more empty stop fun c member =>
          shown c (List.mem_append_right _ member)
        rw [same]
        exact ⟨_, _, _, _, cut.line begun unbroken breaks between_shown empty stop⟩
termination_by cs.length
decreasing_by exact shorter

/-! ## Marks -/

/-- What becomes of the line ends after the last line of a text. -/
def chompOf (cs : List Char) : Chomp :=
  match cs.reverse with
  | [] => .strip
  | [c] => if isBreak c then .keep else .strip
  | c :: d :: _ => if !isBreak c then .strip else if isBreak d then .keep else .clip

/-- The mark that says so. -/
def chompMark : Chomp → List Char
  | .strip => ['-']
  | .clip => []
  | .keep => ['+']

/-- Whether the first line of a text does not tell its indentation. -/
def needsHint (cs : List Char) : Bool :=
  cs.head?.any fun c => c == ' ' || isBreak c

theorem blockHints_eq (cs : List Char) :
    blockHints cs = (if needsHint cs then ['2'] else []) ++ chompMark (chompOf cs) := by
  unfold blockHints chompOf needsHint
  rcases cs.reverse with _ | ⟨c, _ | ⟨d, tail⟩⟩
  · rfl
  · by_cases ends : isBreak c = true <;> simp [ends, chompMark]
  · by_cases ends : isBreak c = true
    · by_cases broken : isBreak d = true <;> simp [ends, broken, chompMark]
    · simp [ends, chompMark]

theorem readBlockHeader_hints (hint : Bool) (chomp : Chomp) (rest : List Char) :
    ∃ i', readBlockHeader
        ⟨(if hint then ['2'] else []) ++ chompMark chomp ++ '\n' :: rest, i, l, k⟩ =
      some (chomp, if hint then 2 else 0, ⟨rest, i', l + 1, 0⟩) := by
  cases hint <;> cases chomp <;> exact ⟨_, rfl⟩

theorem chompOf_strip {cs : List Char} {x : Char} (last : cs.getLast? = some x)
    (unbroken : isBreak x = false) : chompOf cs = .strip := by
  rw [← List.head?_reverse] at last
  obtain ⟨tail, same⟩ := List.head?_eq_some_iff.mp last
  unfold chompOf
  rw [same]
  cases tail <;> simp [unbroken]

theorem chompOf_clip {body : List Char} {x b : Char} (last : body.getLast? = some x)
    (unbroken : isBreak x = false) (ends : isBreak b = true) : chompOf (body ++ [b]) = .clip := by
  rw [← List.head?_reverse] at last
  obtain ⟨tail, same⟩ := List.head?_eq_some_iff.mp last
  simp [chompOf, same, unbroken, ends]

/-- All line ends are kept after two of them, or where nothing else stands. -/
theorem chompOf_keep {before ends : List Char} (breaks : ∀ b ∈ ends, isBreak b = true)
    (many : 2 ≤ ends.length ∨ before = [] ∧ ends ≠ []) : chompOf (before ++ ends) = .keep := by
  have reversed : ∀ b ∈ ends.reverse, isBreak b = true := by simpa using breaks
  unfold chompOf
  rw [List.reverse_append]
  rcases same : ends.reverse with _ | ⟨b, _ | ⟨d, tail⟩⟩
  · rw [List.reverse_eq_nil_iff] at same
    simp [same] at many
  · have one : ends.length = 1 := by rw [← List.length_reverse, same, List.length_singleton]
    obtain ⟨rfl, -⟩ := many.resolve_left (by omega)
    simp [reversed b (by simp [same])]
  · simp [reversed b (by simp [same]), reversed d (by simp [same])]

/-! ## Blocks -/

/-- The indentation that the marks before a text tell inside a block; zero where they tell none. -/
def hintedIndent (p : Nat) (cs : List Char) : Nat :=
  if needsHint cs then p + 2 else 0

/-- What is kept of the line ends that end a block. -/
def keptBy (chomp : Chomp) (lineEnd empty : List Char) : List Char :=
  match chomp with
  | .strip => []
  | .clip => lineEnd
  | .keep => lineEnd ++ empty

theorem readBlock_hints (p : Nat) (cs rest : List Char) :
    ∃ i', readBlock false (some p) ⟨blockHints cs ++ '\n' :: rest, i, l, k⟩ =
      (readEmptyLines (hintedIndent p cs) (rest.length + 2) [] 0 ⟨rest, i', l + 1, 0⟩).bind
        fun (empty, widest, c) =>
          (readBlockLines false
              (if hintedIndent p cs == 0 then max widest (max 1 (p + 1)) else hintedIndent p cs)
              (rest.length + 2) [] [] empty false c).bind
            fun (text, lineEnd, empty, c) =>
              some (text ++ keptBy (chompOf cs) lineEnd empty, c) := by
  obtain ⟨i', header⟩ := readBlockHeader_hints (i := i) (l := l) (k := k) (needsHint cs)
    (chompOf cs) rest
  have known : (if ((if needsHint cs then 2 else 0) == 0) = true then 0
      else (some p).getD 0 + if needsHint cs then 2 else 0) = hintedIndent p cs := by
    unfold hintedIndent
    cases needsHint cs <;> rfl
  refine ⟨i', ?_⟩
  rw [blockHints_eq, readBlock]
  simp only [header, known, bind, Option.bind_some]
  rfl

theorem keptBy_chompOf {before ends run : List Char} {x c : Char}
    (breaks : ∀ b ∈ ends, isBreak b = true) (last : before.getLast? = some x)
    (unbroken : isBreak x = false) (closing : c :: run = if ends = [] then ['\n'] else ends) :
    keptBy (chompOf (before ++ ends)) [c] run = ends := by
  match ends with
  | [] =>
      rw [List.append_nil, chompOf_strip last unbroken]
      rfl
  | [b] =>
      rw [chompOf_clip last unbroken (breaks b List.mem_cons_self)]
      exact congrArg ([·]) (List.cons.inj closing).1
  | b :: d :: more =>
      rw [chompOf_keep breaks (.inl (by simp))]
      exact closing

theorem starts_of_no_hint {lead later : List Char} (hint : needsHint (lead ++ later) = false)
    (ends : ∀ c ∈ lead, isBreak c = true) (starts : ∀ c ∈ later.head?, isBreak c = false)
    (printable : ∀ c ∈ later, isPrintable c = true) :
    lead = [] ∧ ∀ c ∈ later.head?, isGap c = false := by
  cases lead with
  | cons b lead => simp [needsHint, ends b List.mem_cons_self] at hint
  | nil =>
      refine ⟨rfl, fun c first => ?_⟩
      have space : c ≠ ' ' := by
        rintro rfl
        simp [needsHint, Option.mem_def.mp first] at hint
      rw [isGap, starts c first, Bool.or_false, Bool.eq_false_iff]
      exact fun gap => space (eq_of_isSpace gap (printable c (List.mem_of_mem_head? first)))

/-- What is read before the first line of a block that is not empty. -/
theorem readEmptyLines_lead {p : Nat} {lead later : List Char} (filled : later ≠ [])
    (ends : ∀ c ∈ lead, isBreak c = true) (starts : ∀ c ∈ later.head?, isBreak c = false)
    (printable : ∀ c ∈ lead ++ later, isPrintable c = true) {fuel : Nat}
    (long : lead.length + 1 < fuel) (rest : List Char) (i l : Nat) :
    ∃ widest i', readEmptyLines (hintedIndent p (lead ++ later)) fuel [] 0
        ⟨blockChars (p + 2) true (lead ++ later) ++ rest, i, l, 0⟩ =
      some (lead, widest, ⟨blockChars (p + 2) false later ++ rest, i', l + lead.length, p + 2⟩) ∧
      (if hintedIndent p (lead ++ later) == 0 then max widest (max 1 (p + 1))
        else hintedIndent p (lead ++ later)) = p + 2 := by
  have first : ((blockChars (p + 2) false later) ++ rest).head? = later.head? := by
    obtain ⟨c, later, rfl⟩ := List.exists_cons_of_ne_nil filled
    simp [blockChars, starts c rfl]
  have written : blockChars (p + 2) true (lead ++ later) ++ rest =
      lead ++ (spaces (p + 2) ++ (blockChars (p + 2) false later ++ rest)) := by
    rw [blockChars_lead ends filled starts, List.append_assoc, List.append_assoc]
  -- without a hint no empty line stands before the first line, which tells its indentation
  cases hint : needsHint (lead ++ later) with
  | true =>
      have known : hintedIndent p (lead ++ later) = p + 2 := by simp [hintedIndent, hint]
      refine ⟨max 0 (p + 2), i + lead.length + (p + 2), ?_, by simp [known]⟩
      rw [known, written, readEmptyLines_inside (by omega) ends
        (fun c member => printable c (List.mem_append_left _ member)) (by rwa [first]) (by omega),
        List.nil_append]
  | false =>
      have known : hintedIndent p (lead ++ later) = 0 := by simp [hintedIndent, hint]
      obtain ⟨rfl, solid⟩ := starts_of_no_hint hint ends starts fun c member =>
        printable c (List.mem_append_right _ member)
      obtain ⟨fuel, rfl⟩ : ∃ n, fuel = n + 1 := ⟨fuel - 1, by omega⟩
      refine ⟨p + 2, i + (p + 2), ?_, ?_⟩
      · rw [known, written, List.nil_append, readEmptyLines_first (by rwa [first])]
        rfl
      · rw [known, beq_self_eq_true, if_pos rfl]
        omega

theorem readBlock_breaks {cs : List Char} (filled : cs ≠ []) (ends : ∀ c ∈ cs, isBreak c = true)
    (printable : ∀ c ∈ cs, isPrintable c = true) (stop : ∀ c ∈ rest.head?, isGap c = false)
    (p : Nat) :
    ∃ i' l', readBlock false (some p)
        ⟨blockHints cs ++ '\n' :: (blockChars (p + 2) true cs ++ (lastLineEnd cs ++ rest)),
          i, l, k⟩ = some (cs, ⟨rest, i', l', 0⟩) ∧ l < l' := by
  obtain ⟨i', read⟩ := readBlock_hints (i := i) (l := l) (k := k) p cs
    (blockChars (p + 2) true cs ++ (lastLineEnd cs ++ rest))
  obtain ⟨b, run, rfl⟩ := List.exists_cons_of_ne_nil filled
  have known : hintedIndent p (b :: run) = p + 2 := by
    simp [hintedIndent, needsHint, ends b List.mem_cons_self]
  have written := blockChars_breaks (m := p + 2) true ends []
  rw [List.append_nil, blockChars, List.append_nil] at written
  have chomp : chompOf (b :: run) = .keep := chompOf_keep ends (.inr ⟨rfl, filled⟩)
  have long := Nat.lt_succ_of_lt (length_lt_steps (b :: run) rest)
  refine ⟨i' + (b :: run).length, l + 1 + (b :: run).length, ?_, by omega⟩
  rw [read, written, lastLineEnd_breaks filled ends, List.nil_append, known,
    readEmptyLines_outside ends printable stop long]
  simp [readBlockLines, chomp, keptBy]

/-- A block of empty lines and a text that begins with a line. -/
theorem readBlock_lines {p : Nat} {lead later body ends : List Char} {c : Char}
    (cut : Cut (p + 2) later body ends c run) (filled : later ≠ [])
    (breaks : ∀ c ∈ lead, isBreak c = true) (starts : ∀ c ∈ later.head?, isBreak c = false)
    (printable : ∀ c ∈ lead ++ later, isPrintable c = true)
    (stop : ∀ c ∈ rest.head?, isGap c = false) :
    ∃ i' l', readBlock false (some p)
        ⟨blockHints (lead ++ later) ++ '\n' :: (blockChars (p + 2) true (lead ++ later) ++
          (lastLineEnd (lead ++ later) ++ rest)), i, l, k⟩ =
      some (lead ++ later, ⟨rest, i', l', 0⟩) ∧ l < l' := by
  obtain ⟨i₁, read⟩ := readBlock_hints (i := i) (l := l) (k := k) p (lead ++ later)
    (blockChars (p + 2) true (lead ++ later) ++ (lastLineEnd (lead ++ later) ++ rest))
  rw [lastLineEnd_append filled] at read ⊢
  have written := length_le_blockChars (m := p + 2) true (lead ++ later)
  have parts := congrArg List.length cut.parts
  simp only [List.length_append] at written parts
  have enough : lead.length + body.length ≤
      (blockChars (p + 2) true (lead ++ later) ++ (lastLineEnd later ++ rest)).length := by
    rw [List.length_append]
    omega
  have lead_long := Nat.succ_lt_succ
    (Nat.lt_succ_of_le (Nat.le_trans (Nat.le_add_right _ _) enough))
  have body_long := Nat.succ_lt_succ
    (Nat.lt_succ_of_le (Nat.le_trans (Nat.le_add_left _ _) enough))
  obtain ⟨widest, i₂, lead_read, indent⟩ := readEmptyLines_lead filled breaks starts printable
    lead_long (lastLineEnd later ++ rest) i₁ (l + 1)
  obtain ⟨i₃, l₃, lines_read, after⟩ := readBlockLines_lines cut.lines stop (by omega) _ [] [] lead
    false i₂ (l + 1 + lead.length) body_long
  refine ⟨i₃, l₃, ?_, by omega⟩
  rw [List.append_assoc] at lines_read
  have kept : keptBy (chompOf (lead ++ later)) [c] run = ends := by
    obtain ⟨x, last, solid⟩ := cut.solid
    rw [cut.parts, ← List.append_assoc]
    exact keptBy_chompOf cut.breaks (by rw [List.getLast?_append, last]; rfl) solid cut.closing
  rw [read, lead_read, Option.bind_some]
  simp only [indent, lines_read, Option.bind_some, kept]
  simp [cut.parts]

theorem readBlock_text {cs : List Char} (filled : cs ≠ [])
    (printable : ∀ c ∈ cs, isPrintable c = true) (stop : ∀ c ∈ rest.head?, isGap c = false)
    (p : Nat) :
    ∃ i' l', readBlock false (some p)
        ⟨blockHints cs ++ '\n' :: (blockChars (p + 2) true cs ++ (lastLineEnd cs ++ rest)),
          i, l, k⟩ = some (cs, ⟨rest, i', l', 0⟩) ∧ l < l' := by
  obtain ⟨lead, later, rfl, breaks, starts⟩ := exists_run isBreak cs
  -- the line ends at the front are empty lines, or all there is
  by_cases empty : later = []
  · rw [empty, List.append_nil] at filled printable ⊢
    exact readBlock_breaks filled breaks printable stop p
  · obtain ⟨body, ends, c, run, cut⟩ := exists_cut (m := p + 2) later empty starts fun d member =>
      printable d (List.mem_append_right _ member)
    exact readBlock_lines cut empty breaks starts printable stop

end LineCompletion.Yaml

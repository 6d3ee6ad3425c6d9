import LineCompletion.Proofs.Yaml.Places

/-! # What a style keeps out of a text

The characters of a text are looked at one after the other, each with the character before it and
with what follows it. A style is chosen only for a text in which no character forbids it.
-/

namespace LineCompletion.Yaml

namespace Features

def join (f g : Features) : Features where
  indicator := f.indicator || g.indicator
  lineEnd := f.lineEnd || g.lineEnd
  special := f.special || g.special
  endSpace := f.endSpace || g.endSpace
  spaceEnd := f.spaceEnd || g.spaceEnd

/-- What one character forbids between what stands before it and what follows it. -/
def ofChar (before : Option Char) (c : Char) (rest : List Char) : Features where
  indicator := match before with
    | none => leadsBlock c rest
    | some b => (c == ':' && gapFollows rest) || (c == '#' && isGap b)
  lineEnd := isBreak c
  special := !isPrintable c
  endSpace := c == ' ' && before.any isBreak
  spaceEnd := isBreak c && before == some ' '

theorem join_join (f g h : Features) : (f.join g).join h = f.join (g.join h) := by
  simp [join, Bool.or_assoc]

theorem join_empty (f : Features) : f.join {} = f := by
  simp [join]

theorem empty_join (f : Features) : join {} f = f := by
  simp [join]

/-- A kind of feature, which two texts have if one of them has it. -/
def Splits (kind : Features → Bool) : Prop :=
  ∀ f g, kind (f.join g) = (kind f || kind g)

theorem splits_indicator : Splits indicator := fun _ _ => rfl

theorem splits_lineEnd : Splits lineEnd := fun _ _ => rfl

theorem splits_special : Splits special := fun _ _ => rfl

theorem splits_endSpace : Splits endSpace := fun _ _ => rfl

theorem splits_spaceEnd : Splits spaceEnd := fun _ _ => rfl

end Features

open Features

variable {kind : Features → Bool} {before : Option Char} {f : Features} {c : Char}
  {cs run rest : List Char}

theorem scan_cons :
    scan before f (c :: rest) = scan (some c) (f.join (ofChar before c rest)) rest := rfl

theorem scan_eq_join (before : Option Char) (f : Features) (cs : List Char) :
    scan before f cs = f.join (scan before {} cs) := by
  induction cs generalizing before f with
  | nil => exact (join_empty f).symm
  | cons c rest ih => rw [scan_cons, scan_cons, ih, ih (some c) (join {} _), empty_join, join_join]

theorem scan_cons_eq_false (splits : Splits kind) :
    kind (scan before {} (c :: rest)) = false ↔
      kind (ofChar before c rest) = false ∧ kind (scan (some c) {} rest) = false := by
  rw [scan_cons, scan_eq_join, empty_join, splits, Bool.or_eq_false_iff]

theorem scan_append_eq_false (splits : Splits kind)
    (free : kind (scan before {} (run ++ rest)) = false) :
    kind (scan (run.getLast?.or before) {} rest) = false := by
  induction run generalizing before with
  | nil => simpa using free
  | cons c run ih =>
      have later := ih ((scan_cons_eq_false splits).mp free).2
      rw [List.getLast?_cons]
      cases last : run.getLast? with
      | none => simpa [last] using later
      | some d => simpa [last] using later

theorem forall_isPrintable (free : (scan before {} cs).special = false) :
    ∀ c ∈ cs, isPrintable c = true := by
  induction cs generalizing before with
  | nil => simp
  | cons c rest ih =>
      obtain ⟨first, later⟩ := (scan_cons_eq_false splits_special).mp free
      have first : isPrintable c = true := by simpa [ofChar] using first
      simpa [first] using ih later

theorem forall_unbroken (free : (scan before {} cs).lineEnd = false) :
    ∀ c ∈ cs, isBreak c = false := by
  induction cs generalizing before with
  | nil => simp
  | cons c rest ih =>
      obtain ⟨first, later⟩ := (scan_cons_eq_false splits_lineEnd).mp free
      have first : isBreak c = false := first
      simpa [first] using ih later

/-! ## Texts that a style can hold -/

/-- A text that can be written without marks around it. -/
structure Bare (cs : List Char) : Prop where
  filled : cs ≠ []
  clean : (scan none {} cs).indicator = false
  printable : ∀ c ∈ cs, isPrintable c = true
  unbroken : ∀ c ∈ cs, isBreak c = false
  starts : ∀ c ∈ cs.head?, c ≠ ' '
  ends : ∀ c ∈ cs.getLast?, c ≠ ' '

/-- A text that can be written between single quotes, behind a character. -/
structure Quotable (before : Option Char) (cs : List Char) : Prop where
  printable : ∀ c ∈ cs, isPrintable c = true
  joined : '\n' ∉ cs
  endSpace : (scan before {} cs).endSpace = false
  spaceEnd : (scan before {} cs).spaceEnd = false

theorem Quotable.append (quotable : Quotable before (run ++ rest)) :
    Quotable (run.getLast?.or before) rest where
  printable := fun c member => quotable.printable c (List.mem_append_right run member)
  joined := fun member => quotable.joined (List.mem_append_right run member)
  endSpace := scan_append_eq_false splits_endSpace quotable.endSpace
  spaceEnd := scan_append_eq_false splits_spaceEnd quotable.spaceEnd

theorem not_truthWord_of_newline {s : String} (newline : '\n' ∈ s.toList) :
    truthWords.contains s = false := by
  have unbroken : ∀ word ∈ truthWords, '\n' ∉ word.toList := by decide
  rw [Bool.eq_false_iff]
  intro known
  exact unbroken s (by simpa using known) newline

theorem ofChars_eq_join (cs : List Char) :
    ∃ mark, Features.ofChars cs = join { indicator := mark } (scan none {} cs) :=
  ⟨_, scan_eq_join _ _ _⟩

section OfText

variable {s : String}

theorem ne_space_of_edge {c : Option Char}
    (edge : (c.any fun c => c == ' ' || isBreak c) = false) : ∀ x ∈ c, x ≠ ' ' := by
  rintro x rfl rfl
  simp at edge

theorem bare_of_style (style : Style.ofText s = .plain) : Bare s.toList := by
  obtain ⟨mark, features⟩ := ofChars_eq_join s.toList
  simp only [Style.ofText, features] at style
  split at style
  · split at style <;> simp at style
  · split at style
    · rename_i plain
      obtain ⟨whole, ⟨⟨⟨⟨⟨⟨-, clean⟩, unbroken⟩, printable⟩, -⟩, -⟩, starts⟩, ends⟩ :
          isAmbiguous s = false ∧ _ := by
        simpa only [join, Bool.and_eq_true, Bool.not_eq_true', Bool.or_eq_false_iff,
          Bool.false_or] using plain
      have filled : s.toList ≠ [] := by
        intro empty
        rw [String.toList_eq_nil_iff] at empty
        subst empty
        exact absurd whole (by decide)
      exact ⟨filled, clean, forall_isPrintable printable, forall_unbroken unbroken,
        ne_space_of_edge starts, ne_space_of_edge ends⟩
    · split at style <;> simp at style

theorem quotable_of_style (style : Style.ofText s = .single) : Quotable none s.toList := by
  obtain ⟨mark, features⟩ := ofChars_eq_join s.toList
  simp only [Style.ofText, features] at style
  split at style
  · split at style <;> simp at style
  · rename_i joined
    split at style
    · simp at style
    · split at style
      · rename_i single
        obtain ⟨⟨printable, endSpace⟩, spaceEnd⟩ :
            (_ ∧ (scan none {} s.toList).endSpace = false) ∧ _ := by
          simpa only [join, Bool.not_eq_true', Bool.or_eq_false_iff, Bool.false_or] using single
        refine ⟨forall_isPrintable printable, fun newline => joined ?_, endSpace, spaceEnd⟩
        simp only [not_truthWord_of_newline newline, List.contains_iff_mem.mpr newline,
          Bool.not_false, Bool.and_self]
      · simp at style

theorem printable_of_block (style : Style.ofText s = .block) :
    s.toList ≠ [] ∧ ∀ c ∈ s.toList, isPrintable c = true := by
  obtain ⟨mark, features⟩ := ofChars_eq_join s.toList
  simp only [Style.ofText, features] at style
  split at style
  · split at style
    · rename_i block
      obtain ⟨⟨⟨printable, -⟩, -⟩, filled⟩ :
          ((_ ∧ (scan none {} s.toList).spaceEnd = false) ∧ _) ∧ s.toList.isEmpty = false := by
        simpa only [join, Bool.and_eq_true, Bool.not_eq_true', Bool.or_eq_false_iff,
          Bool.false_or] using block
      exact ⟨by simpa using filled, forall_isPrintable printable⟩
    · simp at style
  · split at style
    · simp at style
    · split at style <;> simp at style

end OfText

/-! ## Digits -/

theorem toNat_of_isDigit {c : Char} (digit : c.isDigit = true) : 48 ≤ c.toNat ∧ c.toNat ≤ 57 := by
  simp only [Char.isDigit, Bool.and_eq_true, decide_eq_true_eq] at digit
  exact ⟨UInt32.le_iff_toNat_le.mp digit.1, UInt32.le_iff_toNat_le.mp digit.2⟩

theorem ne_of_isDigit {c d : Char} (digit : c.isDigit = true) (other : d.isDigit = false) :
    c ≠ d := by
  rintro rfl
  simp [digit] at other

theorem ofChar_of_isDigit {c : Char} (digit : c.isDigit = true) (before : Option Char)
    (rest : List Char) : Features.ofChar before c rest = {} := by
  obtain ⟨low, high⟩ := toNat_of_isDigit digit
  have marks : ("#,[]\x7b\x7d&*!|>'\"%@\x60".toList.all fun d => !d.isDigit) = true := by decide
  have unmarked : "#,[]\x7b\x7d&*!|>'\"%@\x60".toList.contains c = false := by
    rw [Bool.eq_false_iff, ne_eq, List.contains_iff_mem]
    intro mark
    have other := List.all_eq_true.mp marks c mark
    simp [digit] at other
  have inside : (0x20 ≤ c.toNat && c.toNat ≤ 0x7E) = true := by
    rw [Bool.and_eq_true, decide_eq_true_eq, decide_eq_true_eq]
    omega
  have apart (d : Char) (other : d.isDigit = false) : (c == d) = false :=
    beq_eq_false_iff_ne.mpr (ne_of_isDigit digit other)
  simp only [ofChar, leadsBlock, isBreak, isPrintable, unmarked, inside, apart ' ' rfl,
    apart '?' rfl, apart ':' rfl, apart '-' rfl, apart '#' rfl, apart '\r' rfl, apart '\n' rfl,
    apart '\u0085' rfl, apart '\u2028' rfl, apart '\u2029' rfl, Bool.false_and, Bool.or_false,
    Bool.true_or, Bool.or_true, Bool.not_true]
  cases before <;> rfl

theorem scan_of_digits {cs : List Char} (digits : ∀ c ∈ cs, c.isDigit = true)
    (before : Option Char) : scan before {} cs = {} := by
  induction cs generalizing before with
  | nil => rfl
  | cons c rest ih =>
      obtain ⟨digit, later⟩ := List.forall_mem_cons.mp digits
      rw [scan_cons, ofChar_of_isDigit digit, join_empty]
      exact ih later (some c)

theorem bare_of_digits {cs : List Char} (filled : cs ≠ [])
    (digits : ∀ c ∈ cs, c.isDigit = true) : Bare cs := by
  have free := scan_of_digits digits none
  have solid : ∀ c ∈ cs, c ≠ ' ' := fun c member => ne_of_isDigit (digits c member) rfl
  exact
    { filled
      clean := by rw [free]
      printable := forall_isPrintable (by rw [free])
      unbroken := forall_unbroken (by rw [free])
      starts := fun c first => solid c (List.mem_of_mem_head? first)
      ends := fun c last => solid c (List.mem_of_mem_getLast? last) }

end LineCompletion.Yaml

import LineCompletion.Job.Basic
import LineCompletion.Proofs.Text.Utf8

/-! # Values read back from the lines of a command

A command may print its values, each on a line with its description behind a tab, and blank lines
wherever it likes. What is lost is only what trimming takes from a line, so the values are read back
where there is nothing to take.
-/

namespace LineCompletion

namespace Text

theorem trimRight_cons (c : Char) (cs : List Char) :
    trimRight (c :: cs) =
      if trimRight cs = [] then (if isBlank c then [] else [c]) else c :: trimRight cs := by
  unfold trimRight
  rw [List.reverse_cons, List.dropWhile_append]
  cases kept : cs.reverse.dropWhile isBlank with
  | nil => cases blank : isBlank c <;> simp [blank]
  | cons d ds => simp

theorem trimRight_eq_nil_iff {cs : List Char} :
    trimRight cs = [] ↔ ∀ c ∈ cs, isBlank c = true := by
  induction cs with
  | nil => simp [trimRight]
  | cons c rest ih =>
      rw [trimRight_cons]
      by_cases later : trimRight rest = []
      · simp [later, ← ih]
      · simp [later, ← ih]

theorem trimRight_eq_self {cs : List Char} (ends : ∀ c ∈ cs.getLast?, isBlank c = false) :
    trimRight cs = cs := by
  induction cs with
  | nil => rfl
  | cons c rest ih =>
      rw [trimRight_cons]
      cases rest with
      | nil => simpa [trimRight] using ends c rfl
      | cons d more =>
          rw [ih fun e last => ends e (by simpa using last)]
          simp

theorem trim_eq_self {cs : List Char} (starts : ∀ c ∈ cs.head?, isBlank c = false)
    (ends : ∀ c ∈ cs.getLast?, isBlank c = false) : trim cs = cs := by
  have left : trimLeft cs = cs := by
    cases cs with
    | nil => rfl
    | cons c rest => simp [trimLeft, starts c rfl]
  rw [trim, left, trimRight_eq_self ends]

end Text

/-- A value that a line can hold: nothing in it ends the line or its name, and trimming takes
nothing from it. -/
structure Item.Printable (i : Item) : Prop where
  untabbed : '\t' ∉ i.name.toList
  unbroken : '\n' ∉ i.name.toList
  described : '\n' ∉ i.description.toList
  starts : ∀ c ∈ i.description.toList.head?, Text.isBlank c = false
  ends : ∀ c ∈ i.description.toList.getLast?, Text.isBlank c = false
  visible : i.description = "" → ∃ c ∈ i.name.toList, Text.isBlank c = false
  bare : i.description = "" → ∀ c ∈ i.name.toList.getLast?, Text.isBlank c = false

/-- The line of a value: its name, and behind a tab its description if there is one. -/
def Item.line (i : Item) : List Char :=
  i.name.toList ++ if i.description.isEmpty then [] else '\t' :: i.description.toList

namespace Job

/-- A text that prints values on lines of their own, with blank lines anywhere. -/
inductive Prints : List Item → List Char → Prop where
  /-- Nothing more is printed, but blanks on a line that does not end. -/
  | done {blanks : List Char} (unbroken : '\n' ∉ blanks)
      (blank : ∀ c ∈ blanks, Text.isBlank c = true) : Prints [] blanks
  /-- A blank line comes first. -/
  | blank {items : List Item} {line rest : List Char} (unbroken : '\n' ∉ line)
      (blank : ∀ c ∈ line, Text.isBlank c = true) (later : Prints items rest) :
      Prints items (line ++ '\n' :: rest)
  /-- The line of a value comes first. -/
  | item {i : Item} {items : List Item} {rest : List Char} (printable : i.Printable)
      (later : Prints items rest) : Prints (i :: items) (i.line ++ '\n' :: rest)

def itemsOfLine (line : List Char) : List Item :=
  if Text.trimRight line = [] then [] else [itemOf (Text.trimRight line)]

theorem linesOf_cons {c : Char} {rest line : List Char} {more : List (List Char)}
    (other : c ≠ '\n') (inside : c ≠ '\r' ∨ rest.head? ≠ some '\n')
    (lines : linesOf rest = line :: more) : linesOf (c :: rest) = (c :: line) :: more := by
  rw [linesOf.eq_3 c rest (by grind), lines]
  simp [other]

theorem exists_linesOf_append {line : List Char} (unbroken : '\n' ∉ line) (rest : List Char) :
    ∃ kept, linesOf (line ++ '\n' :: rest) = kept :: linesOf rest ∧
      Text.trimRight kept = Text.trimRight line := by
  induction line with
  | nil => exact ⟨[], by rw [List.nil_append, linesOf.eq_3 _ _ (by simp)]; rfl, rfl⟩
  | cons c line ih =>
      obtain ⟨other, later⟩ : '\n' ≠ c ∧ '\n' ∉ line := by simpa using unbroken
      obtain ⟨kept, lines, same⟩ := ih later
      by_cases ending : c = '\r' ∧ line = []
      · obtain ⟨rfl, rfl⟩ := ending
        exact ⟨[], rfl, rfl⟩
      · refine ⟨c :: kept, linesOf_cons other.symm ?_ lines, ?_⟩
        · cases line with
          | nil => exact .inl fun return_ => ending ⟨return_, rfl⟩
          | cons d line =>
              obtain ⟨apart, -⟩ : '\n' ≠ d ∧ '\n' ∉ line := by simpa using later
              exact .inr (by simpa using apart.symm)
        · rw [Text.trimRight_cons, Text.trimRight_cons, same]

theorem itemsOfText_append {line : List Char} (unbroken : '\n' ∉ line) (rest : List Char) :
    itemsOfText (line ++ '\n' :: rest) = itemsOfLine line ++ itemsOfText rest := by
  obtain ⟨kept, lines, same⟩ := exists_linesOf_append unbroken rest
  simp only [itemsOfText, lines, List.map_cons, same, itemsOfLine]
  cases trimmed : Text.trimRight line with
  | nil => simp
  | cons c cs => simp

theorem linesOf_unbroken {c : Char} {rest : List Char} (unbroken : '\n' ∉ c :: rest) :
    linesOf (c :: rest) = [c :: rest] := by
  induction rest generalizing c with
  | nil =>
      obtain ⟨other, -⟩ : '\n' ≠ c ∧ '\n' ∉ ([] : List Char) := by simpa using unbroken
      rw [linesOf.eq_3 c [] (by simp)]
      simp [linesOf, other.symm]
  | cons d rest ih =>
      obtain ⟨other, later⟩ : '\n' ≠ c ∧ '\n' ∉ d :: rest := by simpa using unbroken
      have inside : d ≠ '\n' := fun newline => later (newline ▸ List.mem_cons_self)
      exact linesOf_cons other.symm (.inr (by simpa using inside)) (ih later)

theorem itemsOfText_of_blank {blanks : List Char} (unbroken : '\n' ∉ blanks)
    (blank : ∀ c ∈ blanks, Text.isBlank c = true) : itemsOfText blanks = [] := by
  cases blanks with
  | nil => rfl
  | cons c rest =>
      have trimmed := Text.trimRight_eq_nil_iff.mpr blank
      simp [itemsOfText, linesOf_unbroken unbroken, trimmed]

theorem takeWhile_untabbed {name : List Char} (untabbed : '\t' ∉ name) (rest : List Char) :
    (name ++ rest).takeWhile (· != '\t') = name ++ rest.takeWhile (· != '\t') := by
  refine List.takeWhile_append_of_pos fun c member => bne_iff_ne.mpr ?_
  rintro rfl
  exact untabbed member

theorem itemOf_of_untabbed {name : List Char} (untabbed : '\t' ∉ name) :
    itemOf name = { name := String.ofList name } := by
  have whole : name.takeWhile (· != '\t') = name := by simpa using takeWhile_untabbed untabbed []
  simp [itemOf, whole]

theorem itemOf_append {name : List Char} (untabbed : '\t' ∉ name) (description : List Char) :
    itemOf (name ++ '\t' :: description) =
      { name := String.ofList name, description := String.ofList (Text.trim description) } := by
  have before : (name ++ '\t' :: description).takeWhile (· != '\t') = name := by
    simpa using takeWhile_untabbed untabbed ('\t' :: description)
  simp [itemOf, before]

/-- The line of a value that can be printed gives the value back. -/
theorem itemsOfLine_line {i : Item} (printable : i.Printable) : itemsOfLine i.line = [i] := by
  by_cases bare : i.description = ""
  · have line : i.line = i.name.toList := by simp [Item.line, bare]
    have kept := Text.trimRight_eq_self (printable.bare bare)
    obtain ⟨c, member, -⟩ := printable.visible bare
    rw [itemsOfLine, line, kept, if_neg (List.ne_nil_of_mem member),
      itemOf_of_untabbed printable.untabbed]
    obtain ⟨name, description⟩ := i
    simp only at bare
    simp [bare]
  · have line : i.line = i.name.toList ++ '\t' :: i.description.toList := by
      simp [Item.line, bare]
    obtain ⟨last, ends⟩ : ∃ last, i.description.toList.getLast? = some last :=
      Option.ne_none_iff_exists'.mp (by simpa using bare)
    have kept : Text.trimRight i.line = i.line := by
      refine Text.trimRight_eq_self fun c found => ?_
      obtain rfl : last = c := by simpa [line, List.getLast?_cons, ends] using found
      exact printable.ends last ends
    rw [itemsOfLine, kept, if_neg (by simp [line]), line, itemOf_append printable.untabbed,
      Text.trim_eq_self printable.starts printable.ends]
    simp

theorem unbroken_line {i : Item} (printable : i.Printable) : '\n' ∉ i.line := by
  have := printable.unbroken
  have := printable.described
  unfold Item.line
  split <;> simp_all

theorem itemsOfText_of_prints {items : List Item} {text : List Char} (prints : Prints items text) :
    itemsOfText text = items := by
  induction prints with
  | done unbroken blank => exact itemsOfText_of_blank unbroken blank
  | @blank items line rest unbroken blank later ih =>
      rw [itemsOfText_append unbroken, itemsOfLine,
        if_pos (Text.trimRight_eq_nil_iff.mpr blank), List.nil_append, ih]
  | @item i items rest printable later ih =>
      rw [itemsOfText_append (unbroken_line printable), itemsOfLine_line printable, ih,
        List.singleton_append]

/-- Values printed on lines of their own are read back, all and in order, and the blank lines
between them leave no trace. -/
theorem printed_items_read_back {items : List Item} {text : List Char}
    (prints : Prints items text) :
    itemsOfText text = items ∧ itemsOf (Text.Utf8.encode text) = items := by
  have read := itemsOfText_of_prints prints
  exact ⟨read, by rw [itemsOf, Text.Utf8.decodeLossy_encode, read]⟩

/-- A tag with a description, between a blank line that a return ends and one that has no end. -/
theorem printed_items_read_back_release :
    Prints [{ name := " v1", description := "Current\trelease" }]
        "\r\n v1\tCurrent\trelease\n  ".toList ∧
      itemsOfText "\r\n v1\tCurrent\trelease\n  ".toList =
        [{ name := " v1", description := "Current\trelease" }] := by
  let release : Item := { name := " v1", description := "Current\trelease" }
  have printable : release.Printable := by constructor <;> simp [release, Text.isBlank]
  have blanks : Prints [] [' ', ' '] := .done (by decide) (by simp [Text.isBlank])
  have printed : "\r\n v1\tCurrent\trelease\n  ".toList =
      ['\r'] ++ '\n' :: (release.line ++ '\n' :: [' ', ' ']) := by decide
  have prints : Prints [release] "\r\n v1\tCurrent\trelease\n  ".toList := by
    rw [printed]
    exact .blank (by decide) (by simp [Text.isBlank]) (.item printable blanks)
  exact ⟨prints, (printed_items_read_back prints).1⟩

end Job

end LineCompletion

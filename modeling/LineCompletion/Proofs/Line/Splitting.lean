import Mathlib.Data.List.Basic
import LineCompletion.Line.Split

/-! # Where the words of a line end

A line is split by a machine that reads one character at a time and remembers the open quote and a
backslash whose character is still to come. A word is finished when the machine is back where it
began: a blank behind it ends it, while an unfinished word takes the blank along.
-/

namespace LineCompletion.SplitLine

/-- Where a reader stands inside a word. -/
inductive Place where
  /-- Inside a quote, or outside quotes. -/
  | within (quote : Quote)
  /-- After a backslash that takes the next character with it. -/
  | escaped (quote : Quote)
  deriving Repr, DecidableEq, Inhabited

namespace Place

/-- Outside quotes, as before the first character of a word. -/
abbrev start : Place := .within .bare

/-- The place after one more character of the word; none where the character is a blank that ends
the word. -/
def step : Place → Char → Option Place
  | .escaped quote, _ => some (.within quote)
  | .within .single, c => some (.within (if c == '\'' then .bare else .single))
  | .within .double, c =>
    if c == '\\' then some (.escaped .double)
    else some (.within (if c == '"' then .bare else .double))
  | .within .bare, c =>
    if c == '\\' then some (.escaped .bare)
    else if Text.isBlank c then none
    else if c == '"' then some (.within .double)
    else if c == '\'' then some (.within .single)
    else some start

/-- The place after several characters, unless a blank among them ends the word. -/
def run (p : Place) (cs : List Char) : Option Place :=
  cs.foldlM step p

@[simp]
theorem run_nil (p : Place) : p.run [] = some p := rfl

@[simp]
theorem run_cons (p : Place) (c : Char) (rest : List Char) :
    p.run (c :: rest) = (p.step c).bind (·.run rest) := rfl

theorem run_append (p : Place) (left right : List Char) :
    p.run (left ++ right) = (p.run left).bind (·.run right) :=
  List.foldlM_append

theorem run_append_eq_some_iff {p last : Place} {left right : List Char} :
    p.run (left ++ right) = some last ↔ ∃ q, p.run left = some q ∧ q.run right = some last := by
  rw [run_append, Option.bind_eq_some_iff]

theorem eq_start_of_step_eq_none {p : Place} {c : Char} (ends : p.step c = none) :
    p = start ∧ Text.isBlank c = true := by
  cases p with
  | escaped quote => simp [step] at ends
  | within quote =>
      cases quote with
      | single => simp [step] at ends
      | double =>
          simp only [step] at ends
          split at ends <;> simp at ends
      | bare =>
          by_cases blank : Text.isBlank c = true
          · exact ⟨rfl, blank⟩
          · simp only [step, blank] at ends
            split at ends <;> try simp at ends
            split at ends <;> try simp at ends
            split at ends <;> simp at ends

theorem start_step_blank {c : Char} (blank : Text.isBlank c = true) : start.step c = none := by
  have slash : c ≠ '\\' := by
    rintro rfl
    revert blank
    decide
  simp [step, slash, blank]

end Place

/-- Whether a word is complete where it stops: outside quotes, and without a backslash that waits
for its character. -/
def Finished (word : List Char) : Prop :=
  Place.start.run word = some Place.start

instance (word : List Char) : Decidable (Finished word) :=
  inferInstanceAs (Decidable (_ = _))

theorem Finished.append {left right : List Char} (first : Finished left) (second : Finished right) :
    Finished (left ++ right) :=
  Place.run_append_eq_some_iff.mpr ⟨Place.start, first, second⟩

/-- Splits the rest of a line one character at a time. -/
def readFrom : Place → List Char → Bool → List Char → List (List Char) × Bool
  | _, word, trailing, [] => (flush word [], trailing)
  | p, word, _, c :: rest =>
    match p.step c with
    | some next => readFrom next (c :: word) false rest
    | none =>
      let r := readFrom Place.start [] true rest
      (flush word r.1, r.2)

/-- The scan takes a backslash and its character together; one character at a time gives the same
words. -/
theorem scan_eq_readFrom (quote : Quote) (word : List Char) (trailing : Bool) (cs : List Char) :
    scan quote word trailing cs = readFrom (.within quote) word trailing cs := by
  fun_induction scan quote word trailing cs with
  | case1 quote word trailing => rfl
  | case2 word trailing c rest ih => simpa only [readFrom, Place.step] using ih
  | case3 quote word trailing d rest notSingle ih =>
      cases quote with
      | single => exact absurd rfl notSingle
      | double | bare => simpa [readFrom, Place.step] using ih
  | case4 word trailing c rest lone ih =>
      -- only at the end of the line does a backslash stand alone, and nothing is read after it
      by_cases slash : c = '\\'
      · cases rest with
        | nil => subst slash; rfl
        | cons d rest => exact absurd rfl (lone d rest slash)
      · simpa [readFrom, Place.step, slash] using ih
  | case5 word trailing c rest lone blank others ih =>
      have slash : c ≠ '\\' := by rintro rfl; revert blank; decide
      simp [readFrom, Place.step, slash, blank, others, ih]
  | case6 word trailing c rest lone blank double ih =>
      obtain rfl : c = '"' := by simpa using double
      simpa [readFrom, Place.step, blank] using ih
  | case7 word trailing c rest lone blank double single ih =>
      obtain rfl : c = '\'' := by simpa using single
      simpa [readFrom, Place.step, blank] using ih
  | case8 word trailing c rest lone blank double single ih =>
      by_cases slash : c = '\\'
      · cases rest with
        | nil => subst slash; rfl
        | cons d rest => exact absurd rfl (lone d rest slash)
      · simp only [beq_iff_eq] at double single
        simpa [readFrom, Place.step, slash, blank, double, single] using ih

theorem ofChars_eq_readFrom (cs : List Char) : ofChars cs = readFrom Place.start [] false cs :=
  scan_eq_readFrom .bare [] false cs

/-! ## Words that stand whole -/

theorem readFrom_append {p next : Place} {left : List Char} (reached : p.run left = some next)
    (word : List Char) (trailing : Bool) (rest : List Char) :
    readFrom p word trailing (left ++ rest) =
      readFrom next (left.reverse ++ word) (trailing && left.isEmpty) rest := by
  induction left generalizing p word trailing with
  | nil =>
      obtain rfl : p = next := by simpa using reached
      simp
  | cons c left ih =>
      cases stepped : p.step c with
      | none => simp [stepped] at reached
      | some q =>
          rw [Place.run_cons, stepped, Option.bind_some] at reached
          rw [List.cons_append, readFrom, stepped]
          simpa using ih reached (c :: word) false

theorem readFrom_blank {c : Char} (blank : Text.isBlank c = true) (word : List Char)
    (trailing : Bool) (rest : List Char) :
    readFrom Place.start word trailing (c :: rest) =
      (flush word (readFrom Place.start [] true rest).1,
        (readFrom Place.start [] true rest).2) := by
  rw [readFrom, Place.start_step_blank blank]

theorem flush_of_ne_nil {word : List Char} (nonempty : word ≠ []) (words : List (List Char)) :
    flush word words = word.reverse :: words := by
  simp [flush, nonempty]

theorem ofChars_of_run {word : List Char} {p : Place} (nonempty : word ≠ [])
    (reached : Place.start.run word = some p) : ofChars word = ([word], false) := by
  have whole := readFrom_append reached [] false []
  rw [List.append_nil, List.append_nil] at whole
  rw [ofChars_eq_readFrom, whole, readFrom, flush_of_ne_nil (by simpa using nonempty)]
  simp

end LineCompletion.SplitLine

namespace LineCompletion.TokenLine

theorem ofWords_of_nonempty {words : List String} (nonempty : ∀ word ∈ words, word ≠ "")
    (trailing : Bool) :
    ofWords words trailing = { tokens := words.map Token.parse, trailingSpace := trailing } := by
  have kept : words.filter (fun word => !word.isEmpty) = words := by
    rw [List.filter_eq_self]
    intro word member
    simpa using nonempty word member
  have last : words.getLast?.any String.isEmpty = false := by
    cases found : words.getLast? with
    | none => rfl
    | some word => simpa using nonempty word (List.mem_of_getLast? found)
  simp [ofWords, kept, last]

end LineCompletion.TokenLine

import LineCompletion.Yaml.Token
import LineCompletion.Proofs.Yaml.Block
import LineCompletion.Proofs.Yaml.Quoted

/-! # Tokens of written lines

A text is read line by line. Where a line begins, what counts is the blocks that are open and the
tokens read so far: a key on the line adds to them, and a value that is read brings the next line.
-/

namespace LineCompletion.Yaml

/-- The blocks that are open outside of flow collections, and the tokens read, last first. -/
structure Blocks where
  indent : Option Nat
  outer : List (Option Nat)
  tokens : List Token

namespace Blocks

/-- The blocks with more tokens read, in order. -/
def emit (b : Blocks) (ts : List Token) : Blocks :=
  { b with tokens := ts.reverse ++ b.tokens }

def close (b : Blocks) (column : Option Nat) : Blocks :=
  let r := Scanner.closeFrom column b.indent b.outer b.tokens
  { indent := r.1, outer := r.2.1, tokens := r.2.2 }

def openMap (b : Blocks) (column : Nat) : Blocks :=
  if b.indent.all (· < column) then
    { indent := some column, outer := b.indent :: b.outer, tokens := .blockMap :: b.tokens }
  else b

/-- A scanner at a place outside of flow collections. -/
def scanner (b : Blocks) (c : Cursor) (keyAllowed : Bool) (key : Option KeyPlace) : Scanner where
  cursor := c
  indent := b.indent
  outer := b.outer
  keyAllowed := keyAllowed
  blockKey := key
  tokens := b.tokens

@[simp] theorem emit_emit (b : Blocks) (ts us : List Token) :
    (b.emit ts).emit us = b.emit (ts ++ us) := by
  simp [emit]

end Blocks

open Scanner

variable {b : Blocks} {text rest : List Char} {c : Char} {key : Option KeyPlace} {a : Bool}
  {i l k n : Nat} {tokens : List Token}

/-! ## Steps -/

/-- A scanner where the next token begins. -/
def arrive (s : Scanner) : Option Scanner :=
  (s.skipGap (s.cursor.rest.length + 1)).dropStale

/-- Reading on leads to tokens. -/
def Yields (s : Scanner) (tokens : List Token) : Prop :=
  ∀ fuel, s.cursor.rest.length < fuel → s.run fuel = some tokens

theorem run_succ (s : Scanner) (fuel : Nat) :
    s.run (fuel + 1) = (arrive s).bind fun s =>
      match s.cursor.peek with
      | none => (s.close none).dropKey.bind fun s => some s.tokens.reverse
      | some x => ((s.close (some s.cursor.column)).readToken x).bind fun s => s.run fuel := rfl

theorem run_token {s u : Scanner} (arrives : arrive s = some u) (first : u.cursor.peek = some c)
    (fuel : Nat) :
    s.run (fuel + 1) = ((u.close (some u.cursor.column)).readToken c).bind fun s => s.run fuel := by
  rw [run_succ, arrives, Option.bind_some, first]

theorem run_block {s : Scanner} (arrives : arrive s = some (b.scanner ⟨c :: rest, i, l, k⟩ a key))
    (fuel : Nat) :
    s.run (fuel + 1) =
      (((b.close (some k)).scanner ⟨c :: rest, i, l, k⟩ a key).readToken c).bind
        fun s => s.run fuel :=
  run_token arrives rfl fuel

theorem run_end {s : Scanner} (arrives : arrive s = some (b.scanner ⟨[], i, l, k⟩ a none))
    (fuel : Nat) : s.run (fuel + 1) = some (b.close none).tokens.reverse := by
  rw [run_succ, arrives]
  rfl

theorem Yields.of_arrive {s t : Scanner} (later : Yields t tokens) (same : arrive s = arrive t)
    (shorter : t.cursor.rest.length ≤ s.cursor.rest.length) : Yields s tokens := by
  intro fuel enough
  obtain ⟨fuel, rfl⟩ : ∃ m, fuel = m + 1 := ⟨fuel - 1, by omega⟩
  have read := later (fuel + 1) (by omega)
  rw [run_succ] at read ⊢
  rw [same, read]

theorem Yields.token {s u t : Scanner} (arrives : arrive s = some u)
    (first : u.cursor.peek = some c) (read : (u.close (some u.cursor.column)).readToken c = some t)
    (shorter : t.cursor.rest.length < s.cursor.rest.length) (later : Yields t tokens) :
    Yields s tokens := by
  intro fuel enough
  obtain ⟨fuel, rfl⟩ : ∃ m, fuel = m + 1 := ⟨fuel - 1, by omega⟩
  rw [run_token arrives first, read, Option.bind_some]
  exact later fuel (by omega)

theorem Yields.block {s t : Scanner}
    (arrives : arrive s = some (b.scanner ⟨c :: rest, i, l, k⟩ a key))
    (read : ((b.close (some k)).scanner ⟨c :: rest, i, l, k⟩ a key).readToken c = some t)
    (shorter : t.cursor.rest.length < s.cursor.rest.length) (later : Yields t tokens) :
    Yields s tokens :=
  Yields.token arrives rfl read shorter later

/-! ## Gaps -/

/-- A text at which a token begins or the text ends. -/
def Halts (text : List Char) : Prop :=
  ∀ c ∈ text.head?, isGap c = false ∧ c ≠ '#' ∧ c ≠ '\ufeff'

theorem Halts.not_gap (halts : Halts rest) : ∀ c ∈ rest.head?, isGap c = false :=
  fun c first => (halts c first).1

theorem meets_of_halts (halts : Halts rest) {x : Char} (mark : x = '#' ∨ x = '\ufeff') (m : Nat) :
    (⟨spaces m ++ rest, i, l, k⟩ : Cursor).meets x = false := by
  cases m with
  | zero =>
      cases rest with
      | nil => rfl
      | cons c rest =>
          obtain ⟨-, comment, order⟩ := halts c rfl
          obtain rfl | rfl := mark
          · simpa [spaces, Cursor.meets_cons] using comment
          · simpa [spaces, Cursor.meets_cons] using order
  | succ m =>
      obtain rfl | rfl := mark <;> rfl

theorem skipGap_stop (halts : Halts rest) (m fuel : Nat) :
    (b.scanner ⟨spaces m ++ rest, i, l, k⟩ a key).skipGap (fuel + 1) =
      b.scanner ⟨rest, i + m, l, k + m⟩ a key := by
  have order := meets_of_halts (i := i) (l := l) (k := k) halts (.inr rfl) m
  have comment := meets_of_halts (i := i + m) (l := l) (k := k + m) halts (.inl rfl) 0
  have stop : ∀ c ∈ rest.head?,
      (c == ' ' || (c == '\t' && ((b.scanner ⟨spaces m ++ rest, i, l, k⟩ a key).inFlow || !a))) =
        false := by
    intro c first
    have solid := (isGap_eq_false.mp (halts.not_gap c first)).1
    simp only [isSpace, Bool.or_eq_false_iff] at solid
    simp [solid]
  have passed : (⟨spaces m ++ rest, i, l, k⟩ : Cursor).skipWhile (fun x => x == ' ' ||
      (x == '\t' && ((b.scanner ⟨spaces m ++ rest, i, l, k⟩ a key).inFlow || !a))) =
        ⟨rest, i + m, l, k + m⟩ := by
    rw [Cursor.skipWhile_run (by simp [spaces]) stop, length_spaces]
  have ends := any_isBreak_peek (i := i + m) (l := l) (k := k + m) (unbroken_of_stop halts.not_gap)
  simp only [Blocks.scanner] at passed
  simp only [skipGap, Blocks.scanner, order, Bool.and_false, Bool.false_eq_true, if_false, passed]
  have comment : (⟨rest, i + m, l, k + m⟩ : Cursor).meets '#' = false := comment
  simp only [comment, Bool.false_eq_true, if_false, ends]

theorem skipGap_break (fuel : Nat) :
    (b.scanner ⟨'\n' :: rest, i, l, k⟩ a key).skipGap (fuel + 1) =
      (b.scanner ⟨rest, i + 1, l + 1, 0⟩ true key).skipGap fuel := by
  have order : (⟨'\n' :: rest, i, l, k⟩ : Cursor).meets '\ufeff' = false := rfl
  have comment : (⟨'\n' :: rest, i, l, k⟩ : Cursor).meets '#' = false := rfl
  have here (p : Char → Bool) (stop : p '\n' = false) :
      (⟨'\n' :: rest, i, l, k⟩ : Cursor).skipWhile p = ⟨'\n' :: rest, i, l, k⟩ :=
    Cursor.skipWhile_none (by simpa using stop)
  have ends : isBreak '\n' = true := rfl
  simp only [skipGap, Blocks.scanner, order, Bool.and_false, Bool.false_eq_true, if_false]
  rw [here _ (by simp)]
  simp only [comment, Bool.false_eq_true, if_false, Cursor.peek_cons, Option.any_some, ends,
    if_true, inFlow, List.isEmpty_nil, Bool.not_true, Bool.not_false, Bool.or_true]
  rfl

theorem dropStale_scanner (c : Cursor) :
    (b.scanner c a key).dropStale = (freshKey c key).map (fun key => b.scanner c a key) := by
  simp only [dropStale, Blocks.scanner]
  cases freshKey c key <;> rfl

theorem arrive_stop (halts : Halts rest) (m : Nat) :
    arrive (b.scanner ⟨spaces m ++ rest, i, l, k⟩ a key) =
      (freshKey ⟨rest, i + m, l, k + m⟩ key).map fun key =>
        b.scanner ⟨rest, i + m, l, k + m⟩ a key := by
  rw [arrive, skipGap_stop halts, dropStale_scanner]

theorem arrive_here (halts : Halts rest) :
    arrive (b.scanner ⟨rest, i, l, k⟩ a key) =
      (freshKey ⟨rest, i, l, k⟩ key).map fun key => b.scanner ⟨rest, i, l, k⟩ a key :=
  arrive_stop halts 0

theorem arrive_break :
    arrive (b.scanner ⟨'\n' :: rest, i, l, k⟩ a key) =
      arrive (b.scanner ⟨rest, i + 1, l + 1, 0⟩ true key) := by
  unfold arrive
  have fuel : (b.scanner ⟨'\n' :: rest, i, l, k⟩ a key).cursor.rest.length + 1 =
      rest.length + 1 + 1 := rfl
  rw [fuel, skipGap_break]
  rfl

theorem freshKey_passed {c : Cursor} (passed : ∀ p ∈ key, p.required = false ∧ p.line < c.line) :
    freshKey c key = some none := by
  cases key with
  | none => rfl
  | some p =>
      obtain ⟨free, before⟩ := passed p rfl
      simp [freshKey, isStale, free, before]

theorem Yields.of_passed (halts : Halts rest)
    (passed : ∀ p ∈ key, p.required = false ∧ p.line < l)
    (later : Yields (b.scanner ⟨rest, i, l, k⟩ a none) tokens) :
    Yields (b.scanner ⟨rest, i, l, k⟩ a key) tokens := by
  refine later.of_arrive ?_ (Nat.le_refl _)
  rw [arrive_here halts, arrive_here halts, freshKey_passed passed]
  rfl

/-! ## Plain scalars and keys -/

section Lead

variable (lead : leadsBlock c rest = false)

include lead

theorem unmarked_of_lead {d : Char}
    (mark : "#,[]\x7b\x7d&*!|>'\"%@\x60".toList.contains d = true) : (c == d) = false := by
  have unmarked := (Bool.or_eq_false_iff.mp lead).1
  rw [beq_eq_false_iff_ne]
  rintro rfl
  exact Bool.noConfusion (mark.symm.trans unmarked)

theorem joined_of_lead {d : Char} (one : d = '?' ∨ d = ':' ∨ d = '-') :
    (c == d && gapFollows rest) = false := by
  have alone := (Bool.or_eq_false_iff.mp lead).2
  rw [Bool.and_eq_false_iff] at alone ⊢
  refine alone.imp_left fun others => ?_
  simp only [Bool.or_eq_false_iff] at others
  obtain rfl | rfl | rfl := one
  · exact others.1.1
  · exact others.1.2
  · exact others.2

theorem atPlain_of_lead (solid : isGap c = false) :
    (b.scanner ⟨c :: rest, i, l, k⟩ a key).atPlain = true := by
  have listed : "-?:,[]\x7b\x7d#&*!|>'\"%@\x60".toList.contains c =
      (c == '-' || (c == '?' || c == ':')) := by
    have unmarked := (Bool.or_eq_false_iff.mp lead).1
    simp at unmarked
    simp [unmarked]
    rfl
  have goes : (⟨c :: rest, i, l, k⟩ : Cursor).atGap 1 = gapFollows rest := Cursor.atGap_one
  have inner : (⟨c :: rest, i, l, k⟩ : Cursor).atSpace 1 = true → gapFollows rest = true := by
    intro space
    rw [← goes, Cursor.atGap, space, Bool.true_or]
  unfold atPlain
  simp only [Blocks.scanner, Cursor.peek_cons, Cursor.atGap_cons, solid, goes, listed, inFlow]
  cases gap : gapFollows rest with
  | true =>
      have dash := joined_of_lead lead (d := '-') (by simp)
      have question := joined_of_lead lead (d := '?') (by simp)
      have colon := joined_of_lead lead (d := ':') (by simp)
      rw [gap, Bool.and_true] at dash question colon
      simp [dash, question, colon]
  | false =>
      have follows : (⟨c :: rest, i, l, k⟩ : Cursor).atSpace 1 = false := by
        rw [Bool.eq_false_iff]
        exact fun space => Bool.noConfusion ((inner space).symm.trans gap)
      simp only [follows]
      cases c == '-' <;> cases c == '?' <;> cases c == ':' <;> rfl

theorem readToken_plain (solid : isGap c = false) (mark : k ≠ 0 ∨ c ≠ '-' ∧ c ≠ '.') :
    (b.scanner ⟨c :: rest, i, l, k⟩ a key).readToken c =
      (b.scanner ⟨c :: rest, i, l, k⟩ a key).readPlainScalar := by
  have apart {d : Char} := unmarked_of_lead lead (d := d)
  have joined {d : Char} := joined_of_lead lead (d := d)
  have plain : (b.scanner ⟨c :: rest, i, l, k⟩ a key).atPlain = true := atPlain_of_lead lead solid
  have goes : (⟨c :: rest, i, l, k⟩ : Cursor).atGap 1 = gapFollows rest := Cursor.atGap_one
  have unmarked_line : (⟨c :: rest, i, l, k⟩ : Cursor).atMark '-' = false ∧
      (⟨c :: rest, i, l, k⟩ : Cursor).atMark '.' = false := by
    obtain inside | ⟨dash, dot⟩ := mark
    · exact ⟨Cursor.atMark_of_column inside, Cursor.atMark_of_column inside⟩
    · simp [Cursor.atMark, Cursor.meets_cons, dash, dot]
  have flow : (b.scanner ⟨c :: rest, i, l, k⟩ a key).inFlow = false := rfl
  have here : (b.scanner ⟨c :: rest, i, l, k⟩ a key).cursor = ⟨c :: rest, i, l, k⟩ := rfl
  simp (disch := decide) only [readToken, here, flow, goes, apart, joined, unmarked_line, plain,
    Bool.and_false, Bool.false_or, Bool.false_and, Bool.false_eq_true, if_false, if_true]

end Lead

/-! ## Lines -/

namespace Blocks

/-- A line that begins here, indented by no more than told, leads to tokens. -/
def AtLine (b : Blocks) (n : Nat) (text : List Char) (tokens : List Token) : Prop :=
  ∃ m rest, text = spaces m ++ rest ∧ m ≤ n ∧ Halts rest ∧
    ∀ i l, Yields (b.scanner ⟨rest, i, l, m⟩ true none) tokens

/-- A line that goes on here, behind a column, leads to tokens. -/
def InLine (b : Blocks) (n : Nat) (keyAllowed : Bool) (text : List Char) (tokens : List Token) :
    Prop :=
  ∀ i l k, n < k → Yields (b.scanner ⟨text, i, l, k⟩ keyAllowed none) tokens

theorem close_eq_self {column : Option Nat} (shallow : deeper b.indent column = false) :
    b.close column = b := by
  obtain ⟨indent, outer, ts⟩ := b
  cases outer with
  | nil => rfl
  | cons o outer =>
      have shallow : deeper indent column = false := shallow
      simp [close, closeFrom, shallow]

theorem close_deeper {m : Nat} {o column : Option Nat} {outer : List (Option Nat)}
    {ts : List Token} (deep : deeper (some m) column = true) :
    close ⟨some m, o :: outer, ts⟩ column = close ⟨o, outer, .blockEnd :: ts⟩ column := by
  simp [close, closeFrom, deep]

theorem AtLine.close {m : Nat} {o : Option Nat} {outer : List (Option Nat)} {ts : List Token}
    (later : AtLine ⟨o, outer, .blockEnd :: ts⟩ n text tokens) (deep : n < m) :
    AtLine ⟨some m, o :: outer, ts⟩ n text tokens := by
  obtain ⟨k, rest, same, shallow, halts, later⟩ := later
  refine ⟨k, rest, same, shallow, halts, fun i l fuel enough => ?_⟩
  obtain ⟨fuel, rfl⟩ : ∃ d, fuel = d + 1 := ⟨fuel - 1, by omega⟩
  have read := later i l (fuel + 1) enough
  have arrives (b : Blocks) : arrive (b.scanner ⟨rest, i, l, k⟩ true none) =
      some (b.scanner ⟨rest, i, l, k⟩ true none) := arrive_here halts
  cases rest with
  | nil =>
      rw [run_end (arrives _)] at read ⊢
      rw [close_deeper rfl, read]
  | cons c rest =>
      have deep : deeper (some m) (some k) = true := by
        simp [deeper]
        omega
      rw [run_block (arrives _)] at read ⊢
      rw [close_deeper deep, read]

theorem atLine_end (b : Blocks) : b.AtLine 0 [] (b.close none).tokens.reverse := by
  have halts : Halts [] := by simp [Halts]
  refine ⟨0, [], rfl, Nat.le_refl 0, halts, fun i l fuel enough => ?_⟩
  obtain ⟨fuel, rfl⟩ : ∃ d, fuel = d + 1 := ⟨fuel - 1, by omega⟩
  exact run_end (arrive_here halts) fuel

theorem AtLine.yields (line : b.AtLine n text tokens) (i l : Nat)
    (passed : ∀ p ∈ key, p.required = false ∧ p.line < l) :
    Yields (b.scanner ⟨text, i, l, 0⟩ true key) tokens := by
  obtain ⟨m, rest, rfl, -, halts, later⟩ := line
  refine (later (i + m) l).of_arrive ?_ (by simp [Blocks.scanner])
  rw [arrive_stop halts, arrive_here halts, Nat.zero_add, freshKey_passed passed]
  rfl

end Blocks

/-! ## Keys and dashes -/

/-- A name that can be written as a key: one word, and not too long. -/
structure IsKey (name : String) : Prop where
  style : Style.ofText name = .plain
  solid : (name.toList.all fun c => !isGap c) = true
  lead : (name.toList.head?.all fun c => c != '-' && c != '.' && c != '\ufeff') = true
  short : name.toList.length ≤ 1024

theorem leadsBlock_of_clean (clean : (scan none {} (c :: text)).indicator = false)
    (rest : List Char) : leadsBlock c (text ++ rest) = false := by
  have first : leadsBlock c text = false :=
    ((scan_cons_eq_false Features.splits_indicator).mp clean).1
  rw [leadsBlock, Bool.or_eq_false_iff, Bool.and_eq_false_iff] at first ⊢
  exact ⟨first.1, first.2.imp_right fun solid => gapFollows_append solid rest⟩

def keyPlaceAt (b : Blocks) (i l n : Nat) : KeyPlace where
  required := b.indent == some n
  tokens := b.tokens.length
  index := i
  line := l
  column := n

theorem noteKey_scanner (c : Cursor) :
    (b.scanner c true none).noteKey =
      some (b.scanner c true (some (keyPlaceAt b c.index c.line c.column))) := rfl

theorem readPlainScalar_key {name : String} (isKey : IsKey name) (gap : gapFollows rest = true) :
    (b.scanner ⟨name.toList ++ ':' :: rest, i, l, n⟩ true none).readPlainScalar =
      some ((b.emit [.scalar name true]).scanner
        ⟨':' :: rest, i + name.toList.length, l, n + name.toList.length⟩ false
        (some (keyPlaceAt b i l n))) := by
  have bare := bare_of_style isKey.style
  have solid : ∀ c ∈ name.toList, isGap c = false := by
    simpa using List.all_eq_true.mp isKey.solid
  have lead : ∀ c ∈ name.toList.head?, c ≠ '-' ∧ c ≠ '.' := by
    intro c first
    have lead := isKey.lead
    rw [Option.mem_def.mp first] at lead
    simp at lead
    exact ⟨lead.1.1, lead.1.2⟩
  rw [readPlainScalar, noteKey_scanner]
  simp only [bind, Option.bind_some, Blocks.scanner, inFlow, List.isEmpty_nil, Bool.not_true]
  rw [readPlain_word bare solid lead gap]
  simp [keyPlaceAt, Blocks.emit, emit, pure]

theorem insert_later {s : Scanner} {before : List Token} (later : List Token)
    (read : s.tokens = later ++ before) (t : Token) :
    s.insert t before.length = { s with tokens := later ++ t :: before } := by
  have count : (later ++ before).length - before.length = later.length := by simp
  rw [Scanner.insert, read, count, List.take_left, List.drop_left]

theorem readValue_key {name : String} (c : Cursor) :
    ((b.emit [.scalar name true]).scanner c false (some (keyPlaceAt b i l n))).readValue =
      some (((b.openMap n).emit [.key, .scalar name true, .value]).scanner (c.skip 1) false
        none) := by
  have marked : ((b.emit [.scalar name true]).scanner c false (some (keyPlaceAt b i l n))).insert
      .key b.tokens.length =
        (b.emit [.key, .scalar name true]).scanner c false (some (keyPlaceAt b i l n)) :=
    insert_later [.scalar name true] rfl .key
  have opened : ((b.emit [.key, .scalar name true]).scanner c false
      (some (keyPlaceAt b i l n))).openBlock n b.tokens.length .blockMap =
        ((b.openMap n).emit [.key, .scalar name true]).scanner c false
          (some (keyPlaceAt b i l n)) := by
    have put := insert_later (s := (b.emit [.key, .scalar name true]).scanner c false
      (some (keyPlaceAt b i l n))) [.scalar name true, .key] rfl .blockMap
    rw [openBlock, put]
    cases opens : b.indent.all (· < n) with
    | true => simp [Blocks.scanner, inFlow, Blocks.openMap, Blocks.emit, opens]
    | false => simp [Blocks.scanner, inFlow, Blocks.openMap, Blocks.emit, opens]
  have place : ((b.emit [.scalar name true]).scanner c false
      (some (keyPlaceAt b i l n))).keyPlace = some (keyPlaceAt b i l n) := rfl
  have column : (keyPlaceAt b i l n).column = n := rfl
  have tokens : (keyPlaceAt b i l n).tokens = b.tokens.length := rfl
  simp only [readValue, place, column, tokens, marked, opened]
  rfl

theorem IsKey.begins {name : String} (isKey : IsKey name) (rest : List Char) :
    ∃ c cs, name.toList = c :: cs ∧ Halts (c :: (cs ++ rest)) ∧ leadsBlock c (cs ++ rest) = false ∧
      c ≠ '-' ∧ c ≠ '.' := by
  obtain ⟨c, cs, same⟩ := List.exists_cons_of_ne_nil (bare_of_style isKey.style).filled
  have clean := (bare_of_style isKey.style).clean
  have solid := isKey.solid
  have lead := isKey.lead
  rw [same] at clean solid lead
  have unmarked := leadsBlock_of_clean clean rest
  simp at lead solid
  refine ⟨c, cs, same, ?_, unmarked, lead.1.1, lead.1.2⟩
  intro d first
  cases Option.some.inj first
  refine ⟨isGap_eq_false.mpr solid.1, ?_, lead.2⟩
  rintro rfl
  simp [leadsBlock] at unmarked

theorem readToken_colon (gap : gapFollows rest = true) :
    (b.scanner ⟨':' :: rest, i, l, k⟩ a key).readToken ':' =
      (b.scanner ⟨':' :: rest, i, l, k⟩ a key).readValue := by
  have goes : (⟨':' :: rest, i, l, k⟩ : Cursor).atGap 1 = true := by rw [Cursor.atGap_one, gap]
  simp [readToken, Blocks.scanner, Cursor.atMark, Cursor.meets_cons, inFlow, goes]

theorem readToken_dash (gap : gapFollows rest = true) :
    (b.scanner ⟨'-' :: rest, i, l, k⟩ a key).readToken '-' =
      (b.scanner ⟨'-' :: rest, i, l, k⟩ a key).readBlockEntry := by
  have goes : (⟨'-' :: rest, i, l, k⟩ : Cursor).atGap 1 = true := by rw [Cursor.atGap_one, gap]
  have alone : (⟨'-' :: rest, i, l, k⟩ : Cursor).meets '-' 1 = false := by
    rw [Cursor.meets_one]
    cases rest with
    | nil => rfl
    | cons c rest =>
        have ends : isGap c = true := gap
        rw [beq_eq_false_iff_ne]
        rintro same
        cases Option.some.inj same
        exact Bool.noConfusion ends
  simp [readToken, Blocks.scanner, Cursor.atMark, Cursor.meets_cons, alone, goes]

namespace Blocks

theorem close_emit {column : Option Nat} (shallow : deeper b.indent column = false)
    (ts : List Token) : (b.emit ts).close column = b.emit ts :=
  close_eq_self shallow

/-- A line that begins with a key leads to the tokens of the key and those of what follows. -/
theorem atLine_key {name : String} (isKey : IsKey name) (shallow : deeper b.indent (some n) = false)
    (gap : gapFollows rest = true)
    (later : ((b.openMap n).emit [.key, .scalar name true, .value]).InLine n false rest tokens) :
    b.AtLine n (spaces n ++ (name.toList ++ ':' :: rest)) tokens := by
  obtain ⟨c, cs, same, halts, lead, dash, dot⟩ := isKey.begins (':' :: rest)
  have whole : name.toList ++ ':' :: rest = c :: (cs ++ ':' :: rest) := by rw [same]; rfl
  have filled : name.toList.length = cs.length + 1 := by rw [same]; rfl
  have short := isKey.short
  refine ⟨n, _, rfl, Nat.le_refl n, by rwa [whole], fun i l => ?_⟩
  have read := readPlainScalar_key (b := b) (i := i) (l := l) (n := n) isKey gap
  rw [whole] at read ⊢
  refine Yields.block (arrive_here halts)
    (by rw [close_eq_self shallow, readToken_plain lead (halts c rfl).1 (.inr ⟨dash, dot⟩), read])
    ?_ ?_
  · simp only [Blocks.scanner, List.length_append, List.length_cons]
    omega
  have colon : Halts (':' :: rest) := by simp [Halts, isSpace, isBreak]
  -- the colon is on the line of the key and near enough to make it one
  have fresh : freshKey ⟨':' :: rest, i + name.toList.length, l, n + name.toList.length⟩
      (some (keyPlaceAt b i l n)) = some (some (keyPlaceAt b i l n)) := by
    simp [freshKey, isStale, keyPlaceAt]
    omega
  have shallow : deeper b.indent (some (n + name.toList.length)) = false := by
    cases same : b.indent with
    | none => rfl
    | some m =>
        rw [same] at shallow
        simp [deeper] at shallow ⊢
        omega
  refine Yields.block (by rw [arrive_here colon, fresh]; rfl) ?_ ?_
    (later (i + name.toList.length + 1) l (n + name.toList.length + 1) (by omega))
  · rw [close_emit shallow, readToken_colon gap, readValue_key]
    rfl
  · simp [Blocks.scanner]

theorem atLine_dash (block : b.indent = some n) (gap : gapFollows rest = true)
    (later : (b.emit [.blockEntry]).InLine n true rest tokens) :
    b.AtLine n (spaces n ++ '-' :: rest) tokens := by
  have dash : Halts ('-' :: rest) := by simp [Halts, isSpace, isBreak]
  refine ⟨n, _, rfl, Nat.le_refl n, dash, fun i l => ?_⟩
  have shallow : deeper b.indent (some n) = false := by simp [block, deeper]
  refine Yields.block (arrive_here dash)
    (t := (b.emit [.blockEntry]).scanner ⟨rest, i + 1, l, n + 1⟩ true none) ?_ ?_
    (later _ _ _ (by omega))
  · rw [close_eq_self shallow, readToken_dash gap]
    simp [readBlockEntry, Blocks.scanner, openBlock, inFlow, block, dropKey, keyPlace, setKeyPlace,
      advance, Scanner.emit, Blocks.emit, Cursor.skip]
  · simp [Blocks.scanner]

theorem AtLine.next (line : b.AtLine n text tokens)
    (passed : ∀ p ∈ key, p.required = false ∧ p.line ≤ l) :
    Yields (b.scanner ⟨'\n' :: text, i, l, k⟩ a key) tokens :=
  have next : Yields (b.scanner ⟨text, i + 1, l + 1, 0⟩ true key) tokens :=
    line.yields (i + 1) (l + 1) fun p place =>
      ⟨(passed p place).1, Nat.lt_succ_of_le (passed p place).2⟩
  next.of_arrive arrive_break (by simp [Blocks.scanner])

end Blocks

/-! ## Values -/

def noted (b : Blocks) (a : Bool) (i l k : Nat) : Option KeyPlace :=
  if a then some (keyPlaceAt b i l k) else none

theorem noteKey_noted : (b.scanner ⟨text, i, l, k⟩ a none).noteKey =
    some (b.scanner ⟨text, i, l, k⟩ a (noted b a i l k)) := by
  cases a <;> rfl

theorem noted_free (block : b.indent = some n) (inside : n < k) :
    ∀ p ∈ noted b a i l k, p.required = false ∧ p.line ≤ l := by
  have other : n ≠ k := Nat.ne_of_lt inside
  cases a <;> simp [noted, keyPlaceAt, block, other]

theorem Bare.begins {w : List Char} (bare : Bare w) (rest : List Char) :
    ∃ c cs, w = c :: cs ∧ Halts (c :: (cs ++ rest)) ∧ leadsBlock c (cs ++ rest) = false := by
  obtain ⟨c, cs, rfl⟩ := List.exists_cons_of_ne_nil bare.filled
  have unmarked := leadsBlock_of_clean bare.clean rest
  have solid : isGap c = false := by
    refine isGap_eq_false.mpr ⟨?_, bare.unbroken c List.mem_cons_self⟩
    rw [Bool.eq_false_iff]
    exact fun space => bare.starts c rfl (eq_of_isSpace space (bare.printable c List.mem_cons_self))
  refine ⟨c, cs, rfl, ?_, unmarked⟩
  intro d first
  cases Option.some.inj first
  refine ⟨solid, ?_, ?_⟩
  · rintro rfl
    simp [leadsBlock] at unmarked
  · rintro rfl
    have printable := bare.printable '\ufeff' List.mem_cons_self
    simp [isPrintable] at printable

namespace Blocks

theorem inLine_token {body : List Char} (block : b.indent = some n) (halts : Halts (c :: body))
    (value : ∀ i l k, n < k → ∃ t : Scanner,
      (b.scanner ⟨c :: body, i, l, k⟩ a none).readToken c = some t ∧
        t.cursor.rest.length ≤ body.length ∧ Yields t tokens) :
    b.InLine n a (' ' :: c :: body) tokens := by
  intro i l k inside
  obtain ⟨t, read, shorter, later⟩ := value (i + 1) l (k + 1) (by omega)
  have shallow : deeper b.indent (some (k + 1)) = false := by
    simp [block, deeper]
    omega
  refine Yields.block (arrive_stop halts 1) (by rw [close_eq_self shallow, read]) ?_ later
  simp [Blocks.scanner]
  omega

theorem inLine_word {w : List Char} (block : b.indent = some n) (bare : Bare w)
    (later : (b.emit [.scalar (String.ofList w) true]).AtLine n text tokens) :
    b.InLine n a (' ' :: (w ++ '\n' :: text)) tokens := by
  obtain ⟨c, cs, rfl, halts, lead⟩ := bare.begins ('\n' :: text)
  refine inLine_token block halts fun i l k inside => ?_
  obtain ⟨m, rest, rfl, shallow, stop, later⟩ := later
  have read := readPlain_bare (i := i) (l := l) (k := k) bare
    (show n + 1 ≤ k from inside) (show m < n + 1 by omega) stop.not_gap
  rw [List.cons_append] at read
  -- the line end is read with the word, and the indentation of the next line as well
  refine ⟨(b.emit [.scalar (String.ofList (c :: cs)) true]).scanner
    ⟨rest, i + (c :: cs).length + 1 + m, l + 1, m⟩ true (noted b a i l k), ?_, ?_, ?_⟩
  · rw [List.append_eq, readToken_plain lead (halts c rfl).1 (.inl (by omega)), readPlainScalar,
      noteKey_noted]
    simp only [bind, Option.bind_some, Blocks.scanner, inFlow, List.isEmpty_nil, Bool.not_true,
      block, read]
    simp [Blocks.emit, Scanner.emit, pure, block]
  · simp [Blocks.scanner]
    omega
  · refine (later (i + (c :: cs).length + 1 + m) (l + 1)).of_passed stop fun p place => ?_
    have free := noted_free block inside p place
    exact ⟨free.1, Nat.lt_succ_of_le free.2⟩

theorem inLine_quotes {single : Bool} {cs written : List Char} (block : b.indent = some n)
    (quotes : Quotes single cs written)
    (later : (b.emit [.scalar (String.ofList cs) false]).AtLine n text tokens) :
    b.InLine n a (' ' :: quoteOf single :: (written ++ quoteOf single :: '\n' :: text)) tokens := by
  have halts (rest : List Char) : Halts (quoteOf single :: rest) := by
    cases single <;> simp [Halts, quoteOf, isSpace, isBreak]
  refine inLine_token block (halts _) fun i l k inside => ?_
  have apart : ('\n' :: text).head? ≠ some (quoteOf single) := by cases single <;> simp [quoteOf]
  obtain ⟨i', l', k', read, after, -⟩ :=
    readQuoted_whole (i := i + 1) (l := l) (k := k + 1) quotes apart (by omega)
  refine ⟨(b.emit [.scalar (String.ofList cs) false]).scanner ⟨'\n' :: text, i', l', k'⟩ false
    (noted b a i l k), ?_, ?_, ?_⟩
  · have quoted (rest : List Char) :
        (b.scanner ⟨quoteOf single :: rest, i, l, k⟩ a none).readToken (quoteOf single) =
          (b.scanner ⟨quoteOf single :: rest, i, l, k⟩ a none).readQuotedScalar single := by
      cases single <;>
        simp [readToken, quoteOf, Blocks.scanner, Cursor.atMark, Cursor.meets_cons]
    rw [quoted, readQuotedScalar, noteKey_noted]
    simp only [bind, Option.bind_some, Blocks.scanner, Cursor.skip, List.drop_one, List.tail_cons,
      read]
    simp [Blocks.emit, Scanner.emit, pure]
  · simp only [Blocks.scanner, List.length_append, List.length_cons]
    omega
  · exact later.next fun p place =>
      have free := noted_free block inside p place
      ⟨free.1, Nat.le_trans free.2 after⟩

theorem inLine_lines {cs : List Char} (block : b.indent = some 0) (filled : cs ≠ [])
    (printable : ∀ c ∈ cs, isPrintable c = true)
    (later : (b.emit [.scalar (String.ofList cs) false]).AtLine 0 text tokens) :
    b.InLine 0 a (' ' :: '|' :: (blockHints cs ++
      '\n' :: (blockChars 2 true cs ++ (lastLineEnd cs ++ text)))) tokens := by
  have halts (rest : List Char) : Halts ('|' :: rest) := by simp [Halts, isSpace, isBreak]
  obtain ⟨m, rest, rfl, shallow, stop, later⟩ := later
  obtain rfl : m = 0 := by omega
  have flush : spaces 0 ++ rest = rest := rfl
  rw [flush]
  refine inLine_token block (halts _) fun i l k inside => ?_
  obtain ⟨i', l', read, -⟩ := readBlock_text (i := i + 1) (l := l) (k := k + 1) filled printable
    stop.not_gap 0
  refine ⟨(b.emit [.scalar (String.ofList cs) false]).scanner ⟨rest, i', l', 0⟩ true none,
    ?_, ?_, later i' l'⟩
  · have marked (rest : List Char) : (b.scanner ⟨'|' :: rest, i, l, k⟩ a none).readToken '|' =
        (b.scanner ⟨'|' :: rest, i, l, k⟩ a none).readBlockScalar false := by
      simp [readToken, Blocks.scanner, Cursor.atMark, Cursor.meets_cons, inFlow]
    rw [marked, readBlockScalar]
    simp only [bind, Option.bind_some, dropKey, keyPlace, setKeyPlace, Option.any_none,
      Bool.false_eq_true, if_false, Blocks.scanner, Cursor.skip, List.drop_one, List.tail_cons,
      block]
    rw [read]
    simp [Blocks.emit, Scanner.emit, pure, block]
  · simp only [Blocks.scanner, List.length_append, List.length_cons]
    omega

/-- A text on a line in the outermost block, in whatever style. -/
theorem inLine_text (s : String) (block : b.indent = some 0)
    (later : (b.emit [.scalar s (Style.ofText s == .plain)]).AtLine 0 text tokens) :
    b.InLine 0 a (' ' :: (scalarText 2 s ++ text)) tokens := by
  cases style : Style.ofText s with
  | plain =>
      simp only [scalarText, style] at later ⊢
      have line : b.InLine 0 a (' ' :: (s.toList ++ '\n' :: text)) tokens :=
        inLine_word block (bare_of_style style) (by rwa [String.ofList_toList])
      simpa using line
  | single =>
      have quotes := quotes_single (show 2 ≠ 0 by decide) (quotable_of_style style)
      simp only [scalarText, style] at later ⊢
      have line : b.InLine 0 a (' ' :: quoteOf true :: (singleChars 2 false s.toList ++
          quoteOf true :: '\n' :: text)) tokens :=
        inLine_quotes block quotes (by rwa [String.ofList_toList])
      simpa [quoteOf] using line
  | double =>
      simp only [scalarText, style] at later ⊢
      have line : b.InLine 0 a (' ' :: quoteOf false :: (s.toList.flatMap doubleChar ++
          quoteOf false :: '\n' :: text)) tokens :=
        inLine_quotes block (quotes_double s.toList) (by rwa [String.ofList_toList])
      simpa [quoteOf] using line
  | block =>
      obtain ⟨filled, printable⟩ := printable_of_block style
      simp only [scalarText, style] at later ⊢
      have line : b.InLine 0 a (' ' :: '|' :: (blockHints s.toList ++ '\n' ::
          (blockChars 2 true s.toList ++ (lastLineEnd s.toList ++ text)))) tokens :=
        inLine_lines block filled printable (by rwa [String.ofList_toList])
      simpa [lastLineEnd] using line

/-- A scanner behind the bracket that opens a list. -/
def listScanner (b : Blocks) (c : Cursor) : Scanner where
  cursor := c
  indent := b.indent
  outer := b.outer
  keyAllowed := true
  flowKeys := [none]
  tokens := .flowListStart :: b.tokens

theorem readToken_open (rest : List Char) :
    (b.scanner ⟨'[' :: rest, i, l, k⟩ false none).readToken '[' =
      some (b.listScanner ⟨rest, i + 1, l, k + 1⟩) := by
  simp [readToken, Blocks.scanner, Cursor.atMark, Cursor.meets_cons, readFlowStart, noteKey,
    advance, Scanner.emit, Cursor.skip, pure, listScanner]

theorem arrive_list (rest : List Char) :
    arrive (b.listScanner ⟨']' :: rest, i, l, k⟩) =
      some (b.listScanner ⟨']' :: rest, i, l, k⟩) := by
  simp [arrive, skipGap, listScanner, Cursor.meets_cons, Cursor.skipWhile, Cursor.skip,
    Cursor.peek_cons, inFlow, dropStale, freshKey, isBreak]

theorem readToken_close (rest : List Char) (column : Option Nat) :
    ((b.listScanner ⟨']' :: rest, i, l, k⟩).close column).readToken ']' =
      some ((b.emit [.flowListStart, .flowListEnd]).scanner ⟨rest, i + 1, l, k + 1⟩ false
        none) := by
  simp [readToken, Blocks.scanner, Cursor.atMark, Cursor.meets_cons, readFlowEnd, dropKey, keyPlace,
    setKeyPlace, advance, Scanner.emit, Cursor.skip, pure, listScanner, Scanner.close, inFlow,
    Blocks.emit]

theorem inLine_empty (block : b.indent = some n)
    (later : (b.emit [.flowListStart, .flowListEnd]).AtLine n text tokens) :
    b.InLine n false (' ' :: '[' :: ']' :: '\n' :: text) tokens := by
  have halts (rest : List Char) : Halts ('[' :: rest) := by simp [Halts, isSpace, isBreak]
  refine inLine_token block (halts _) fun i l k inside => ⟨_, readToken_open _, Nat.le_refl _, ?_⟩
  exact Yields.token (arrive_list _) rfl (readToken_close _ _) (Nat.lt_succ_self _)
    (later.next (by simp))

end Blocks

end LineCompletion.Yaml

import LineCompletion.Yaml.Read
import LineCompletion.Proofs.Text.Utf8
import LineCompletion.Proofs.Yaml.Characters
import LineCompletion.Proofs.Yaml.Tokens

/-! # Documents that were written

A map is written line by line, and every line is read as the tokens of its key and its value. Read
on as a tree, the tokens of the lines are the map.
-/

namespace LineCompletion.Yaml

/-! ## The tree of tokens -/

/-- A scalar that was read, in plain style or another. -/
def scalarNode (plain : Bool) (s : String) : Node :=
  .scalar (scalar .unset plain s)

/-- Tokens after the value of a key: another key follows, or the map ends. -/
def EndsValue (rest : List Token) : Prop :=
  ∃ t us, rest = t :: us ∧ endsBlockValue t = true

/-- Tokens are read as a value of a map. -/
structure Parses (ts : List Token) (node : Node) : Prop where
  begins : ∃ t us, ts = t :: us ∧ endsBlockValue t = false
  reads : ∀ rest fuel, EndsValue rest → 2 * ts.length < fuel →
    readNode true true fuel { tokens := ts ++ rest } = some (node, { tokens := rest })

/-- Tokens are read as the pairs of a map. -/
structure ParsesMembers (ts : List Token) (members : Members) : Prop where
  ends : ∀ rest, EndsValue (ts ++ .blockEnd :: rest)
  reads : ∀ rest fuel, 2 * ts.length + 1 < fuel →
    readBlockMembers fuel { tokens := ts ++ .blockEnd :: rest } = some (members, { tokens := rest })

variable {ts us : List Token} {node : Node} {nodes : Members}

theorem Parses.optional (parses : Parses ts node) {rest : List Token} (ends : EndsValue rest)
    (fuel : Nat) (enough : 2 * ts.length + 1 < fuel) :
    readOptional endsBlockValue true true fuel { tokens := ts ++ rest } =
      some (node, { tokens := rest }) := by
  obtain ⟨fuel, rfl⟩ : ∃ m, fuel = m + 1 := ⟨fuel - 1, by omega⟩
  obtain ⟨t, us, same, begins⟩ := parses.begins
  have begun : ({ tokens := ts ++ rest } : Reader).next endsBlockValue = false := by
    rw [same]
    exact begins
  rw [readOptional, begun]
  exact parses.reads rest fuel ends (by omega)

theorem parses_scalar (s : String) (plain : Bool) :
    Parses [.scalar s plain] (scalarNode plain s) where
  begins := ⟨_, _, rfl, rfl⟩
  reads := by
    intro rest fuel _ enough
    obtain ⟨fuel, rfl⟩ : ∃ m, fuel = m + 1 := ⟨fuel - 1, by omega⟩
    rfl

theorem parses_empty : Parses [.flowListStart, .flowListEnd] (.list .done) where
  begins := ⟨_, _, rfl, rfl⟩
  reads := by
    intro rest fuel _ enough
    obtain ⟨fuel, rfl⟩ : ∃ m, fuel = m + 2 := ⟨fuel - 2, by simp at enough; omega⟩
    rfl

def textToken (s : String) : Token :=
  .scalar s (Style.ofText s == .plain)

def textNode (s : String) : Node :=
  scalarNode (Style.ofText s == .plain) s

def itemTokens (ss : List String) : List Token :=
  ss.flatMap fun s => [.blockEntry, textToken s]

def textItems : List String → Items
  | [] => .done
  | s :: ss => .more (textNode s) (textItems ss)

theorem readPlainItems_texts {rest : List Token} (ends : EndsValue rest) (ss : List String)
    (fuel : Nat) (enough : 2 * ss.length + 1 < fuel) :
    readPlainItems fuel { tokens := itemTokens ss ++ rest } =
      some (textItems ss, { tokens := rest }) := by
  induction ss generalizing fuel with
  | nil =>
      obtain ⟨fuel, rfl⟩ : ∃ m, fuel = m + 1 := ⟨fuel - 1, by omega⟩
      obtain ⟨t, us, rfl, ends⟩ := ends
      have done : ({ tokens := t :: us } : Reader).meets .blockEntry = false := by
        cases t <;> first | rfl | exact Bool.noConfusion ends
      simp [readPlainItems, itemTokens, textItems, done]
  | cons s ss ih =>
      obtain ⟨fuel, rfl⟩ : ∃ m, fuel = m + 3 := ⟨fuel - 3, by simp at enough; omega⟩
      have item : readOptional (fun t => t == .blockEntry || endsBlockValue t) true false (fuel + 2)
          { tokens := textToken s :: (itemTokens ss ++ rest) } =
            some (textNode s, { tokens := itemTokens ss ++ rest }) := rfl
      have later := ih (fuel + 2) (by simp at enough; omega)
      have entry : ({ tokens := itemTokens (s :: ss) ++ rest } : Reader).meets .blockEntry = true :=
        rfl
      have popped : ({ tokens := itemTokens (s :: ss) ++ rest } : Reader).pop =
          { tokens := textToken s :: (itemTokens ss ++ rest) } := rfl
      rw [readPlainItems, if_pos entry, popped]
      simp only [item, later, bind, Option.bind_some, textItems]

theorem length_itemTokens (ss : List String) : (itemTokens ss).length = 2 * ss.length := by
  induction ss with
  | nil => rfl
  | cons s ss ih =>
      have step : (itemTokens (s :: ss)).length = (itemTokens ss).length + 2 := rfl
      rw [step, ih, List.length_cons]
      omega

theorem parses_texts (s : String) (ss : List String) :
    Parses (itemTokens (s :: ss)) (.list (textItems (s :: ss))) where
  begins := ⟨_, _, rfl, rfl⟩
  reads := by
    intro rest fuel ends enough
    obtain ⟨fuel, rfl⟩ : ∃ m, fuel = m + 1 := ⟨fuel - 1, by omega⟩
    rw [length_itemTokens, List.length_cons] at enough
    have items := readPlainItems_texts ends (s :: ss) fuel (by
      rw [List.length_cons]
      omega)
    have step : readNode true true (fuel + 1) { tokens := itemTokens (s :: ss) ++ rest } =
        (readPlainItems fuel { tokens := itemTokens (s :: ss) ++ rest }).bind
          fun read => some (.list read.1, read.2) := rfl
    rw [step, items, Option.bind_some]

theorem parsesMembers_nil : ParsesMembers [] .done where
  ends := fun rest => ⟨_, _, rfl, rfl⟩
  reads := by
    intro rest fuel enough
    obtain ⟨fuel, rfl⟩ : ∃ m, fuel = m + 1 := ⟨fuel - 1, by omega⟩
    rfl

theorem ParsesMembers.cons (later : ParsesMembers us nodes) (value : Parses ts node)
    (name : String) :
    ParsesMembers (.key :: .scalar name true :: .value :: (ts ++ us))
      (.more (scalarNode true name) node nodes) where
  ends := fun rest => ⟨_, _, rfl, rfl⟩
  reads := by
    intro rest fuel enough
    obtain ⟨fuel, rfl⟩ : ∃ m, fuel = m + 1 := ⟨fuel - 1, by omega⟩
    simp only [List.length_cons, List.length_append] at enough
    have whole : (.key :: .scalar name true :: .value :: (ts ++ us)) ++ .blockEnd :: rest =
        .key :: .scalar name true :: .value :: (ts ++ (us ++ .blockEnd :: rest)) := by simp
    have divided : EndsValue (.value :: (ts ++ (us ++ .blockEnd :: rest))) := ⟨_, _, rfl, rfl⟩
    have key := (parses_scalar name true).optional divided fuel (by
      rw [List.length_singleton]
      omega)
    have read := value.optional (later.ends rest) fuel (by omega)
    have others := later.reads rest fuel (by omega)
    have opens (tail : List Token) : ({ tokens := .key :: tail } : Reader).meets .blockEnd = false ∧
        ({ tokens := .key :: tail } : Reader).meets .key = true := ⟨rfl, rfl⟩
    have divides (tail : List Token) :
        ({ tokens := .value :: tail } : Reader).meets .value = true := rfl
    have pop (t : Token) (tail : List Token) :
        ({ tokens := t :: tail } : Reader).pop = { tokens := tail } := rfl
    simp only [List.cons_append, List.nil_append] at key
    rw [whole, readBlockMembers]
    simp only [opens, divides, pop, key, read, others, Bool.false_eq_true, if_false, if_true, bind,
      Option.bind_some]

theorem ParsesMembers.readNode (members : ParsesMembers ts nodes) (atKey : Bool)
    (rest : List Token) {fuel : Nat} (enough : 2 * ts.length + 2 < fuel) :
    readNode true atKey fuel { tokens := .blockMap :: (ts ++ .blockEnd :: rest) } =
      some (.map nodes, { tokens := rest }) := by
  obtain ⟨fuel, rfl⟩ : ∃ m, fuel = m + 1 := ⟨fuel - 1, by omega⟩
  have read := members.reads rest fuel (by omega)
  have step : Yaml.readNode true atKey (fuel + 1)
      { tokens := .blockMap :: (ts ++ .blockEnd :: rest) } =
        (readBlockMembers fuel { tokens := ts ++ .blockEnd :: rest }).bind
          fun read => some (.map read.1, read.2) := by
    cases atKey <;> rfl
  rw [step, read, Option.bind_some]

theorem ParsesMembers.map (members : ParsesMembers ts nodes) :
    Parses (.blockMap :: (ts ++ [.blockEnd])) (.map nodes) where
  begins := ⟨_, _, rfl, rfl⟩
  reads := by
    intro rest fuel _ enough
    simp only [List.length_cons, List.length_append] at enough
    have whole : (.blockMap :: (ts ++ [.blockEnd])) ++ rest =
        .blockMap :: (ts ++ .blockEnd :: rest) := by simp
    rw [whole, members.readNode true rest (by omega)]

/-! ## The tokens of written values -/

namespace Blocks

variable {b : Blocks} {n : Nat} {text : List Char} {tokens : List Token}

theorem AtLine.mono {m : Nat} (line : b.AtLine n text tokens) (le : n ≤ m) :
    b.AtLine m text tokens := by
  obtain ⟨k, rest, same, within, later⟩ := line
  exact ⟨k, rest, same, Nat.le_trans within le, later⟩

theorem openMap_eq_self (block : b.indent = some n) : b.openMap n = b := by
  simp [openMap, block]

theorem indent_openMap (shallow : Scanner.deeper b.indent (some n) = false) :
    (b.openMap n).indent = some n := by
  unfold openMap
  cases same : b.indent with
  | none => rfl
  | some m =>
      rw [same] at shallow
      have le : m ≤ n := by simpa [Scanner.deeper] using shallow
      split
      · rfl
      · rename_i opened
        have eq : m = n := by
          simp at opened
          omega
        rw [same, eq]

theorem openMap_deeper {m : Nat} (block : b.indent = some n) (less : n < m) :
    b.openMap m = ⟨some m, some n :: b.outer, .blockMap :: b.tokens⟩ := by
  simp [openMap, block, less]

end Blocks

theorem gapFollows_valueChars (n : Nat) (sameLine : Bool) (x : Json) (rest : List Char) :
    gapFollows (valueChars n sameLine x ++ rest) = true := by
  match x with
  | .null => rfl
  | .bool _ => rfl
  | .int _ => rfl
  | .text _ => rfl
  | .list [] => rfl
  | .list (_ :: _) => cases sameLine <;> rfl
  | .map [] => rfl
  | .map (_ :: _) => cases sameLine <;> rfl

/-- A value in a map of an indentation is written as tokens. -/
structure Scans (n : Nat) (x : Json) (ts : List Token) : Prop where
  allowed : Allowed (valueChars n false x)
  reads : ∀ (b : Blocks) (text : List Char) (tokens : List Token), b.indent = some n →
    (b.emit ts).AtLine n text tokens → b.InLine n false (valueChars n false x ++ text) tokens

/-- The members of a map at an indentation are written as tokens. -/
structure ScansMembers (n : Nat) (ms : List (String × Json)) (ts : List Token) : Prop where
  allowed : Allowed (membersChars n ms)
  reads : ∀ (b : Blocks) (text : List Char) (tokens : List Token),
    Scanner.deeper b.indent (some n) = false → (ms = [] → b.indent = some n) →
      ((b.openMap n).emit ts).AtLine n text tokens → b.AtLine n (membersChars n ms ++ text) tokens

variable {n : Nat} {x : Json} {ms : List (String × Json)} {name : String}

theorem scans_word {w : List Char} (bare : Bare w)
    (written : valueChars n false x = ' ' :: (w ++ ['\n'])) :
    Scans n x [.scalar (String.ofList w) true] where
  allowed := by
    have space : isAllowed ' ' = true ∧ isAllowed '\n' = true := ⟨rfl, rfl⟩
    rw [written]
    simp [allowed_of_printable bare.printable, space]
  reads := by
    intro b text tokens block later
    have line := Blocks.inLine_word (a := false) block bare later
    rw [written]
    simpa using line

theorem scans_text (s : String) : Scans 0 (.text s) [textToken s] where
  allowed := allowed_cons.mpr ⟨rfl, allowed_scalarText 2 s⟩
  reads := fun _ _ _ block later => Blocks.inLine_text s block later

theorem allowed_itemsChars (ss : List String) : Allowed (itemsChars 0 (ss.map .text)) := by
  induction ss with
  | nil => simp [itemsChars]
  | cons s ss ih =>
      have marks : isAllowed '-' = true ∧ isAllowed ' ' = true := ⟨rfl, rfl⟩
      simp [itemsChars, valueChars, spaces, marks, allowed_scalarText, ih]

theorem atLine_items {b : Blocks} {text : List Char} {tokens : List Token}
    (block : b.indent = some 0) (ss : List String)
    (later : (b.emit (itemTokens ss)).AtLine 0 text tokens) :
    b.AtLine 0 (itemsChars 0 (ss.map .text) ++ text) tokens := by
  induction ss generalizing b with
  | nil => exact later
  | cons s ss ih =>
      have others := ih (b := b.emit [.blockEntry, textToken s]) block
        (by simpa [itemTokens] using later)
      have value := Blocks.inLine_text (a := true) s (b := b.emit [.blockEntry]) block others
      have line := Blocks.atLine_dash block rfl value
      simpa [itemsChars, valueChars] using line

def textsTokens : List String → List Token
  | [] => [.flowListStart, .flowListEnd]
  | s :: ss => itemTokens (s :: ss)

theorem scans_texts (ss : List String) : Scans 0 (Json.texts ss) (textsTokens ss) := by
  cases ss with
  | nil =>
      have marks : Allowed [' ', '[', ']', '\n'] := by simp [isAllowed]
      exact ⟨marks, fun _ _ _ block later => Blocks.inLine_empty block later⟩
  | cons s ss =>
      refine ⟨allowed_cons.mpr ⟨rfl, allowed_itemsChars (s :: ss)⟩, ?_⟩
      intro b text tokens block later i l k inside
      exact (atLine_items block (s :: ss) later).next (by simp)

theorem scansMembers_nil : ScansMembers n [] [] where
  allowed := by simp [membersChars]
  reads := by
    intro b text tokens _ block later
    rwa [Blocks.openMap_eq_self (block rfl)] at later

theorem ScansMembers.cons (later : ScansMembers n ms us) (value : Scans n x ts)
    (isKey : IsKey name) :
    ScansMembers n ((name, x) :: ms) (.key :: .scalar name true :: .value :: (ts ++ us)) := by
  have key : (scalarText n name).dropLast = name.toList := by simp [scalarText, isKey.style]
  refine ⟨?_, ?_⟩
  · have colon : isAllowed ':' = true := rfl
    have allowed := allowed_of_printable (bare_of_style isKey.style).printable
    simp [membersChars, key, allowed_spaces, allowed, colon, value.allowed, later.allowed]
  · intro b text tokens shallow _ next
    have block := Blocks.indent_openMap shallow
    have opened : ((b.openMap n).emit (.key :: .scalar name true :: .value :: ts)).openMap n =
        (b.openMap n).emit (.key :: .scalar name true :: .value :: ts) :=
      Blocks.openMap_eq_self block
    have others := later.reads ((b.openMap n).emit (.key :: .scalar name true :: .value :: ts)) text
      tokens (by simp [Blocks.emit, block, Scanner.deeper]) (fun _ => block) (by
        rw [opened]
        simpa using next)
    have read := value.reads ((b.openMap n).emit [.key, .scalar name true, .value])
      (membersChars n ms ++ text) tokens block (by simpa using others)
    have line := Blocks.atLine_key isKey shallow (gapFollows_valueChars n false x _) read
    simpa [membersChars, key] using line

theorem ScansMembers.map {m : String × Json} (members : ScansMembers (n + 2) (m :: ms) ts) :
    Scans n (.map (m :: ms)) (.blockMap :: (ts ++ [.blockEnd])) where
  allowed := allowed_cons.mpr ⟨rfl, members.allowed⟩
  reads := by
    intro b text tokens block later i l k inside
    have less : n < n + 2 := by omega
    obtain ⟨indent, outer, before⟩ := b
    obtain rfl : indent = some n := block
    -- the map stands deeper than its key, so the line after it closes it
    have closed : Blocks.AtLine ⟨some n, outer, .blockEnd :: (ts.reverse ++ .blockMap :: before)⟩ n
        text tokens := by
      simpa [Blocks.emit] using later
    have inner : (Blocks.emit (Blocks.openMap ⟨some n, outer, before⟩ (n + 2)) ts).AtLine (n + 2)
        text tokens := by
      rw [Blocks.openMap_deeper rfl less]
      exact (closed.close less).mono (Nat.le_of_lt less)
    have shallow : Scanner.deeper (some n) (some (n + 2)) = false := by simp [Scanner.deeper]
    exact (members.reads ⟨some n, outer, before⟩ text tokens shallow (by simp) inner).next (by simp)

/-! ## Whole documents -/

/-- A value in a map of an indentation is read back as a node. -/
def ReadsBack (n : Nat) (x : Json) (node : Node) : Prop :=
  ∃ ts, Scans n x ts ∧ Parses ts node

def MembersReadBack (n : Nat) (ms : List (String × Json)) (nodes : Members) : Prop :=
  ∃ ts, ScansMembers n ms ts ∧ ParsesMembers ts nodes

theorem readsBack_word {w : List Char} (bare : Bare w)
    (written : valueChars n false x = ' ' :: (w ++ ['\n'])) :
    ReadsBack n x (scalarNode true (String.ofList w)) :=
  ⟨_, scans_word bare written, parses_scalar _ _⟩

theorem readsBack_text (s : String) : ReadsBack 0 (.text s) (textNode s) :=
  ⟨_, scans_text s, parses_scalar _ _⟩

theorem readsBack_texts (ss : List String) :
    ReadsBack 0 (Json.texts ss) (.list (textItems ss)) := by
  refine ⟨_, scans_texts ss, ?_⟩
  cases ss with
  | nil => exact parses_empty
  | cons s ss => exact parses_texts s ss

theorem membersReadBack_nil : MembersReadBack n [] .done :=
  ⟨_, scansMembers_nil, parsesMembers_nil⟩

theorem MembersReadBack.cons (later : MembersReadBack n ms nodes) (isKey : IsKey name)
    (value : ReadsBack n x node) :
    MembersReadBack n ((name, x) :: ms) (.more (scalarNode true name) node nodes) := by
  obtain ⟨us, scansLater, parsesLater⟩ := later
  obtain ⟨ts, scans, parses⟩ := value
  exact ⟨_, scansLater.cons scans isKey, parsesLater.cons parses name⟩

theorem MembersReadBack.map {m : String × Json}
    (members : MembersReadBack (n + 2) (m :: ms) nodes) :
    ReadsBack n (.map (m :: ms)) (.map nodes) := by
  obtain ⟨ts, scans, parses⟩ := members
  exact ⟨_, scans.map, parses.map⟩

/-- A text whose lines lead to tokens is read as them. -/
theorem ofText_eq {cs : List Char} {tokens : List Token} (allowed : Allowed cs)
    (line : Blocks.AtLine ⟨none, [], []⟩ n cs tokens) : Token.ofText cs = some tokens := by
  have all : cs.all isAllowed = true := List.all_eq_true.mpr allowed
  have read : Yields (Blocks.scanner ⟨none, [], []⟩ ⟨cs, 0, 0, 0⟩ true none) tokens :=
    line.yields 0 0 (by simp)
  rw [Token.ofText, if_pos all]
  exact read (cs.length + 2) (by simp [Blocks.scanner])

theorem readDocument_map (parses : ParsesMembers ts nodes) :
    readDocument (.blockMap :: (ts ++ [.blockEnd])) = some (.map nodes) := by
  have enough : 2 * ts.length + 2 < 8 * (.blockMap :: (ts ++ [.blockEnd])).length + 16 := by
    simp only [List.length_cons, List.length_append]
    omega
  have read := parses.readNode false [] enough
  simp only [readDocument, List.isEmpty_cons, Reader.next, List.head?_cons, Option.any_some,
    endsDocument, read]
  rfl

/-- A map whose members are read back is read back as a document. -/
theorem document_ofMembers {m : String × Json} (members : MembersReadBack 0 (m :: ms) nodes) :
    document (Text.Utf8.encode (ofMembers (m :: ms)).toList) = { root := .map nodes } := by
  obtain ⟨ts, scans, parses⟩ := members
  have written : (ofMembers (m :: ms)).toList = membersChars 0 (m :: ms) := by simp [ofMembers]
  have line := scans.reads ⟨none, [], []⟩ [] _ rfl (by simp) (Blocks.atLine_end _)
  have closed : ((Blocks.emit (Blocks.openMap ⟨none, [], []⟩ 0) ts).close none).tokens.reverse =
      .blockMap :: (ts ++ [.blockEnd]) := by
    simp [Blocks.openMap, Blocks.emit, Blocks.close, Scanner.closeFrom, Scanner.deeper]
  rw [List.append_nil, closed] at line
  rw [document, Text.Utf8.decode?_encode, written]
  simp only [bind, Option.bind_some, ofText_eq scans.allowed line, readDocument_map parses,
    Option.getD_some]

end LineCompletion.Yaml

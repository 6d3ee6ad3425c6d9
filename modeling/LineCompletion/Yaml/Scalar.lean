import LineCompletion.Document.Node
import LineCompletion.Yaml.Cursor

/-!
# YAML scalars

Reading the text of a scalar in each of its four styles, and the value that a plain text stands for.
-/

namespace LineCompletion.Yaml

/-- Blanks and line ends between the words of a scalar. -/
structure Gap where
  spaces : List Char := []
  first : Option (List Char) := none
  more : List Char := []
  deriving Repr, Inhabited

namespace Gap

/-- What a gap stands for: one line end is a space, and of several the first is dropped. -/
def text (g : Gap) : List Char :=
  match g.first with
  | none => g.spaces
  | some ['\n'] => if g.more.isEmpty then [' '] else g.more
  | some first => first ++ g.more

/-- Reads blanks and line ends. A tab must not stand where a line is indented by less than told. -/
def read (indent : Nat) : Nat → Gap → Cursor → Option (Gap × Cursor)
  | 0, g, c => some (g, c)
  | fuel + 1, g, c =>
    match c.peek with
    | none => some (g, c)
    | some x =>
      if isSpace x then
        if g.first.isSome then
          if x == '\t' && c.column < indent then none else read indent fuel g c.skip
        else read indent fuel { g with spaces := g.spaces ++ [x] } c.skip
      else if isBreak x then
        let (kept, next) := c.nextLine
        if g.first.isSome then read indent fuel { g with more := g.more ++ kept } next
        else read indent fuel { g with first := some kept } next
      else some (g, c)

end Gap

/-- The characters that are no part of a plain scalar inside a flow collection. -/
def isFlowIndicator (c : Char) : Bool :=
  c == ',' || c == '[' || c == ']' || c == '{' || c == '}'

def readPlainWord (flow : Bool) : Nat → List Char → Cursor → Option (List Char × Cursor)
  | 0, acc, c => some (acc, c)
  | fuel + 1, acc, c =>
    if c.atGap then some (acc, c)
    else if flow && c.meets ':' && (c.peek 1).any (fun x => isFlowIndicator x || x == '?') then none
    else if (c.meets ':' && c.atGap 1) || (flow && c.peek.any isFlowIndicator) then some (acc, c)
    else match c.peek with
      | some x => readPlainWord flow fuel (x :: acc) c.skip
      | none => some (acc, c)

structure PlainText where
  reversed : List Char
  lineEnded : Bool
  next : Cursor
  deriving Inhabited

/-- Reads a plain scalar whose lines are indented by at least so much. -/
def readPlain (flow : Bool) (indent : Nat) : Nat → List Char → Gap → Cursor → Option PlainText
  | 0, _, _, _ => none
  | fuel + 1, acc, g, c =>
    let stop := some { reversed := acc, lineEnded := g.first.isSome, next := c }
    if c.atDocumentMark || c.meets '#' then stop
    else do
      let (word, next) ← readPlainWord flow (c.rest.length + 1) [] c
      if word.isEmpty then stop
      else
        let acc := word ++ g.text.reverse ++ acc
        if !(next.atSpace || next.peek.any isBreak) then
          some { reversed := acc, lineEnded := false, next }
        else
          let (g, next) ← Gap.read indent (next.rest.length + 1) {} next
          if !flow && next.column < indent then
            some { reversed := acc, lineEnded := g.first.isSome, next }
          else readPlain flow indent fuel acc g next

def hexDigit (c : Char) : Option Nat :=
  if '0' ≤ c && c ≤ '9' then some (c.toNat - '0'.toNat)
  else if 'a' ≤ c && c ≤ 'f' then some (c.toNat - 'a'.toNat + 10)
  else if 'A' ≤ c && c ≤ 'F' then some (c.toNat - 'A'.toNat + 10)
  else none

def hexChar (digits : List Char) : Option Char := do
  let value ← digits.foldlM (fun n d => (hexDigit d).map (n * 16 + ·)) 0
  if (0xD800 ≤ value && value ≤ 0xDFFF) || 0x10FFFF < value then none else some (Char.ofNat value)

def escapeChar (c : Char) : Option Char :=
  match c with
  | '0' => some '\x00'
  | 'a' => some '\x07'
  | 'b' => some '\x08'
  | 't' | '\t' => some '\t'
  | 'n' => some '\n'
  | 'v' => some '\x0b'
  | 'f' => some '\x0c'
  | 'r' => some '\r'
  | 'e' => some '\x1b'
  | ' ' => some ' '
  | '"' => some '"'
  | '/' => some '/'
  | '\\' => some '\\'
  | 'N' => some '\u0085'
  | '_' => some '\u00a0'
  | 'L' => some '\u2028'
  | 'P' => some '\u2029'
  | _ => none

/-- How many hexadecimal digits follow an escape's letter. -/
def escapeLength (c : Char) : Nat :=
  if c == 'x' then 2 else if c == 'u' then 4 else if c == 'U' then 8 else 0

/-- Reads a word between quotes: its characters in reverse, and whether an escaped line end ends
it. -/
def readQuotedWord (single : Bool) : Nat → List Char → Cursor → Option (List Char × Bool × Cursor)
  | 0, _, _ => none
  | fuel + 1, acc, c =>
    match c.peek with
    | none => some (acc, false, c)
    | some x =>
      if isSpace x || isBreak x then some (acc, false, c)
      else if single then
        if x == '\'' then
          if c.meets '\'' 1 then readQuotedWord single fuel ('\'' :: acc) (c.skip 2)
          else some (acc, false, c)
        else readQuotedWord single fuel (x :: acc) c.skip
      else if x == '"' then some (acc, false, c)
      else if x == '\\' then
        match c.peek 1 with
        | none => none
        | some e =>
          if isBreak e then some (acc, true, c.skip.nextLine.2)
          else if escapeLength e == 0 then do
            let v ← escapeChar e
            readQuotedWord single fuel (v :: acc) (c.skip 2)
          else
            let digits := (c.rest.drop 2).take (escapeLength e)
            if digits.length == escapeLength e then do
              let v ← hexChar digits
              readQuotedWord single fuel (v :: acc) (c.skip (2 + escapeLength e))
            else none
      else readQuotedWord single fuel (x :: acc) c.skip

/-- Reads what follows an opening quote: the characters in reverse, and the place after the closing
quote. -/
def readQuoted (single : Bool) : Nat → List Char → Cursor → Option (List Char × Cursor)
  | 0, _, _ => none
  | fuel + 1, acc, c =>
    if c.atDocumentMark || c.peek.isNone then none
    else do
      let (word, joined, next) ← readQuotedWord single (c.rest.length + 1) [] c
      let acc := word ++ acc
      if !joined && next.meets (if single then '\'' else '"') then some (acc, next.skip)
      else
        let start : Gap := if joined then { first := some [] } else {}
        let (g, next) ← Gap.read 0 (next.rest.length + 1) start next
        readQuoted single fuel (g.text.reverse ++ acc) next

/-- What becomes of the line ends that end a block scalar. -/
inductive Chomp where
  | strip
  | clip
  | keep
  deriving Repr, DecidableEq, BEq, Inhabited

/-- Reads the sign that says what becomes of the last line ends. -/
def readChomp (c : Cursor) : Option (Chomp × Cursor) :=
  if c.meets '+' then some (.keep, c.skip) else if c.meets '-' then some (.strip, c.skip) else none

/-- Reads the digit that says by how much a block scalar is indented; zero says nothing. -/
def readIndent (c : Cursor) : Option (Option (Nat × Cursor)) :=
  match c.peek with
  | some x =>
    if x == '0' then none
    else if '1' ≤ x && x ≤ '9' then some (some (x.toNat - '0'.toNat, c.skip))
    else some none
  | none => some none

/-- Reads what stands between the indicator of a block scalar and its first line. -/
def readBlockHeader (c : Cursor) : Option (Chomp × Nat × Cursor) := do
  let (chomp, indent, c) ← match readChomp c with
    | some (chomp, c) =>
      match ← readIndent c with
      | some (n, c) => some (chomp, n, c)
      | none => some (chomp, 0, c)
    | none =>
      match ← readIndent c with
      | some (n, c) =>
        match readChomp c with
        | some (chomp, c) => some (chomp, n, c)
        | none => some (.clip, n, c)
      | none => some (.clip, 0, c)
  return (chomp, indent, ← c.finishLine)

/-- Reads empty lines of a block scalar: the line ends, the widest indentation, and the place where
the next line is read or ends the scalar. An indentation of zero is not known yet. -/
def readEmptyLines (indent : Nat) :
    Nat → List Char → Nat → Cursor → Option (List Char × Nat × Cursor)
  | 0, acc, widest, c => some (acc, widest, c)
  | fuel + 1, acc, widest, c =>
    let blanks := c.rest.takeWhile (· == ' ')
    let count := if indent == 0 then blanks.length else min blanks.length (indent - c.column)
    let c := c.skip count
    let widest := max widest c.column
    if (indent == 0 || c.column < indent) && c.meets '\t' then none
    else if c.peek.any isBreak then
      let (kept, next) := c.nextLine
      readEmptyLines indent fuel (acc ++ kept) widest next
    else some (acc, widest, c)

def readBlockLines (folded : Bool) (indent : Nat) :
    Nat → List Char → List Char → List Char → Bool → Cursor →
      Option (List Char × List Char × List Char × Cursor)
  | 0, _, _, _, _, _ => none
  | fuel + 1, acc, lineEnd, empty, indented, c =>
    if c.column != indent || c.peek.isNone then some (acc, lineEnd, empty, c)
    else do
      let blank := c.atSpace
      let joined :=
        if folded && lineEnd == ['\n'] && !indented && !blank then
          (if empty.isEmpty then [' '] else []) ++ empty
        else lineEnd ++ empty
      let text := c.rest.takeWhile fun x => !isBreak x
      let (lineEnd, next) := c.skipToBreak.nextLine
      let (empty, _, next) ← readEmptyLines indent (next.rest.length + 1) [] 0 next
      readBlockLines folded indent fuel (acc ++ joined ++ text) lineEnd empty blank next

/-- Reads a block scalar after its indicator, inside a block with the given indentation. -/
def readBlock (folded : Bool) (parent : Option Nat) (c : Cursor) : Option (List Char × Cursor) := do
  let (chomp, given, c) ← readBlockHeader c
  let fuel := c.rest.length + 2
  let known := if given == 0 then 0 else parent.getD 0 + given
  let (empty, widest, c) ← readEmptyLines known fuel [] 0 c
  let least := max 1 (match parent with
    | some n => n + 1
    | none => 0)
  let indent := if known == 0 then max widest least else known
  let (text, lineEnd, empty, c) ← readBlockLines folded indent fuel [] [] empty false c
  let tail := match chomp with
    | .strip => []
    | .clip => lineEnd
    | .keep => lineEnd ++ empty
  return (text ++ tail, c)

/-! ## The value of a plain text -/

def isNull (s : String) : Bool :=
  s == "null" || s == "Null" || s == "NULL" || s == "~"

def truth? (s : String) : Option Bool :=
  if s == "true" || s == "True" || s == "TRUE" then some true
  else if s == "false" || s == "False" || s == "FALSE" then some false
  else none

def digits? (base : Nat) (cs : List Char) : Option Nat :=
  if cs.isEmpty then none
  else cs.foldlM (fun n c => do
    let d ← hexDigit c
    if d < base then some (n * base + d) else none) 0

def splitSign : List Char → Option Bool × List Char
  | '-' :: rest => (some true, rest)
  | '+' :: rest => (some false, rest)
  | cs => (none, cs)

/-- Whether digits begin with a zero that makes them no number. -/
def zeroPadded : List Char → Bool
  | '0' :: c :: rest => (c :: rest).all Char.isDigit
  | _ => false

/-- The integer that a text stands for, in base ten or after a mark in base 16, 8 or 2. -/
def integer? (cs : List Char) : Option Int :=
  let (sign, rest) := splitSign cs
  let value := match rest with
    | '0' :: 'x' :: digits => digits? 16 digits
    | '0' :: 'o' :: digits => digits? 8 digits
    | '0' :: 'b' :: digits => digits? 2 digits
    | digits => if zeroPadded digits then none else digits? 10 digits
  value.map fun n => if sign == some true then -(n : Int) else n

/-- The digits and the exponent of a decimal number without a sign. -/
def decimal? (cs : List Char) : Option (Nat × Int) := do
  let whole := cs.takeWhile Char.isDigit
  let rest := cs.dropWhile Char.isDigit
  let (fraction, rest) := match rest with
    | '.' :: after => (after.takeWhile Char.isDigit, after.dropWhile Char.isDigit)
    | rest => ([], rest)
  let digits ← digits? 10 (whole ++ fraction)
  let shift : Int := -(fraction.length : Int)
  match rest with
  | [] => some (digits, shift)
  | e :: after =>
    if e == 'e' || e == 'E' then do
      let (sign, after) := splitSign after
      let n ← digits? 10 after
      some (digits, if sign == some true then shift - n else shift + n)
    else none

/-- The double nearest to a decimal; nothing when it is too large. -/
def nearest? (digits : Nat) (exponent : Int) : Option Double :=
  if digits == 0 then some {}
  else
    let size : Int := (Nat.toDigits 10 digits).length + exponent
    if 400 < size then none
    else if size < -400 then some {}
    else
      let p := Double.power 10 exponent
      Double.ofRatio (digits * p.1) p.2

/-- The number that a text stands for if it is no integer; one that is not finite is known to be a
number and nothing more. -/
def real? (cs : List Char) : Option (Option Double) :=
  let (sign, rest) := splitSign cs
  if [".inf", ".Inf", ".INF"].any fun s => s.toList == rest then some none
  else if [".nan", ".NaN", ".NAN"].any fun s => s.toList == cs then some none
  else if zeroPadded rest then none
  else do
    let (digits, exponent) ← decimal? rest
    let d ← nearest? digits exponent
    some (some { d with negative := sign == some true })

/-- The value of a plain text; an integer far beyond 64 bits has none. -/
def plainData (s : String) : Option Data :=
  if s.isEmpty || isNull s then some .null
  else match truth? s with
    | some b => some (.bool b)
    | none =>
      match integer? s.toList with
      | some n =>
        if -(Nat.pow 2 63 : Int) ≤ n && n < Nat.pow 2 64 then some (.int n)
        else if -(Nat.pow 2 127 : Int) ≤ n && n < Nat.pow 2 128 then none
        else some ((real? s.toList).elim (.text s) .real)
      | none =>
        match real? s.toList with
        | some d => some (.real d)
        | none => some (.text s)

/-- What the tag of a scalar says about its value. -/
inductive Tag where
  | unset
  | text
  | core (name : String)
  | own
  deriving Repr, DecidableEq, BEq, Inhabited

def scalar (tag : Tag) (plain : Bool) (s : String) : Scalar :=
  let data : Option Data := match tag with
    | .own => none
    | .text => some (.text s)
    | .core "bool" => (truth? s).map .bool
    | .core "int" => (integer? s.toList).map .int
    | .core "float" =>
      ((real? s.toList).orElse fun _ => (integer? s.toList).map fun _ => none).map .real
    | .core "null" => if isNull s then some .null else none
    | .core _ => some (.text s)
    | .unset => if plain then plainData s else some (.text s)
  { data, text := some s, absent := plain && s.isEmpty }

end LineCompletion.Yaml

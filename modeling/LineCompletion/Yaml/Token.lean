import LineCompletion.Yaml.Scalar

/-!
# YAML tokens

A YAML text as a list of tokens. Indentation opens and closes blocks, and a text on one line turns
out to be a key only when the colon after it is met, so the tokens that say so are put in where the
text began.
-/

namespace LineCompletion.Yaml

/-- A token of a YAML text. -/
inductive Token where
  | version (major minor : Nat)
  | handle (name lead : String)
  | documentStart
  | documentEnd
  | blockList
  | blockMap
  | blockEnd
  | flowListStart
  | flowListEnd
  | flowMapStart
  | flowMapEnd
  | blockEntry
  | flowEntry
  | key
  | value
  | alias (name : String)
  | anchor (name : String)
  | tag (handle suffix : String)
  | scalar (text : String) (plain : Bool)
  deriving Repr, DecidableEq, BEq, Inhabited

structure KeyPlace where
  required : Bool
  tokens : Nat
  index : Nat
  line : Nat
  column : Nat
  deriving Repr, Inhabited

/-- How far a text has been read. -/
structure Scanner where
  cursor : Cursor
  indent : Option Nat := none
  outer : List (Option Nat) := []
  keyAllowed : Bool := true
  blockKey : Option KeyPlace := none
  flowKeys : List (Option KeyPlace) := []
  tokens : List Token := []
  deriving Inhabited

namespace Scanner

def inFlow (s : Scanner) : Bool :=
  !s.flowKeys.isEmpty

def emit (t : Token) (s : Scanner) : Scanner :=
  { s with tokens := t :: s.tokens }

/-- Puts in a token after the given number of tokens. -/
def insert (t : Token) (count : Nat) (s : Scanner) : Scanner :=
  let later := s.tokens.length - count
  { s with tokens := s.tokens.take later ++ t :: s.tokens.drop later }

/-- Whether the innermost block is indented by more than told. -/
def deeper (indent column : Option Nat) : Bool :=
  match indent, column with
  | none, _ => false
  | some _, none => true
  | some i, some c => c < i

/-- Closes blocks, innermost first, that are indented by more than told. -/
def closeFrom (column : Option Nat) :
    Option Nat → List (Option Nat) → List Token → Option Nat × List (Option Nat) × List Token
  | indent, [], tokens => (indent, [], tokens)
  | indent, o :: outer, tokens =>
    if deeper indent column then closeFrom column o outer (.blockEnd :: tokens)
    else (indent, o :: outer, tokens)

/-- Closes the blocks that are indented by more than told, outside of flow collections. -/
def close (column : Option Nat) (s : Scanner) : Scanner :=
  if s.inFlow then s
  else
    let r := closeFrom column s.indent s.outer s.tokens
    { s with indent := r.1, outer := r.2.1, tokens := r.2.2 }

/-- Opens a block where the column is beyond the innermost block's, at a number of tokens. -/
def openBlock (column count : Nat) (t : Token) (s : Scanner) : Scanner :=
  if s.inFlow then s
  else if s.indent.all (· < column) then
    { s.insert t count with indent := some column, outer := s.indent :: s.outer }
  else s

def keyPlace (s : Scanner) : Option KeyPlace :=
  match s.flowKeys with
  | [] => s.blockKey
  | k :: _ => k

def setKeyPlace (k : Option KeyPlace) (s : Scanner) : Scanner :=
  match s.flowKeys with
  | [] => { s with blockKey := k }
  | _ :: rest => { s with flowKeys := k :: rest }

/-- Gives up the place where a key may have begun; it must not be required. -/
def dropKey (s : Scanner) : Option Scanner :=
  if s.keyPlace.any (·.required) then none else some (s.setKeyPlace none)

def noteKey (s : Scanner) : Option Scanner :=
  if !s.keyAllowed then some s
  else do
    let dropped ← s.dropKey
    let c := s.cursor
    return dropped.setKeyPlace (some
      { required := !s.inFlow && s.indent == some c.column
        tokens := s.tokens.length
        index := c.index
        line := c.line
        column := c.column })

/-- Whether a key that began at a place must have ended: it is on one line and not too long. -/
def isStale (c : Cursor) (k : KeyPlace) : Bool :=
  k.line < c.line || k.index + 1024 < c.index

/-- A place where a key may have begun, unless the key must have ended. -/
def freshKey (c : Cursor) (k : Option KeyPlace) : Option (Option KeyPlace) :=
  match k with
  | none => some none
  | some k => if isStale c k then (if k.required then none else some none) else some (some k)

/-- Gives up the places where a key must have ended. -/
def dropStale (s : Scanner) : Option Scanner := do
  let blockKey ← freshKey s.cursor s.blockKey
  let flowKeys ← s.flowKeys.mapM (freshKey s.cursor)
  return { s with blockKey, flowKeys }

/-- Passes over blanks, comments and line ends before a token. -/
def skipGap : Nat → Scanner → Scanner
  | 0, s => s
  | fuel + 1, s =>
    let c := s.cursor
    let c := if c.index == 0 && c.meets '\ufeff' then c.skip else c
    let c := c.skipWhile fun x => x == ' ' || (x == '\t' && (s.inFlow || !s.keyAllowed))
    let c := if c.meets '#' then c.skipToBreak else c
    if c.peek.any isBreak then
      skipGap fuel { s with cursor := c.nextLine.2, keyAllowed := s.keyAllowed || !s.inFlow }
    else { s with cursor := c }

/-- Adds tokens for characters that are passed over. -/
def advance (t : Token) (count : Nat) (keyAllowed : Bool) (s : Scanner) : Scanner :=
  { s.emit t with cursor := s.cursor.skip count, keyAllowed }

/-- Whether a character may stand in the name of an anchor or a directive. -/
def isNameChar (c : Char) : Bool :=
  c.isAlphanum || c == '_' || c == '-'

def isTagChar (verbatim : Bool) (c : Char) : Bool :=
  isNameChar c || ";/?:@&=+$.%!~*'()".toList.contains c || (verbatim && ",[]".toList.contains c)

/-- The characters of a tag with its escaped octets put in. -/
def unescapeTag : List Char → Option (List Char)
  | '%' :: a :: b :: rest => do
    let v ← hexChar [a, b]
    (unescapeTag rest).map (v :: ·)
  | '%' :: _ => none
  | c :: rest => (unescapeTag rest).map (c :: ·)
  | [] => some []

def readAnchor (isAlias : Bool) (s : Scanner) : Option Scanner := do
  let s ← s.noteKey
  let c := s.cursor.skip
  let name := c.rest.takeWhile isNameChar
  let next := c.skip name.length
  let ends := next.atGap || next.peek.any fun x => "?:,]\x7d%@\x60".toList.contains x
  if name.isEmpty || !ends then none
  else
    let name := String.ofList name
    return { s.emit (if isAlias then .alias name else .anchor name) with
      cursor := next, keyAllowed := false }

def splitTag (cs : List Char) : Option (String × List Char) :=
  let name := cs.takeWhile isNameChar
  match cs.drop name.length with
  | '!' :: rest => some ("!" ++ String.ofList name ++ "!", rest)
  | _ => some ("!", cs)

def readTag (s : Scanner) : Option Scanner := do
  let s ← s.noteKey
  let c := s.cursor.skip
  let (handle, suffix, next) ←
    if c.meets '<' then
      let c := c.skip
      let body := c.rest.takeWhile (isTagChar true)
      let next := c.skip body.length
      if body.isEmpty || !next.meets '>' then none
      else some ("", ← unescapeTag body, next.skip)
    else
      let body := c.rest.takeWhile (isTagChar false)
      let (handle, suffix) ← splitTag body
      if suffix.isEmpty && handle != "!" then none
      else some (handle, ← unescapeTag suffix, c.skip body.length)
  if next.atGap || (s.inFlow && next.meets ',') then
    return { s.emit (.tag handle (String.ofList suffix)) with cursor := next, keyAllowed := false }
  else none

def readDirective (s : Scanner) : Option Scanner := do
  let s ← (s.close none).dropKey
  let c := s.cursor.skip
  let name := c.rest.takeWhile isNameChar
  let c := c.skip name.length
  if name.isEmpty || !c.atGap then none
  else
    let c := c.skipWhile isSpace
    let (token, c) ←
      if String.ofList name == "YAML" then
        let major := c.rest.takeWhile Char.isDigit
        let c := c.skip major.length
        if !c.meets '.' then none
        else
          let c := c.skip
          let minor := c.rest.takeWhile Char.isDigit
          some (Token.version (← digits? 10 major) (← digits? 10 minor), c.skip minor.length)
      else if String.ofList name == "TAG" then
        let handle := c.rest.takeWhile fun x => isNameChar x || x == '!'
        let c := c.skip handle.length
        let gap := c.skipWhile isSpace
        let lead := gap.rest.takeWhile (isTagChar true)
        if handle.head? != some '!' || handle.getLast? != some '!' || gap.column == c.column
            || lead.isEmpty then none
        else
          some (Token.handle (String.ofList handle) (String.ofList (← unescapeTag lead)),
            gap.skip lead.length)
      else none
    let c ← c.finishLine
    return { s.emit token with cursor := c, keyAllowed := false }

def readDocumentMark (t : Token) (s : Scanner) : Option Scanner := do
  let s ← (s.close none).dropKey
  return s.advance t 3 false

def readFlowStart (t : Token) (s : Scanner) : Option Scanner := do
  let s ← s.noteKey
  return { s.advance t 1 true with flowKeys := none :: s.flowKeys }

def readFlowEnd (t : Token) (s : Scanner) : Option Scanner := do
  let s ← s.dropKey
  return { s.advance t 1 false with flowKeys := s.flowKeys.drop 1 }

def readFlowEntry (s : Scanner) : Option Scanner := do
  let s ← s.dropKey
  return s.advance .flowEntry 1 true

def readBlockEntry (s : Scanner) : Option Scanner := do
  if !s.inFlow && !s.keyAllowed then none
  else
    let s ← (s.openBlock s.cursor.column s.tokens.length .blockList).dropKey
    return s.advance .blockEntry 1 true

def readKey (s : Scanner) : Option Scanner := do
  if !s.inFlow && !s.keyAllowed then none
  else
    let s ← (s.openBlock s.cursor.column s.tokens.length .blockMap).dropKey
    return s.advance .key 1 (!s.inFlow)

/-- Reads the colon before a value: what stands before it on its line is the key. -/
def readValue (s : Scanner) : Option Scanner :=
  match s.keyPlace with
  | some k =>
    let s := ((s.insert .key k.tokens).openBlock k.column k.tokens .blockMap).setKeyPlace none
    some (s.advance .value 1 false)
  | none =>
    if s.inFlow then some (s.advance .value 1 false)
    else if !s.keyAllowed then none
    else some ((s.openBlock s.cursor.column s.tokens.length .blockMap).advance .value 1 true)

def readBlockScalar (folded : Bool) (s : Scanner) : Option Scanner := do
  let s ← s.dropKey
  let (text, next) ← readBlock folded s.indent s.cursor.skip
  return { s.emit (.scalar (String.ofList text) false) with cursor := next, keyAllowed := true }

def readQuotedScalar (single : Bool) (s : Scanner) : Option Scanner := do
  let s ← s.noteKey
  let c := s.cursor.skip
  let (text, next) ← readQuoted single (c.rest.length + 2) [] c
  return { s.emit (.scalar (String.ofList text.reverse) false) with
    cursor := next, keyAllowed := false }

def readPlainScalar (s : Scanner) : Option Scanner := do
  let s ← s.noteKey
  let indent := match s.indent with
    | none => 0
    | some n => n + 1
  let r ← readPlain s.inFlow indent (s.cursor.rest.length + 2) [] {} s.cursor
  return { s.emit (.scalar (String.ofList r.reversed.reverse) true) with
    cursor := r.next, keyAllowed := r.lineEnded }

def atPlain (s : Scanner) : Bool :=
  let c := s.cursor
  match c.peek with
  | none => false
  | some x =>
    !(c.atGap || "-?:,[]\x7b\x7d#&*!|>'\"%@\x60".toList.contains x)
      || (x == '-' && !c.atSpace 1)
      || (!s.inFlow && (x == '?' || x == ':') && !c.atGap 1)

def readToken (x : Char) (s : Scanner) : Option Scanner :=
  let c := s.cursor
  if c.column == 0 && x == '%' then s.readDirective
  else if c.atMark '-' then s.readDocumentMark .documentStart
  else if c.atMark '.' then s.readDocumentMark .documentEnd
  else if x == '[' then s.readFlowStart .flowListStart
  else if x == '{' then s.readFlowStart .flowMapStart
  else if x == ']' then s.readFlowEnd .flowListEnd
  else if x == '}' then s.readFlowEnd .flowMapEnd
  else if x == ',' then s.readFlowEntry
  else if x == '-' && c.atGap 1 then s.readBlockEntry
  else if x == '?' && (s.inFlow || c.atGap 1) then s.readKey
  else if x == ':' && (s.inFlow || c.atGap 1) then s.readValue
  else if x == '*' then s.readAnchor true
  else if x == '&' then s.readAnchor false
  else if x == '!' then s.readTag
  else if x == '|' && !s.inFlow then s.readBlockScalar false
  else if x == '>' && !s.inFlow then s.readBlockScalar true
  else if x == '\'' then s.readQuotedScalar true
  else if x == '"' then s.readQuotedScalar false
  else if s.atPlain then s.readPlainScalar
  else none

/-- Reads tokens up to the end of the text. -/
def run : Nat → Scanner → Option (List Token)
  | 0, _ => none
  | fuel + 1, s => do
    let s ← (s.skipGap (s.cursor.rest.length + 1)).dropStale
    match s.cursor.peek with
    | none =>
      let s ← (s.close none).dropKey
      return s.tokens.reverse
    | some x =>
      let s := s.close (some s.cursor.column)
      run fuel (← s.readToken x)

end Scanner

/-- Whether a character may stand in a YAML text. -/
def isAllowed (c : Char) : Bool :=
  let n := c.toNat
  n == 0x09 || n == 0x0A || n == 0x0D || (0x20 ≤ n && n ≤ 0x7E) || n == 0x85
    || (0xA0 ≤ n && n ≤ 0xFFFD) || 0x10000 ≤ n

def Token.ofText (cs : List Char) : Option (List Token) :=
  if cs.all isAllowed then
    { cursor := { rest := cs } : Scanner }.run (cs.length + 2)
  else none

end LineCompletion.Yaml

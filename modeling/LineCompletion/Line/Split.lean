import LineCompletion.Line.Token

/-!
# Splitting a line

A raw line is split into words the way a shell does, with quotes and escapes kept in the words; the
words are then read as tokens.
-/

namespace LineCompletion

/-- The words of a raw line, and whether it ends in unquoted blanks. -/
structure SplitLine where
  /-- The words in order, as typed. -/
  words : List String
  /-- Whether the line ends in an unquoted blank. -/
  trailingSpace : Bool
  deriving Repr, DecidableEq, BEq, Inhabited

namespace SplitLine

/-- The words as lists of characters, with the unfinished word put before them unless it is
empty. -/
def flush (word : List Char) (words : List (List Char)) : List (List Char) :=
  if word.isEmpty then words else word.reverse :: words

/-- Splits the rest of a line, given the open quote, the unfinished word in reverse, and whether
the last character read was an unquoted blank. -/
def scan : Quote → List Char → Bool → List Char → List (List Char) × Bool
  | _, word, trailing, [] => (flush word [], trailing)
  | .single, word, _, c :: rest =>
    scan (if c == '\'' then .bare else .single) (c :: word) false rest
  | quote, word, _, '\\' :: d :: rest => scan quote (d :: '\\' :: word) false rest
  | .double, word, _, c :: rest => scan (if c == '"' then .bare else .double) (c :: word) false rest
  | .bare, word, _, c :: rest =>
    if Text.isBlank c then
      let r := scan .bare [] true rest
      (flush word r.1, r.2)
    else if c == '"' then scan .double (c :: word) false rest
    else if c == '\'' then scan .single (c :: word) false rest
    else scan .bare (c :: word) false rest

def ofChars (cs : List Char) : List (List Char) × Bool :=
  scan .bare [] false cs

def ofLine (line : String) : SplitLine :=
  let r := ofChars line.toList
  { words := r.1.map String.ofList, trailingSpace := r.2 }

end SplitLine

/-- The tokens of a command line, and whether the cursor stands after a blank. -/
structure TokenLine where
  /-- The tokens in order. -/
  tokens : List Token
  /-- Whether a new word is being started. -/
  trailingSpace : Bool
  deriving Repr, DecidableEq, BEq, Inhabited

namespace TokenLine

/-- Reads words as tokens. Empty words are dropped, but an empty last word after some token says
that a new word is being started. -/
def ofWords (words : List String) (trailingSpace : Bool) : TokenLine :=
  let tokens := (words.filter fun w => !w.isEmpty).map Token.parse
  let lastEmpty := words.getLast?.any String.isEmpty
  { tokens, trailingSpace := trailingSpace || (lastEmpty && !tokens.isEmpty) }

def ofLine (line : String) : TokenLine :=
  let split := SplitLine.ofLine line
  ofWords split.words split.trailingSpace

end TokenLine

/-- What is to be completed. -/
structure Request where
  /-- The tokens of the line, the command word included. -/
  line : TokenLine
  /-- The working directory that selects cached values, if known. -/
  directory : Option String := none
  deriving Repr, DecidableEq, BEq, Inhabited

namespace Request

/-- The text of the first word, empty when there is none. -/
def command (r : Request) : String :=
  match r.line.tokens with
  | [] => ""
  | t :: _ => t.text

end Request

end LineCompletion

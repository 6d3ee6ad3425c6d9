import LineCompletion.Line.Quote

/-!
# Tokens

A word of the command line as the matcher sees it: the text it stands for, the quote it opens with,
whether that quote is closed, and its split into a key and a value at an unescaped equals sign.
-/

namespace LineCompletion

structure Word where
  /-- The word as typed. -/
  raw : String
  /-- The text it stands for. -/
  text : String
  /-- The quote it opens with. -/
  quote : Quote
  /-- Whether that quote is closed; a bare word is closed. -/
  closed : Bool
  deriving Repr, DecidableEq, BEq, Inhabited

namespace Word

/-- A bare text without its escapes: a backslash stands for the character after it, and for itself
at the end. -/
def unescape : List Char → List Char
  | '\\' :: c :: rest => c :: unescape rest
  | c :: rest => c :: unescape rest
  | [] => []

/-- What follows an opening double quote: its text, and whether the quote is closed. What stands
after the closing quote belongs to the word too. -/
def readDouble : List Char → List Char × Bool
  | [] => ([], false)
  | '\\' :: '"' :: rest => let r := readDouble rest; ('"' :: r.1, r.2)
  | '\\' :: '\\' :: rest => let r := readDouble rest; ('\\' :: r.1, r.2)
  | c :: rest =>
    if c == '"' then (unescape rest, true)
    else let r := readDouble rest; (c :: r.1, r.2)

/-- What follows an opening single quote: its text, and whether the quote is closed. -/
def readSingle : List Char → List Char × Bool
  | [] => ([], false)
  | c :: rest =>
    if c == '\'' then (unescape rest, true)
    else let r := readSingle rest; (c :: r.1, r.2)

/-- The text, quote and closedness of the characters of a word. -/
def readChars : List Char → List Char × Quote × Bool
  | '"' :: rest => let r := readDouble rest; (r.1, .double, r.2)
  | '\'' :: rest => let r := readSingle rest; (r.1, .single, r.2)
  | cs => (unescape cs, .bare, true)

/-- Reads a word without looking for a key. -/
def ofChars (cs : List Char) : Word :=
  let r := readChars cs
  { raw := String.ofList cs, text := String.ofList r.1, quote := r.2.1, closed := r.2.2 }

end Word

/-- The split of a bare word into a key and a value. -/
structure Assignment where
  /-- The unescaped text before the equals sign. -/
  key : String
  /-- What follows the equals sign, read as a word of its own. -/
  value : Word
  deriving Repr, DecidableEq, BEq, Inhabited

namespace Assignment

/-- The characters before and after the first unescaped equals sign that no quote precedes. -/
def splitRaw : List Char → Option (List Char × List Char)
  | [] => none
  | '\\' :: c :: rest => (splitRaw rest).map fun r => ('\\' :: c :: r.1, r.2)
  | c :: rest =>
    if c == '"' || c == '\'' then none
    else if c == '=' then some ([], rest)
    else (splitRaw rest).map fun r => (c :: r.1, r.2)

/-- The split of a word: the key must not be empty. -/
def split? : List Char → Option (List Char × List Char)
  | '=' :: _ => none
  | cs => splitRaw cs

end Assignment

structure Token extends Word where
  /-- Its split into key and value, if it has one. -/
  assignment : Option Assignment
  deriving Repr, DecidableEq, BEq, Inhabited

namespace Token

def opensQuote : List Char → Bool
  | c :: _ => c == '"' || c == '\''
  | [] => false

def ofChars (cs : List Char) : Token :=
  if opensQuote cs then { Word.ofChars cs with assignment := none }
  else match Assignment.split? cs with
    | none => { Word.ofChars cs with assignment := none }
    | some (key, value) =>
      let key := String.ofList (Word.unescape key)
      let value := Word.ofChars value
      { raw := String.ofList cs
        text := key ++ "=" ++ value.text
        quote := .bare
        closed := value.closed
        assignment := some { key, value } }

def parse (raw : String) : Token :=
  ofChars raw.toList

def isQuoted (t : Token) : Bool :=
  t.quote != .bare

/-- Whether the word is bare and its text begins with a dash. -/
def isFlagLike (t : Token) : Bool :=
  !t.isQuoted && t.text.toList.head? == some '-'

end Token

end LineCompletion

import LineCompletion.Text.Character

/-!
# Quotes

The two quote characters of a command line, and how a text is written as one word of it.
-/

namespace LineCompletion

inductive Quote where
  /-- No quote. -/
  | bare
  /-- A double quote, inside which a backslash escapes a double quote or a backslash. -/
  | double
  /-- A single quote, inside which nothing is escaped. -/
  | single
  deriving Repr, DecidableEq, BEq, Inhabited

namespace Quote

def ofChar? (c : Char) : Option Quote :=
  if c == '"' then some .double else if c == '\'' then some .single else none

def char? : Quote → Option Char
  | .bare => none
  | .double => some '"'
  | .single => some '\''

def name : Quote → String
  | .bare => "none"
  | .double => "double"
  | .single => "single"

end Quote

namespace Literal

/-- Whether a character ends or alters a bare word. -/
def isSpecial (c : Char) : Bool :=
  Text.isBlank c || c == '"' || c == '\'' || c == '\\'

/-- Whether a text cannot stand as a bare word. -/
def needsQuotes (cs : List Char) : Bool :=
  cs.isEmpty || cs.any isSpecial

/-- A text inside double quotes: a double quote and a backslash get a backslash before them. -/
def escapeDouble : List Char → List Char
  | [] => []
  | c :: rest =>
    if c == '"' || c == '\\' then '\\' :: c :: escapeDouble rest else c :: escapeDouble rest

def chars (cs : List Char) (quote : Quote) : List Char :=
  if quote == .single && !cs.contains '\'' then '\'' :: cs ++ ['\'']
  else if quote == .bare && !needsQuotes cs then cs
  else '"' :: escapeDouble cs ++ ['"']

/-- A text written as one word: in the wanted quote where that quote can hold it, else in double
quotes. -/
def write (text : String) (quote : Quote) : String :=
  String.ofList (chars text.toList quote)

end Literal

end LineCompletion

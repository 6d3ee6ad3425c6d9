/-!
# Places in a YAML text

A place is what is left of the text, with its line and column. Spaces and tabs are blank; five
characters end a line, of which a carriage return and a line feed together make one end.
-/

namespace LineCompletion.Yaml

structure Cursor where
  rest : List Char
  index : Nat := 0
  line : Nat := 0
  column : Nat := 0
  deriving Repr, Inhabited

def isSpace (c : Char) : Bool :=
  c == ' ' || c == '\t'

def isBreak (c : Char) : Bool :=
  c == '\r' || c == '\n' || c == '\u0085' || c == '\u2028' || c == '\u2029'

namespace Cursor

def peek (c : Cursor) (ahead : Nat := 0) : Option Char :=
  c.rest[ahead]?

/-- Whether a character stands some places ahead. -/
def meets (c : Cursor) (x : Char) (ahead : Nat := 0) : Bool :=
  c.peek ahead == some x

/-- Whether a blank stands some places ahead. -/
def atSpace (c : Cursor) (ahead : Nat := 0) : Bool :=
  (c.peek ahead).any isSpace

/-- Whether the line ends some places ahead, or the text does. -/
def atBreak (c : Cursor) (ahead : Nat := 0) : Bool :=
  match c.peek ahead with
  | none => true
  | some x => isBreak x

/-- Whether a word cannot go on some places ahead. -/
def atGap (c : Cursor) (ahead : Nat := 0) : Bool :=
  c.atSpace ahead || c.atBreak ahead

/-- The place after the next characters, none of which ends a line. -/
def skip (c : Cursor) (count : Nat := 1) : Cursor :=
  { c with rest := c.rest.drop count, index := c.index + count, column := c.column + count }

/-- The place at the beginning of the next line, and what the line end stands for in a text. -/
def nextLine (c : Cursor) : List Char × Cursor :=
  match c.rest with
  | '\r' :: '\n' :: rest => (['\n'], { rest, index := c.index + 2, line := c.line + 1 })
  | x :: rest =>
    if isBreak x then
      let kept := if x == '\u2028' || x == '\u2029' then x else '\n'
      ([kept], { rest, index := c.index + 1, line := c.line + 1 })
    else ([], c)
  | [] => ([], c)

/-- The place after all characters with a property, which must not end lines. -/
def skipWhile (c : Cursor) (p : Char → Bool) : Cursor :=
  c.skip (c.rest.takeWhile p).length

def skipToBreak (c : Cursor) : Cursor :=
  c.skipWhile fun x => !isBreak x

/-- Whether a line begins here with three equal characters that stand alone. -/
def atMark (c : Cursor) (x : Char) : Bool :=
  c.column == 0 && c.meets x && c.meets x 1 && c.meets x 2 && c.atGap 3

/-- Whether a line begins here that starts or ends a document. -/
def atDocumentMark (c : Cursor) : Bool :=
  c.atMark '-' || c.atMark '.'

/-- The place after blanks and a comment, if the line ends there. -/
def finishLine (c : Cursor) : Option Cursor :=
  let c := c.skipWhile isSpace
  let c := if c.meets '#' then c.skipToBreak else c
  if c.atBreak then some c.nextLine.2 else none

end Cursor

end LineCompletion.Yaml

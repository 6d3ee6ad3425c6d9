import LineCompletion.Json.Value
import LineCompletion.Yaml.Scalar

/-!
# Writing YAML

The block form of a value. A text is written plain where that reads back as the same text; else in
single quotes, as a block where it has line ends, and in double quotes where nothing else can hold
it.
-/

namespace LineCompletion.Yaml

/-- Words that some readers take for truth values. -/
def truthWords : List String :=
  ["y", "Y", "yes", "Yes", "YES", "n", "N", "no", "No", "NO", "true", "True", "TRUE", "false",
    "False", "FALSE", "on", "On", "ON", "off", "Off", "OFF"]

/-- Whether a plain text could be read as something else than itself. -/
def isAmbiguous (s : String) : Bool :=
  truthWords.contains s ||
    match plainData s with
    | some (.text _) =>
      let digits := (splitSign s.toList).2
      zeroPadded digits
    | _ => true

def isPrintable (c : Char) : Bool :=
  let n := c.toNat
  n == 0x0A || (0x20 ≤ n && n ≤ 0x7E) || (0xA0 ≤ n && n ≤ 0xFFFD && n != 0xFEFF) || 0x10000 ≤ n

/-- What the characters of a text forbid. -/
structure Features where
  indicator : Bool := false
  lineEnd : Bool := false
  special : Bool := false
  endSpace : Bool := false
  spaceEnd : Bool := false
  deriving Repr, Inhabited

def isGap (c : Char) : Bool :=
  isSpace c || isBreak c

/-- Whether the rest of a text is empty or begins with a gap. -/
def gapFollows : List Char → Bool
  | [] => true
  | c :: _ => isGap c

/-- Whether a character has a meaning where a text begins. -/
def leadsBlock (c : Char) (rest : List Char) : Bool :=
  "#,[]\x7b\x7d&*!|>'\"%@\x60".toList.contains c
    || ((c == '?' || c == ':' || c == '-') && gapFollows rest)

/-- What the characters of a text forbid, given the character before them. -/
def scan (before : Option Char) (f : Features) : List Char → Features
  | [] => f
  | c :: rest =>
    let indicator := match before with
      | none => leadsBlock c rest
      | some b => (c == ':' && gapFollows rest) || (c == '#' && isGap b)
    scan (some c)
      { indicator := f.indicator || indicator
        lineEnd := f.lineEnd || isBreak c
        special := f.special || !isPrintable c
        endSpace := f.endSpace || (c == ' ' && before.any isBreak)
        spaceEnd := f.spaceEnd || (isBreak c && before == some ' ') }
      rest

def Features.ofChars (cs : List Char) : Features :=
  let mark := cs.take 3 == ['-', '-', '-'] || cs.take 3 == ['.', '.', '.']
  scan none { indicator := mark } cs

inductive Style where
  | plain
  | single
  | double
  | block
  deriving Repr, DecidableEq, BEq, Inhabited

def Style.ofText (s : String) : Style :=
  let cs := s.toList
  let f := Features.ofChars cs
  let edge (c : Option Char) : Bool := c.any fun c => c == ' ' || isBreak c
  let plainAllowed :=
    !(f.indicator || f.lineEnd || f.special || f.endSpace || f.spaceEnd
      || edge cs.head? || edge cs.getLast?)
  let singleAllowed := !(f.special || f.endSpace || f.spaceEnd)
  let blockAllowed := !(f.special || f.spaceEnd || cs.getLast? == some ' ') && !cs.isEmpty
  if cs.contains '\n' && !truthWords.contains s then if blockAllowed then .block else .double
  else if !isAmbiguous s && plainAllowed then .plain
  else if singleAllowed then .single
  else .double

def hexDigits (width n : Nat) : List Char :=
  let digits := (Nat.toDigits 16 n).map Char.toUpper
  List.replicate (width - digits.length) '0' ++ digits

def doubleChar (c : Char) : List Char :=
  let n := c.toNat
  if c == '"' || c == '\\' then ['\\', c]
  else if isPrintable c && !isBreak c then [c]
  else if n == 0x00 then ['\\', '0']
  else if n == 0x07 then ['\\', 'a']
  else if n == 0x08 then ['\\', 'b']
  else if n == 0x09 then ['\\', 't']
  else if n == 0x0A then ['\\', 'n']
  else if n == 0x0B then ['\\', 'v']
  else if n == 0x0C then ['\\', 'f']
  else if n == 0x0D then ['\\', 'r']
  else if n == 0x1B then ['\\', 'e']
  else if n == 0x85 then ['\\', 'N']
  else if n == 0x2028 then ['\\', 'L']
  else if n == 0x2029 then ['\\', 'P']
  else if n ≤ 0xFF then ['\\', 'x'] ++ hexDigits 2 n
  else if n ≤ 0xFFFF then ['\\', 'u'] ++ hexDigits 4 n
  else ['\\', 'U'] ++ hexDigits 8 n

def spaces (count : Nat) : List Char :=
  List.replicate count ' '

/-- The characters between single quotes; what follows line ends is indented. -/
def singleChars (indent : Nat) (broken : Bool) : List Char → List Char
  | [] => if broken then spaces indent else []
  | c :: rest =>
    if isBreak c then
      (if !broken && c == '\n' then ['\n'] else []) ++ c :: singleChars indent true rest
    else
      (if broken then spaces indent else [])
        ++ (if c == '\'' then ['\'', '\''] else [c]) ++ singleChars indent false rest

/-- The lines of a block, each indented unless it is empty. -/
def blockChars (indent : Nat) (lineStart : Bool) : List Char → List Char
  | [] => []
  | c :: rest =>
    if isBreak c then c :: blockChars indent true rest
    else (if lineStart then spaces indent else []) ++ c :: blockChars indent false rest

def blockHints (cs : List Char) : List Char :=
  let indent := if cs.head?.any fun c => c == ' ' || isBreak c then ['2'] else []
  let chomp := match cs.reverse with
    | [] => ['-']
    | [c] => if isBreak c then ['+'] else ['-']
    | c :: d :: _ => if !isBreak c then ['-'] else if isBreak d then ['+'] else []
  indent ++ chomp

def scalarText (indent : Nat) (s : String) : List Char :=
  let cs := s.toList
  match Style.ofText s with
  | .plain => cs ++ ['\n']
  | .single => '\'' :: singleChars indent false cs ++ ['\'', '\n']
  | .double => '"' :: cs.flatMap doubleChar ++ ['"', '\n']
  | .block =>
    let lines := blockChars indent true cs
    '|' :: blockHints cs ++ '\n' :: lines
      ++ (if cs.getLast?.any isBreak then [] else ['\n'])

mutual

/-- What stands after the colon of a key in a map of an indentation, or, where the value is to
begin on the same line, after the dash of an element of a list. It ends with its last line. -/
def valueChars (indent : Nat) (sameLine : Bool) : Json → List Char
  | .null => [' ', 'n', 'u', 'l', 'l', '\n']
  | .bool b => ' ' :: (if b then "true" else "false").toList ++ ['\n']
  | .int n => ' ' :: (toString n).toList ++ ['\n']
  | .text s => ' ' :: scalarText (indent + 2) s
  | .list [] => [' ', '[', ']', '\n']
  | .list (x :: xs) =>
    if sameLine then ' ' :: (itemsChars (indent + 2) (x :: xs)).drop (indent + 2)
    else '\n' :: itemsChars indent (x :: xs)
  | .map [] => [' ', '\x7b', '\x7d', '\n']
  | .map (m :: ms) =>
    let members := membersChars (indent + 2) (m :: ms)
    if sameLine then ' ' :: members.drop (indent + 2) else '\n' :: members

/-- The elements of a list, each on lines of its own. -/
def itemsChars (indent : Nat) : List Json → List Char
  | [] => []
  | x :: rest => spaces indent ++ '-' :: valueChars indent true x ++ itemsChars indent rest

def membersChars (indent : Nat) : List (String × Json) → List Char
  | [] => []
  | (name, x) :: rest =>
    spaces indent ++ (scalarText indent name).dropLast ++ ':' :: valueChars indent false x
      ++ membersChars indent rest

end

def ofMembers (members : List (String × Json)) : String :=
  if members.isEmpty then "\x7b\x7d\n" else String.ofList (membersChars 0 members)

end LineCompletion.Yaml

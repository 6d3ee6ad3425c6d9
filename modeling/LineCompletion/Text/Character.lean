import LineCompletion.Text.CaseTable

/-!
# Properties of characters

The Unicode property White_Space and trimming by it, the full lowercase form of a text, with the
rule that a capital sigma at the end of a word becomes a final sigma, and equality up to the case of
ASCII letters.
-/

namespace LineCompletion.Text

/-! ## Blanks -/

/-- Whether a character has the property White_Space. -/
def isBlank (c : Char) : Bool :=
  let n := c.toNat
  (9 ≤ n && n ≤ 13) || n == 0x20 || n == 0x85 || n == 0xA0 || n == 0x1680
    || (0x2000 ≤ n && n ≤ 0x200A) || n == 0x2028 || n == 0x2029 || n == 0x202F
    || n == 0x205F || n == 0x3000

def allBlank (s : String) : Bool :=
  s.toList.all isBlank

/-- A list of characters without its leading blanks. -/
def trimLeft (cs : List Char) : List Char :=
  cs.dropWhile isBlank

/-- A list of characters without its trailing blanks. -/
def trimRight (cs : List Char) : List Char :=
  (cs.reverse.dropWhile isBlank).reverse

/-- A list of characters without blanks at either end. -/
def trim (cs : List Char) : List Char :=
  trimRight (trimLeft cs)

/-! ## Lowercase -/

def isCaseIgnorable (c : Char) : Bool :=
  if c.toNat < 0x80 then
    c == '\'' || c == '.' || c == ':' || c == '^' || c.toNat == 0x60
  else
    CaseTable.inRanges CaseTable.ignorableRanges c.toNat

/-- Whether a character has the property Cased; asked only of one that is not ignorable. -/
def isCased (c : Char) : Bool :=
  if c.toNat < 0x80 then c.isAlpha else CaseTable.inRanges CaseTable.casedRanges c.toNat

/-- The lowercase form of one character where its neighbours do not matter. -/
def lowerChar (c : Char) : List Char :=
  if c.toNat < 0x80 then [c.toLower]
  else if c == '\u0130' then ['i', '\u0307']
  else match CaseTable.shift? c.toNat with
    | some d => [Char.ofNat (c.toNat + d).toNat]
    | none => [c]

/-- Whether the first character that is not ignorable is cased. -/
def meetsCased (cs : List Char) : Bool :=
  match cs.dropWhile isCaseIgnorable with
  | [] => false
  | c :: _ => isCased c

/-- Lowercase of a text after the characters `before`, nearest first: a capital sigma is final
when a cased letter stands before it and none after it, ignorable characters apart. -/
def lowerAfter (before : List Char) : List Char → List Char
  | [] => []
  | c :: rest =>
    let here :=
      if c == 'Σ' then
        if meetsCased before && !meetsCased rest then ['ς'] else ['σ']
      else lowerChar c
    here ++ lowerAfter (c :: before) rest

def lower (s : String) : String :=
  String.ofList (lowerAfter [] s.toList)

def equalAsciiCase (a b : String) : Bool :=
  a.toList.map Char.toLower == b.toList.map Char.toLower

end LineCompletion.Text

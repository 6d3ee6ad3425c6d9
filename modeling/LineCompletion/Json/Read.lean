import LineCompletion.Document.Node
import LineCompletion.Json.Number
import LineCompletion.Text.Utf8

/-!
# Reading JSON

The tree of a JSON text, up to the first flaw of the text.
-/

namespace LineCompletion.Json

/-- A text without the blanks that begin it. -/
def skipSpace (bs : List UInt8) : List UInt8 :=
  bs.dropWhile fun b => b == 0x20 || b == 0x09 || b == 0x0A || b == 0x0D

def hexValue (b : UInt8) : Option Nat :=
  let n := b.toNat
  if 0x30 ≤ n && n ≤ 0x39 then some (n - 0x30)
  else if 0x61 ≤ n && n ≤ 0x66 then some (n - 0x61 + 10)
  else if 0x41 ≤ n && n ≤ 0x46 then some (n - 0x41 + 10)
  else none

def readHex : List UInt8 → Except Flaw (Nat × List UInt8)
  | a :: b :: c :: d :: rest =>
    match hexValue a, hexValue b, hexValue c, hexValue d with
    | some a, some b, some c, some d => .ok (((a * 16 + b) * 16 + c) * 16 + d, rest)
    | _, _, _, _ => .error .malformed
  | _ => .error .truncated

def escapeValue (b : UInt8) : Option UInt8 :=
  if b == 0x22 || b == 0x5C || b == 0x2F then some b
  else if b == 0x62 then some 0x08
  else if b == 0x66 then some 0x0C
  else if b == 0x6E then some 0x0A
  else if b == 0x72 then some 0x0D
  else if b == 0x74 then some 0x09
  else none

/-- The code point of an escape whose first four digits are read; two escapes make one character
beyond the basic plane. -/
def readCodePoint (n : Nat) (rest : List UInt8) : Except Flaw (Nat × List UInt8) :=
  if 0xDC00 ≤ n && n ≤ 0xDFFF then .error .malformed
  else if n < 0xD800 || 0xDBFF < n then .ok (n, rest)
  else
    match rest with
    | [] => .error .truncated
    | [0x5C] => .error .truncated
    | 0x5C :: 0x75 :: rest =>
      match readHex rest with
      | .error f => .error f
      | .ok (low, rest) =>
        if low < 0xDC00 || 0xDFFF < low then .error .malformed
        else .ok ((n - 0xD800) * 0x400 + (low - 0xDC00) + 0x10000, rest)
    | _ => .error .malformed

/-- Reads what follows an opening quote: the octets of the text in reverse after those given, and
the rest. -/
def readString : Nat → List UInt8 → List UInt8 → Except Flaw (List UInt8 × List UInt8)
  | 0, _, _ => .error .truncated
  | _ + 1, _, [] => .error .truncated
  | _ + 1, acc, 0x22 :: rest => .ok (acc, rest)
  | _ + 1, _, [0x5C] => .error .truncated
  | fuel + 1, acc, 0x5C :: 0x75 :: rest =>
    match readHex rest with
    | .error f => .error f
    | .ok (n, rest) =>
      match readCodePoint n rest with
      | .error f => .error f
      | .ok (n, rest) =>
        readString fuel ((Text.Utf8.encode [Char.ofNat n]).reverse ++ acc) rest
  | fuel + 1, acc, 0x5C :: b :: rest =>
    match escapeValue b with
    | none => .error .malformed
    | some v => readString fuel (v :: acc) rest
  | fuel + 1, acc, b :: rest =>
    if b < 0x20 then .error .malformed else readString fuel (b :: acc) rest

/-- Passes over what follows an opening quote. -/
def skipString : Nat → List UInt8 → Except Flaw (List UInt8)
  | 0, _ => .error .truncated
  | _ + 1, [] => .error .truncated
  | _ + 1, 0x22 :: rest => .ok rest
  | _ + 1, [0x5C] => .error .truncated
  | fuel + 1, 0x5C :: 0x75 :: rest =>
    match readHex rest with
    | .error f => .error f
    | .ok (_, rest) => skipString fuel rest
  | fuel + 1, 0x5C :: b :: rest =>
    if (escapeValue b).isSome then skipString fuel rest else .error .malformed
  | fuel + 1, b :: rest => if b < 0x20 then .error .malformed else skipString fuel rest

/-- The place of a text whose opening quote is read. -/
def stringNode (bs : List UInt8) : Node × List UInt8 :=
  let fuel := bs.length + 1
  let content : Except Flaw String :=
    match readString fuel [] bs with
    | .error f => .error f
    | .ok (octets, _) =>
      match Text.Utf8.decode? octets.reverse with
      | some cs => .ok (String.ofList cs)
      | none => .error .malformed
  match skipString fuel bs, content with
  | .ok rest, .ok s => (.scalar { data := some (.text s), text := some s }, rest)
  | .ok rest, .error f => (.refused f none, rest)
  | .error f, .ok _ => (.refused f (some f), [])
  | .error f, .error g => (.refused g (some f), [])

/-- The place of a number; a numeral that is cut short cannot be passed over either. -/
def numberNode (negative : Bool) (bs : List UInt8) : Node × List UInt8 :=
  match spanNumeral bs with
  | .error f => (.refused f (some .malformed), [])
  | .ok (n, rest) =>
    match n.value? negative with
    | some d => (.scalar { data := some d, text := none }, rest)
    | none => (.refused .malformed none, rest)

/-- Reads the rest of a word that stands for a value. -/
def wordNode (d : Data) : List UInt8 → List UInt8 → Node × List UInt8
  | [], bs => (.scalar { data := some d, text := none }, bs)
  | _, [] => (.refused .truncated (some .truncated), [])
  | w :: ws, b :: bs =>
    if w == b then wordNode d ws bs else (.refused .malformed (some .malformed), [])

mutual

def readNode : Nat → List UInt8 → Node × List UInt8
  | 0, _ => (.refused .truncated (some .truncated), [])
  | fuel + 1, bs =>
    match skipSpace bs with
    | [] => (.refused .truncated (some .truncated), [])
    | b :: rest =>
      if b == 0x22 then stringNode rest
      else if b == 0x5B then
        let (items, rest) := readItems fuel true rest
        (.list items, rest)
      else if b == 0x7B then
        let (members, rest) := readMembers fuel true rest
        (.map members, rest)
      else if b == 0x2D then numberNode true rest
      else if isDigit b then numberNode false (b :: rest)
      else if b == 0x74 then wordNode (.bool true) [0x72, 0x75, 0x65] rest
      else if b == 0x66 then wordNode (.bool false) [0x61, 0x6C, 0x73, 0x65] rest
      else if b == 0x6E then wordNode .null [0x75, 0x6C, 0x6C] rest
      else (.refused .malformed (some .malformed), [])

/-- Reads the elements of a list after its bracket or after an element. -/
def readItems : Nat → Bool → List UInt8 → Items × List UInt8
  | 0, _, _ => (.broken .truncated, [])
  | fuel + 1, first, bs =>
    match skipSpace bs with
    | [] => (.broken .truncated, [])
    | b :: rest =>
      if b == 0x5D then (.done, rest)
      else if first then readElement fuel (b :: rest)
      else if b == 0x2C then
        let rest := skipSpace rest
        if rest.head? == some 0x5D then (.broken .malformed, []) else readElement fuel rest
      else (.broken .malformed, [])

def readElement : Nat → List UInt8 → Items × List UInt8
  | 0, _ => (.broken .truncated, [])
  | fuel + 1, bs =>
    let (item, rest) := readNode fuel bs
    let (items, rest) := readItems fuel false rest
    (.more item items, rest)

/-- Reads the pairs of a map after its brace or after a pair. -/
def readMembers : Nat → Bool → List UInt8 → Members × List UInt8
  | 0, _, _ => (.broken .truncated, [])
  | fuel + 1, first, bs =>
    match skipSpace bs with
    | [] => (.broken .truncated, [])
    | b :: rest =>
      if b == 0x7D then (.done, rest)
      else if first then readMember fuel (b :: rest)
      else if b == 0x2C then
        match skipSpace rest with
        | [] =>
          let nothing := Node.refused .truncated (some .truncated)
          (.more nothing nothing (.broken .truncated), [])
        | rest => readMember fuel rest
      else (.broken .malformed, [])

/-- Reads a pair and what follows it. A key is a text. -/
def readMember : Nat → List UInt8 → Members × List UInt8
  | 0, _ => (.broken .truncated, [])
  | fuel + 1, bs =>
    match bs with
    | [] => (.broken .truncated, [])
    | b :: rest =>
      if b != 0x22 then (.broken .malformed, [])
      else
        let (key, rest) := stringNode rest
        match skipSpace rest with
        | [] => (.more key (.refused .truncated (some .truncated)) (.broken .truncated), [])
        | b :: rest =>
          if b != 0x3A then
            (.more key (.refused .malformed (some .malformed)) (.broken .malformed), [])
          else
            let (value, rest) := readNode fuel rest
            let (members, rest) := readMembers fuel false rest
            (.more key value members, rest)

end

def document (bs : List UInt8) : Document :=
  let (root, rest) := readNode (3 * bs.length + 4) bs
  { root, trailing := !(skipSpace rest).isEmpty }

end LineCompletion.Json

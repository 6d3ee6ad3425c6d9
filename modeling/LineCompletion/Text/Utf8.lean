/-!
# UTF-8

Octets as characters. Where octets do not encode a character, each longest beginning of a
character, or else a single octet, is one piece that has no character.
-/

namespace LineCompletion.Text.Utf8

/-- What is still owed to a character that was begun. -/
structure Owed where
  /-- The value of the octets so far. -/
  value : Nat
  /-- How many octets are missing. -/
  count : Nat
  /-- The least value of the next octet. -/
  low : Nat := 0x80
  /-- The greatest value of the next octet. -/
  high : Nat := 0xBF

/-- What a first octet stands for: a character, the beginning of one, or neither. -/
inductive Lead where
  | whole (c : Char)
  | begins (owed : Owed)
  | invalid

def lead (b : UInt8) : Lead :=
  let n := b.toNat
  if n < 0x80 then .whole (Char.ofNat n)
  else if n < 0xC2 then .invalid
  else if n < 0xE0 then .begins { value := n - 0xC0, count := 1 }
  else if n == 0xE0 then .begins { value := 0, count := 2, low := 0xA0 }
  else if n == 0xED then .begins { value := 0xD, count := 2, high := 0x9F }
  else if n < 0xF0 then .begins { value := n - 0xE0, count := 2 }
  else if n == 0xF0 then .begins { value := 0, count := 3, low := 0x90 }
  else if n < 0xF4 then .begins { value := n - 0xF0, count := 3 }
  else if n == 0xF4 then .begins { value := 4, count := 3, high := 0x8F }
  else .invalid

/-- The pieces of octets, the first of them perhaps continuing a character. -/
def piecesFrom : Option Owed → List UInt8 → List (Option Char)
  | none, [] => []
  | some _, [] => [none]
  | none, b :: rest =>
    match lead b with
    | .whole c => some c :: piecesFrom none rest
    | .begins owed => piecesFrom (some owed) rest
    | .invalid => none :: piecesFrom none rest
  | some owed, b :: rest =>
    let n := b.toNat
    if owed.low ≤ n && n ≤ owed.high then
      let value := owed.value * 64 + (n - 0x80)
      if owed.count == 1 then some (Char.ofNat value) :: piecesFrom none rest
      else piecesFrom (some { value, count := owed.count - 1 }) rest
    else
      none :: match lead b with
        | .whole c => some c :: piecesFrom none rest
        | .begins owed => piecesFrom (some owed) rest
        | .invalid => none :: piecesFrom none rest

def pieces (bytes : List UInt8) : List (Option Char) :=
  piecesFrom none bytes

/-- The characters of octets, if all of them encode characters. -/
def decode? (bytes : List UInt8) : Option (List Char) :=
  (pieces bytes).mapM id

/-- The characters of octets, with a replacement character for each piece that has none. -/
def decodeLossy (bytes : List UInt8) : List Char :=
  (pieces bytes).map (·.getD '\ufffd')

def encode (cs : List Char) : List UInt8 :=
  cs.flatMap String.utf8EncodeChar

end LineCompletion.Text.Utf8

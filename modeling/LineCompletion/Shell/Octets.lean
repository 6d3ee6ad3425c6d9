import LineCompletion.Text.Utf8

/-!
# Octets

The shell does not know of characters: all its text is octets, each held as the character of the
same code.
-/

namespace LineCompletion.Shell

/-- Text of the shell, a character below code 256 for each octet. -/
abbrev Octets := List Char

namespace Octets

def ofBytes (bytes : List UInt8) : Octets :=
  bytes.map fun b => Char.ofNat b.toNat

def toBytes (text : Octets) : List UInt8 :=
  text.map fun c => UInt8.ofNat c.toNat

def ofString (s : String) : Octets :=
  ofBytes (Text.Utf8.encode s.toList)

/-- The text that octets stand for, with marks in the place of those that stand for none. -/
def toText (text : Octets) : String :=
  String.ofList (Text.Utf8.decodeLossy (toBytes text))

/-- Whether a text comes before another, octet by octet. -/
def precedes : Octets → Octets → Bool
  | _, [] => false
  | [], _ :: _ => true
  | a :: as, b :: bs => a.toNat < b.toNat || (a == b && precedes as bs)

/-- Whether a text does not come after another. -/
def atMost (a b : Octets) : Bool :=
  !precedes b a

/-- Splits octets after every newline; the last part need not end in one. -/
def lines : Octets → List Octets
  | [] => []
  | c :: rest =>
    if c == '\n' then [c] :: lines rest
    else match lines rest with
      | [] => [[c]]
      | line :: more => (c :: line) :: more

def chomp (line : Octets) : Octets :=
  if line.getLast? == some '\n' then line.dropLast else line

def trimNewlines (text : Octets) : Octets :=
  (text.reverse.dropWhile (· == '\n')).reverse

def newlines (text : Octets) : Nat :=
  (text.filter (· == '\n')).length

def ofNat (n : Nat) : Octets :=
  (toString n).toList

/-- The digits of a number with a sign in front of a negative one. -/
def ofInt (n : Int) : Octets :=
  (toString n).toList

def digits? (text : Octets) : Option Nat :=
  if text.isEmpty || !text.all Char.isDigit then none
  else some (text.foldl (fun n c => n * 10 + (c.toNat - 48)) 0)

end Octets

end LineCompletion.Shell

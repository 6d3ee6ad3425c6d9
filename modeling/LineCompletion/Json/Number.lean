import LineCompletion.Document.Data

/-!
# Numbers of JSON

Reading a number from octets. An integer of 64 bits is kept; any other number becomes a double by
the scale of its digits, of which only as many as fit a word of 64 bits count.
-/

namespace LineCompletion.Json

def isDigit (b : UInt8) : Bool :=
  0x30 ≤ b && b ≤ 0x39

def spanDigits (bs : List UInt8) : List Nat × List UInt8 :=
  ((bs.takeWhile isDigit).map fun b => b.toNat - 0x30, bs.dropWhile isDigit)

/-- A number as it is written, its sign apart. -/
structure Numeral where
  whole : List Nat
  fraction : Option (List Nat) := none
  exponent : Option (Bool × List Nat) := none
  deriving Repr, Inhabited

/-- The flaw of a text that ends or goes on where a digit is wanted. -/
def wantDigit : List UInt8 → Flaw
  | [] => .truncated
  | _ => .malformed

/-- Splits the exponent off a text that begins with it. -/
def spanExponent (bs : List UInt8) : Except Flaw (Option (Bool × List Nat) × List UInt8) :=
  match bs with
  | b :: rest =>
    if b == 0x65 || b == 0x45 then
      let (negative, rest) := match rest with
        | 0x2B :: r => (false, r)
        | 0x2D :: r => (true, r)
        | r => (false, r)
      let (digits, after) := spanDigits rest
      if digits.isEmpty then .error (wantDigit after) else .ok (some (negative, digits), after)
    else .ok (none, bs)
  | [] => .ok (none, [])

def spanNumeral (bs : List UInt8) : Except Flaw (Numeral × List UInt8) :=
  let (whole, rest) := spanDigits bs
  match whole with
  | [] => .error (wantDigit rest)
  | 0 :: _ :: _ => .error .malformed
  | _ =>
    match rest with
    | 0x2E :: r =>
      let (fraction, after) := spanDigits r
      if fraction.isEmpty then .error (wantDigit after)
      else (spanExponent after).map fun e =>
        ({ whole, fraction := some fraction, exponent := e.1 }, e.2)
    | _ => (spanExponent rest).map fun e => ({ whole, exponent := e.1 }, e.2)

/-- The significand after more digits, as long as it fits a word, and the digits that no longer
do. -/
def takeWord : Nat → List Nat → Nat × List Nat
  | n, [] => (n, [])
  | n, d :: rest => if n * 10 + d < UInt64.size then takeWord (n * 10 + d) rest else (n, d :: rest)

/-- A significand scaled by a power of ten; nothing when it is too large. The power is applied in
steps of at most `10 ^ 308`, each rounded. -/
def scale (significand : Nat) (exponent : Int) : Option Double := do
  let start ← Double.ofRatio significand 1
  let ten (k : Nat) := Double.ofRatio (Nat.pow 10 k) 1
  if exponent.natAbs ≤ 308 then
    let p ← ten exponent.natAbs
    if 0 ≤ exponent then start.mul p else start.div p
  else if start.mantissa == 0 then some start
  else if 0 ≤ exponent then none
  else
    let p ← ten 308
    let once ← start.div p
    let left := exponent + 308
    if left.natAbs ≤ 308 then
      let q ← ten left.natAbs
      once.div q
    else
      let twice ← once.div p
      let left := left + 308
      if twice.mantissa == 0 || 308 < left.natAbs then some {}
      else do
        let q ← ten left.natAbs
        twice.div q

/-- The value of the digits of an exponent, held below a bound far beyond any double. -/
def exponentValue (digits : List Nat) : Nat :=
  digits.foldl (fun n d => min (n * 10 + d) (Nat.pow 2 40)) 0

/-- The value of a numeral; nothing when it is too large for a double. -/
def Numeral.value? (negative : Bool) (n : Numeral) : Option Data :=
  let signed (d : Double) : Data := .real (some { d with negative })
  let (significand, beyond) := takeWord 0 n.whole
  match n.fraction, n.exponent with
  | none, none =>
    if beyond.isEmpty then
      if !negative then some (.int significand)
      else if significand == 0 || Nat.pow 2 63 < significand then
        (Double.ofRatio significand 1).map signed
      else some (.int (-(significand : Int)))
    else (scale significand beyond.length).map signed
  | fraction, exponent =>
    let digits := fraction.getD []
    let (significand, shift) :=
      if beyond.isEmpty then
        let r := takeWord significand digits
        (r.1, -((digits.length - r.2.length : Nat) : Int))
      else
        match digits with
        | [] => (significand, (beyond.length : Int))
        | _ =>
          let r := takeWord significand digits
          (r.1, (beyond.length : Int) - ((digits.length - r.2.length : Nat) : Int))
    match exponent with
    | none => (scale significand shift).map signed
    | some (down, digits) =>
      let e := exponentValue digits
      if Nat.pow 2 31 ≤ e then
        if significand != 0 && !down then none else some (signed {})
      else (scale significand (if down then shift - e else shift + e)).map signed

end LineCompletion.Json

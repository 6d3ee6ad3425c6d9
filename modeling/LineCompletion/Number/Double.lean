/-!
# Doubles

Double precision numbers as exact values, rounding to them, and the shortest decimal that reads
back as one.
-/

namespace LineCompletion

/-- A finite double: `mantissa * 2 ^ exponent` with a sign. The mantissa is below `2 ^ 53` and the
exponent is at least `-1074`. -/
structure Double where
  negative : Bool := false
  mantissa : Nat := 0
  exponent : Int := 0
  deriving Repr, DecidableEq, BEq, Inhabited

namespace Double

/-- A power with an exponent that may be negative, as a numerator and a denominator. -/
def power (base : Nat) (exponent : Int) : Nat × Nat :=
  (Nat.pow base exponent.toNat, Nat.pow base (-exponent).toNat)

/-- The quotient of `num / den` by `2 ^ e`, rounded to the nearest integer, a half to the even
one. -/
def roundAt (num den : Nat) (e : Int) : Nat :=
  let p := power 2 e
  let n := num * p.2
  let d := den * p.1
  let q := n / d
  let r := n % d
  if 2 * r < d then q
  else if d < 2 * r then q + 1
  else q + q % 2

/-- The nearest double to a ratio, a half going to the even mantissa; nothing when it is too
large. -/
def ofRatio (num den : Nat) : Option Double :=
  if num == 0 then some {}
  else
    let guess : Int := (Nat.log2 num : Int) - (Nat.log2 den : Int) - 53
    let fits (e : Int) : Bool :=
      let p := power 2 e
      num * p.2 < Nat.pow 2 53 * (den * p.1)
    let e := if fits guess then guess else if fits (guess + 1) then guess + 1 else guess + 2
    let e := max e (-1074)
    let m := roundAt num den e
    let (m, e) := if m == Nat.pow 2 53 then (Nat.pow 2 52, e + 1) else (m, e)
    if 971 < e then none else some { mantissa := m, exponent := e }

/-- The product of two doubles, without its sign. -/
def mul (a b : Double) : Option Double :=
  let p := power 2 (a.exponent + b.exponent)
  ofRatio (a.mantissa * b.mantissa * p.1) p.2

/-- The quotient of two doubles, without its sign. -/
def div (a b : Double) : Option Double :=
  let p := power 2 (a.exponent - b.exponent)
  ofRatio (a.mantissa * p.1) (b.mantissa * p.2)

/-- The decimal exponent of the leading digit of a positive ratio, searched from a lower bound. -/
def leadingExponent (num den : Nat) : Nat → Int → Int
  | 0, k => k
  | fuel + 1, k =>
    let p := power 10 (k + 1)
    if num * p.2 < den * p.1 then k else leadingExponent num den fuel (k + 1)

/-- The first of the grids of one digit, two digits and so on with a point that reads back as the
double, and its nearest such point: the point is the first answer times ten to the second. -/
def searchShortest (d : Double) (lead : Int) : Nat → Nat → Nat × Int
  | 0, _ => (0, 0)
  | fuel + 1, digits =>
    let k := lead - digits + 1
    let unit := power 2 (d.exponent - 2)
    let ten := power 10 k
    let value := 4 * d.mantissa
    let low := value - (if d.mantissa == Nat.pow 2 52 && d.exponent != -1074 then 1 else 2)
    let high := value + 2
    let scaled (x : Nat) : Nat := x * unit.1 * ten.2
    let point (x : Nat) : Nat := x * ten.1 * unit.2
    let closed := d.mantissa % 2 == 0
    let inside (x : Nat) : Bool :=
      if closed then scaled low ≤ point x && point x ≤ scaled high
      else scaled low < point x && point x < scaled high
    let below := scaled value / (ten.1 * unit.2)
    let above := below + 1
    let distance (x : Nat) : Nat :=
      (point x - scaled value) + (scaled value - point x)
    if inside below && inside above then
      (if distance above < distance below then above else below, k)
    else if inside below then (below, k)
    else if inside above then (above, k)
    else searchShortest d lead fuel (digits + 1)

/-- A number without the zeros at its end, and how many they were. -/
def dropZeros : Nat → Nat → Nat × Nat
  | 0, n => (n, 0)
  | fuel + 1, n =>
    if n != 0 && n % 10 == 0 then
      let r := dropZeros fuel (n / 10)
      (r.1, r.2 + 1)
    else (n, 0)

/-- The digits of the shortest decimal and the exponent of its leading digit. -/
def shortest (d : Double) : List Char × Int :=
  if d.mantissa == 0 then (['0'], 0)
  else
    let p := power 2 d.exponent
    let lead := leadingExponent (d.mantissa * p.1) p.2 700 (-330)
    let found := searchShortest d lead 20 1
    let stripped := dropZeros 400 found.1
    let digits := Nat.toDigits 10 stripped.1
    (digits, found.2 + stripped.2 + digits.length - 1)

/-- The text of a double: positional while the leading digit's exponent is from -5 to 15, with a
point in any case, else in scientific notation with a signed exponent. -/
def text (d : Double) : String :=
  let (digits, lead) := d.shortest
  let zeros (n : Int) : List Char := List.replicate n.toNat '0'
  let body :=
    if -5 ≤ lead && lead ≤ 15 then
      if lead < 0 then ['0', '.'] ++ zeros (-lead - 1) ++ digits
      else
        let whole := lead.toNat + 1
        if digits.length ≤ whole then digits ++ zeros (whole - digits.length) ++ ['.', '0']
        else digits.take whole ++ '.' :: digits.drop whole
    else
      let fraction := digits.drop 1
      digits.take 1 ++ (if fraction.isEmpty then [] else '.' :: fraction)
        ++ 'e' :: (if lead < 0 then '-' else '+') :: Nat.toDigits 10 lead.natAbs
  String.ofList (if d.negative then '-' :: body else body)

end Double

end LineCompletion

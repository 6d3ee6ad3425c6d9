import LineCompletion.Number.Double
import LineCompletion.Shell.Arithmetic

/-!
# Formatted output

What `echo` and `printf` make of their arguments. A format is used again while arguments are left;
what is missing counts as empty or as zero.
-/

namespace LineCompletion.Shell

/-- Whether an octet is a digit of base eight. -/
def isOctal (c : Char) : Bool :=
  '0' ≤ c && c ≤ '7'

def octetOf (n : Nat) : Char :=
  Char.ofNat (n % 256)

/-- The octet that is written after a backslash, and what follows. -/
def escape (cs : Octets) : Char × Octets :=
  match cs with
  | [] => ('\\', [])
  | c :: rest =>
    if isOctal c then
      let digits := (cs.take 3).takeWhile isOctal
      (octetOf (digits.foldl (fun n d => n * 8 + (d.toNat - 48)) 0), cs.drop digits.length)
    else match c with
      | '\\' => ('\\', rest)
      | 'a' => ('\x07', rest)
      | 'b' => ('\x08', rest)
      | 'f' => ('\x0c', rest)
      | 'n' => ('\n', rest)
      | 'r' => ('\r', rest)
      | 't' => ('\t', rest)
      | 'v' => ('\x0b', rest)
      | _ => ('\\', cs)

/-- Octets with their backslashes replaced, and whether one of them ends all output. -/
def unescape : Nat → Octets → Octets × Bool
  | 0, _ => ([], false)
  | _ + 1, [] => ([], false)
  | _ + 1, '\\' :: 'c' :: _ => ([], true)
  | fuel + 1, '\\' :: rest =>
    let rest := match rest with
      | '0' :: d :: _ => if isOctal d then rest.tail else rest
      | _ => rest
    let (c, more) := escape rest
    let (text, stop) := unescape fuel more
    (c :: text, stop)
  | fuel + 1, c :: rest =>
    let (text, stop) := unescape fuel rest
    (c :: text, stop)

/-- The output of `echo`, without the end of the line. -/
def echoWords : List Octets → Octets × Bool
  | [] => ([], false)
  | w :: rest =>
    let (text, stop) := unescape (w.length + 1) w
    if stop then (text, true)
    else if rest.isEmpty then (text, false)
    else
      let (more, stop) := echoWords rest
      (text ++ ' ' :: more, stop)

def echo (arguments : List Octets) : Octets :=
  let (words, silent) := match arguments with
    | ['-', 'n'] :: rest => (rest, true)
    | _ => (arguments, false)
  let (text, stop) := echoWords words
  if silent || stop then text else text ++ ['\n']

structure FieldStyle where
  left : Bool := false
  plus : Bool := false
  blank : Bool := false
  alternate : Bool := false
  zeros : Bool := false
  width : Nat := 0
  precision : Option Nat := none
  deriving Repr, DecidableEq, BEq, Inhabited

namespace FieldStyle

/-- Sets octets after a sign in the field. -/
def fill (f : FieldStyle) (zeros : Bool) (sign body : Octets) : Octets :=
  let missing := f.width - (sign.length + body.length)
  if f.left then sign ++ body ++ List.replicate missing ' '
  else if zeros then sign ++ List.replicate missing '0' ++ body
  else List.replicate missing ' ' ++ sign ++ body

def text (f : FieldStyle) (octets : Octets) : Octets :=
  f.fill false [] (match f.precision with
    | some n => octets.take n
    | none => octets)

def digits (f : FieldStyle) (octets : Octets) : Octets :=
  match f.precision with
  | none => octets
  | some 0 => if octets == ['0'] then [] else octets
  | some n => List.replicate (n - octets.length) '0' ++ octets

def sign (f : FieldStyle) (negative : Bool) : Octets :=
  if negative then ['-'] else if f.plus then ['+'] else if f.blank then [' '] else []

def integer (f : FieldStyle) (n : Int) : Octets :=
  f.fill (f.zeros && f.precision.isNone) (f.sign (n < 0)) (f.digits (Octets.ofNat n.natAbs))

def inBase (base : Nat) (upper : Bool) (n : Nat) : Octets :=
  (Nat.toDigits base n).map fun c => if upper then c.toUpper else c

/-- Sets a number without sign in a base. -/
def natural (f : FieldStyle) (base : Nat) (upper : Bool) (n : Nat) : Octets :=
  let body := f.digits (inBase base upper n)
  let mark := if f.alternate && n != 0 then
      if base == 16 then ['0', if upper then 'X' else 'x'] else if base == 8 then ['0'] else []
    else []
  f.fill (f.zeros && f.precision.isNone) mark body

/-- Sets a number with a fraction, whose last digit is the nearest, even ones first. -/
def fixed (f : FieldStyle) (d : Double) : Octets :=
  let places := f.precision.getD 6
  let p := Double.power 2 d.exponent
  let unit := Nat.pow 10 places
  let num := d.mantissa * p.1 * unit
  let q := num / p.2
  let twice := 2 * (num % p.2)
  let n := if twice < p.2 || (twice == p.2 && q % 2 == 0) then q else q + 1
  let whole := Octets.ofNat (n / unit)
  let fraction := Octets.ofNat (n % unit)
  let point := if places == 0 then []
    else '.' :: (List.replicate (places - fraction.length) '0' ++ fraction)
  f.fill f.zeros (f.sign d.negative) (whole ++ point)

end FieldStyle

/-- A number at the start of octets, and how much of it was read. -/
structure Numeral (α : Type) where
  value : α
  found : Bool
  whole : Bool
  fits : Bool := true

/-- Reads a whole number at the start of octets, within bounds. -/
def readInteger (least most : Int) (text : Octets) : Numeral Int :=
  let text := Expression.skipBlanks text
  let (negative, body) := match text with
    | '-' :: rest => (true, rest)
    | '+' :: rest => (false, rest)
    | rest => (false, rest)
  let (base, digits, marked) := match body with
    | '0' :: 'x' :: rest | '0' :: 'X' :: rest =>
      if (rest.head?.bind Expression.digitValue).isSome then (16, rest, false) else (8, body, true)
    | '0' :: _ => (8, body, true)
    | _ => (10, body, true)
  let taken := digits.takeWhile fun c => (Expression.digitValue c).any (· < base)
  let found := !taken.isEmpty || !marked
  let size := ((Expression.ofDigits base taken).getD 0 : Int)
  let value := if negative then -size else size
  let rest := digits.drop taken.length
  { value := max least (min most value), found, whole := rest.isEmpty,
    fits := decide (least ≤ value) && decide (value ≤ most) }

/-- Reads a decimal number with a fraction at the start of octets. -/
def readFraction (text : Octets) : Numeral Double :=
  let text := Expression.skipBlanks text
  let (negative, body) := match text with
    | '-' :: rest => (true, rest)
    | '+' :: rest => (false, rest)
    | rest => (false, rest)
  let whole := body.takeWhile Char.isDigit
  let after := body.drop whole.length
  let fraction := match after with
    | '.' :: rest => rest.takeWhile Char.isDigit
    | _ => []
  let after := match after with
    | '.' :: rest => rest.drop fraction.length
    | _ => after
  let found := !(whole.isEmpty && fraction.isEmpty)
  let (exponent, after) : Int × Octets := match after with
    | e :: rest =>
      if e == 'e' || e == 'E' then
        let (down, digits) := match rest with
          | '-' :: digits => (true, digits)
          | '+' :: digits => (false, digits)
          | digits => (false, digits)
        let power := digits.takeWhile Char.isDigit
        match Octets.digits? power with
        | some n => (if down then -(n : Int) else n, digits.drop power.length)
        | none => (0, after)
      else (0, after)
    | [] => (0, after)
  let digits := (Octets.digits? (whole ++ fraction)).getD 0
  let p := Double.power 10 (max (-400) (min 400 (exponent - fraction.length)))
  let value := ((Double.ofRatio (digits * p.1) p.2).getD {})
  { value := { value with negative }, found, whole := after.isEmpty }

structure Printed where
  output : Octets := []
  warnings : List Octets := []
  arguments : List Octets := []
  status : Nat := 0
  stopped : Bool := false
  deriving Repr, Inhabited

namespace Printed

def put (p : Printed) (octets : Octets) : Printed :=
  { p with output := octets.reverse ++ p.output }

def next (p : Printed) : Option Octets × Printed :=
  match p.arguments with
  | [] => (none, p)
  | a :: rest => (some a, { p with arguments := rest })

def check {α : Type} (p : Printed) (text : Octets) (n : Numeral α) : Printed :=
  let problem :=
    if !n.found then some "expected numeric value"
    else if !n.whole then some "not completely converted"
    else if !n.fits then some "Numerical result out of range"
    else none
  match problem with
  | none => p
  | some problem =>
    { p with warnings := p.warnings ++ ["printf: ".toList ++ text ++ (": " ++ problem).toList],
             status := 1 }

/-- Takes a number from the next argument; a quote in front of an octet gives its code. -/
def nextInteger (p : Printed) (least most : Int) : Int × Printed :=
  match p.next with
  | (none, p) => (0, p)
  | (some text, p) =>
    match text with
    | [] => (0, p)
    | c :: rest =>
      if c == '"' || c == '\'' then ((rest.head?.getD '\x00').toNat, p)
      else
        let n := readInteger least most text
        (n.value, p.check text n)

def nextFraction (p : Printed) : Double × Printed :=
  match p.next with
  | (none, p) => ({}, p)
  | (some text, p) =>
    if text.isEmpty then ({}, p)
    else
      let n := readFraction text
      (n.value, p.check text n)

def fail (p : Printed) (message : Octets) : Printed :=
  { p with warnings := p.warnings ++ ["printf: ".toList ++ message], status := 2, stopped := true }

/-- Takes a width or precision, which may be an argument. -/
def size (p : Printed) (cs : Octets) : Option Int × Octets × Printed :=
  match cs with
  | '*' :: rest =>
    let (n, p) := p.nextInteger (-(Nat.pow 2 31 : Int)) (Nat.pow 2 31 - 1)
    (some n, rest, p)
  | _ =>
    let digits := cs.takeWhile Char.isDigit
    ((Octets.digits? digits).map Int.ofNat, cs.drop digits.length, p)

/-- The largest number without sign. -/
def most : Int :=
  UInt64.size - 1

/-- Writes the next argument as a conversion says. -/
def convert (p : Printed) (style : FieldStyle) (conversion : Char) : Option Printed :=
  match conversion with
  | 's' =>
    let (a, p) := p.next
    some (p.put (style.text (a.getD [])))
  | 'b' =>
    let (a, p) := p.next
    let a := a.getD []
    let (text, stop) := unescape (a.length + 1) a
    some { p.put (style.text text) with stopped := stop }
  | 'c' =>
    let (a, p) := p.next
    some (p.put (style.fill false [] [(a.bind List.head?).getD '\x00']))
  | 'd' | 'i' =>
    let (n, p) := p.nextInteger (-(Nat.pow 2 63 : Int)) (Nat.pow 2 63 - 1)
    some (p.put (style.integer n))
  | 'u' | 'o' | 'x' | 'X' =>
    let (n, p) := p.nextInteger (-most) most
    let n := (n % UInt64.size).toNat
    let base := if conversion == 'u' then 10 else if conversion == 'o' then 8 else 16
    some (p.put (style.natural base (conversion == 'X') n))
  | 'f' | 'F' =>
    let (d, p) := p.nextFraction
    some (p.put (style.fixed d))
  | _ => none

/-- Writes a conversion, whose octets follow a percent sign, and gives what follows it. -/
def directive (p : Printed) (cs : Octets) : Printed × Octets :=
  let flags := cs.takeWhile fun c => ['#', '-', '+', ' ', '0'].contains c
  let (width, rest, p) := p.size (cs.drop flags.length)
  let (precision, rest, p) := match rest with
    | '.' :: rest =>
      let (n, rest, p) := p.size rest
      (some (n.getD 0), rest, p)
    | _ => (none, rest, p)
  let width := width.getD 0
  let style : FieldStyle :=
    { left := flags.contains '-' || width < 0, plus := flags.contains '+'
      blank := flags.contains ' ', alternate := flags.contains '#', zeros := flags.contains '0'
      width := width.natAbs
      precision := precision.bind fun n => if n < 0 then none else some n.toNat }
  match rest with
  | [] => (p.fail "missing format character".toList, [])
  | c :: rest =>
    match p.convert style c with
    | some p => (p, rest)
    | none =>
      let written := cs.take (cs.length - rest.length)
      (p.fail ('%' :: written ++ ": invalid directive".toList), [])

def once : Nat → Printed → Octets → Printed
  | 0, p, _ => p
  | _ + 1, p, [] => p
  | fuel + 1, p, c :: rest =>
    if p.stopped then p
    else if c == '\\' then
      let (d, rest) := escape rest
      once fuel (p.put [d]) rest
    else if c != '%' then once fuel (p.put [c]) rest
    else match rest with
      | '%' :: rest => once fuel (p.put ['%']) rest
      | _ =>
        let (p, rest) := p.directive rest
        once fuel p rest

/-- Writes by a format while arguments are left and used. -/
def again (format : Octets) : Nat → Printed → Printed
  | 0, p => p
  | fuel + 1, p =>
    let q := once (format.length + 1) p format
    if q.stopped || q.arguments.isEmpty || q.arguments.length == p.arguments.length then q
    else again format fuel q

end Printed

def printf (format : Octets) (arguments : List Octets) : Printed :=
  let p := Printed.again format (arguments.length + 1) { arguments }
  { p with output := p.output.reverse }

end LineCompletion.Shell

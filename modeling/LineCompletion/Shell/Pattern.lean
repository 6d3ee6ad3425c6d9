import LineCompletion.Shell.Octets

/-!
# Patterns

Patterns for names and texts: a star stands for anything, a question mark for one octet, brackets
for one of a set. A quoted octet stands for itself.
-/

namespace LineCompletion.Shell

inductive PatternPart where
  | anything
  | one
  | octet (c : Char)
  | range (except : Bool) (ranges : List (Char × Char))
  deriving Repr, DecidableEq, BEq, Inhabited

abbrev Pattern := List PatternPart

def classRanges (name : String) : List (Char × Char) :=
  match name with
  | "digit" => [('0', '9')]
  | "lower" => [('a', 'z')]
  | "upper" => [('A', 'Z')]
  | "alpha" => [('a', 'z'), ('A', 'Z')]
  | "alnum" => [('a', 'z'), ('A', 'Z'), ('0', '9')]
  | "xdigit" => [('a', 'f'), ('A', 'F'), ('0', '9')]
  | "blank" => [(' ', ' '), ('\t', '\t')]
  | "space" => [(' ', ' '), ('\t', '\r')]
  | "punct" => [('!', '/'), (':', '@'), ('[', Char.ofNat 96), ('\x7b', '~')]
  | "print" => [(' ', '~')]
  | "graph" => [('!', '~')]
  | "cntrl" => [('\x00', '\x1f'), ('\x7f', '\x7f')]
  | _ => []

namespace Pattern

/-- The ranges of a set up to its closing bracket, and what follows it. -/
def ranges : Nat → Bool → List (Char × Bool) → Option (List (Char × Char) × List (Char × Bool))
  | 0, _, _ => none
  | _ + 1, _, [] => none
  | fuel + 1, first, (c, quoted) :: rest =>
    if c == ']' && !quoted && !first then some ([], rest)
    else if c == '[' && !quoted && (rest.head?.map (·.1)) == some ':' then
      let name := (rest.tail.map (·.1)).takeWhile (· != ':')
      let after := rest.tail.drop name.length
      if (after.map (·.1)).take 2 == [':', ']'] then
        (ranges fuel false (after.drop 2)).map fun r =>
          (classRanges (String.ofList name) ++ r.1, r.2)
      else (ranges fuel false rest).map fun r => ((c, c) :: r.1, r.2)
    else match rest with
      | ('-', false) :: (d, q) :: more =>
        if d == ']' && !q then (ranges fuel false rest).map fun r => ((c, c) :: r.1, r.2)
        else (ranges fuel false more).map fun r => ((c, d) :: r.1, r.2)
      | _ => (ranges fuel false rest).map fun r => ((c, c) :: r.1, r.2)

/-- The pattern of octets, each with the mark whether it is quoted. -/
def ofMarked : Nat → List (Char × Bool) → Pattern
  | 0, _ => []
  | _ + 1, [] => []
  | fuel + 1, (c, quoted) :: rest =>
    if quoted then .octet c :: ofMarked fuel rest
    else if c == '*' then .anything :: ofMarked fuel rest
    else if c == '?' then .one :: ofMarked fuel rest
    else if c == '[' then
      let (except, inner) := match rest with
        | ('!', false) :: inner => (true, inner)
        | ('^', false) :: inner => (true, inner)
        | _ => (false, rest)
      match ranges (inner.length + 1) true inner with
      | some (found, rest) => .range except found :: ofMarked fuel rest
      | none => .octet c :: ofMarked fuel rest
    else if c == '\\' then
      match rest with
      | (d, _) :: rest => .octet d :: ofMarked fuel rest
      | [] => [.octet c]
    else .octet c :: ofMarked fuel rest

def ofOctets (marked : List (Char × Bool)) : Pattern :=
  ofMarked (marked.length + 1) marked

def admits (part : PatternPart) (c : Char) : Bool :=
  match part with
  | .anything => false
  | .one => true
  | .octet d => c == d
  | .range except ranges => (ranges.any fun r => decide (r.1 ≤ c) && decide (c ≤ r.2)) != except

def isMatch : Pattern → Octets → Bool
  | [], [] => true
  | [], _ :: _ => false
  | .anything :: parts, [] => isMatch parts []
  | .anything :: parts, c :: rest => isMatch parts (c :: rest) || isMatch (.anything :: parts) rest
  | _ :: _, [] => false
  | part :: parts, c :: rest => admits part c && isMatch parts rest
termination_by p cs => p.length + cs.length

def isActive (p : Pattern) : Bool :=
  p.any fun part => match part with
    | .octet _ => false
    | _ => true

def octets (p : Pattern) : Octets :=
  p.filterMap fun part => match part with
    | .octet c => some c
    | _ => none

end Pattern

end LineCompletion.Shell

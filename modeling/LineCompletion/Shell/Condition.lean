import LineCompletion.Shell.Format
import LineCompletion.Shell.State

/-!
# Conditions

The conditions that `test` decides: on texts, numbers and files, joined by operators.
-/

namespace LineCompletion.Shell

def decimal? (text : Octets) : Option Int :=
  let n := readInteger (-(Nat.pow 2 63 : Int)) (Nat.pow 2 63 - 1) text
  let body := (Expression.skipBlanks text).reverse.dropWhile fun c => c == ' ' || c == '\t'
  let body := body.reverse
  let (negative, digits) := match body with
    | '-' :: rest => (true, rest)
    | '+' :: rest => (false, rest)
    | rest => (false, rest)
  match Octets.digits? digits with
  | some m => if n.fits then some (if negative then -(m : Int) else m) else none
  | none => none

namespace Condition

def unaries : List String :=
  ["-n", "-z", "-e", "-f", "-d", "-s", "-r", "-w", "-x", "-h", "-L", "-p", "-S", "-b", "-c", "-t",
    "-u", "-g", "-k", "-O", "-G"]

/-- The operators between two texts, numbers or files. -/
def binaries : List String :=
  ["=", "!=", "<", ">", "-eq", "-ne", "-lt", "-le", "-gt", "-ge", "-nt", "-ot", "-ef"]

/-- Decides an operator on one file or text. -/
def unary (s : State) (op : String) (operand : Octets) : Bool :=
  let path := Octets.toText operand
  let entry : Option FileEntry := (s.files.find path).toOption.map (·.2)
  match op with
  | "-n" => !operand.isEmpty
  | "-z" => operand.isEmpty
  | "-f" => s.files.isFile path
  | "-d" => s.files.isDirectory path
  | "-s" => match entry with
    | some (.file content) => !content.isEmpty
    | some .directory => true
    | none => false
  | "-e" | "-r" | "-w" | "-O" | "-G" => entry.isSome
  | "-x" => entry == some .directory
  | _ => false

/-- Decides an operator between two texts or numbers. -/
def binary (a : Octets) (op : String) (b : Octets) : Except Octets Bool :=
  let compare (f : Int → Int → Bool) : Except Octets Bool :=
    match decimal? a, decimal? b with
    | none, _ => .error ("Illegal number: ".toList ++ a)
    | _, none => .error ("Illegal number: ".toList ++ b)
    | some m, some n => .ok (f m n)
  match op with
  | "=" => .ok (a == b)
  | "!=" => .ok (a != b)
  | "<" => .ok (decide (a < b))
  | ">" => .ok (decide (b < a))
  | "-eq" => compare (· == ·)
  | "-ne" => compare (· != ·)
  | "-lt" => compare fun m n => decide (m < n)
  | "-le" => compare fun m n => decide (m ≤ n)
  | "-gt" => compare fun m n => decide (n < m)
  | "-ge" => compare fun m n => decide (n ≤ m)
  | _ => .ok false

def isOne (ops : List String) (text : Octets) : Bool :=
  ops.any fun o => o.toList == text

mutual

/-- Decides conditions of which one must hold. -/
def either (s : State) : Nat → List Octets → Except Octets (Bool × List Octets)
  | 0, _ => .error "too deep".toList
  | fuel + 1, ts =>
    match both s fuel ts with
    | .error e => .error e
    | .ok (a, ['-', 'o'] :: rest) => (either s fuel rest).map fun r => (a || r.1, r.2)
    | .ok r => .ok r

/-- Decides conditions that must all hold. -/
def both (s : State) : Nat → List Octets → Except Octets (Bool × List Octets)
  | 0, _ => .error "too deep".toList
  | fuel + 1, ts =>
    match single s fuel ts with
    | .error e => .error e
    | .ok (a, ['-', 'a'] :: rest) => (both s fuel rest).map fun r => (a && r.1, r.2)
    | .ok r => .ok r

def single (s : State) : Nat → List Octets → Except Octets (Bool × List Octets)
  | 0, _ => .error "too deep".toList
  | fuel + 1, ts =>
    match ts with
    | [] => .error "argument expected".toList
    | a :: op :: b :: rest =>
      if isOne binaries op then (binary a (String.ofList op) b).map fun r => (r, rest)
      else prefixed s fuel ts
    | _ => prefixed s fuel ts

/-- Decides a condition that begins with an operator, or a text. -/
def prefixed (s : State) : Nat → List Octets → Except Octets (Bool × List Octets)
  | 0, _ => .error "too deep".toList
  | fuel + 1, ts =>
    match ts with
    | [] => .error "argument expected".toList
    | [a] => .ok (!a.isEmpty, [])
    | a :: b :: rest =>
      if a == ['!'] then (single s fuel (b :: rest)).map fun r => (!r.1, r.2)
      else if a == ['('] then
        match either s fuel (b :: rest) with
        | .error e => .error e
        | .ok (r, [')'] :: rest) => .ok (r, rest)
        | .ok _ => .error "closing paren expected".toList
      else if isOne unaries a then .ok (unary s (String.ofList a) b, rest)
      else .ok (!a.isEmpty, b :: rest)

end

def decide? (s : State) (arguments : List Octets) : Except Octets Bool :=
  if arguments.isEmpty then .ok false
  else match either s (8 * arguments.length + 8) arguments with
    | .error e => .error e
    | .ok (r, []) => .ok r
    | .ok (_, rest) =>
      let last := arguments.length - rest.length - 1
      .error (arguments.getD last [] ++ ": unexpected operator".toList)

end Condition

end LineCompletion.Shell

import LineCompletion.Shell.Word

/-!
# Expressions

Arithmetic on whole numbers of 64 bits, which wrap around. A division drops the fraction.
-/

namespace LineCompletion.Shell

inductive BinaryOperator where
  | or | and | bitOr | bitXor | bitAnd | equal | different | less | atMost | greater | atLeast
  | shiftLeft | shiftRight | plus | minus | times | divide | remainder
  deriving Repr, DecidableEq, BEq, Inhabited

inductive UnaryOperator where
  | plus | minus | not | complement
  deriving Repr, DecidableEq, BEq, Inhabited

inductive Expression where
  | number (n : Int)
  | variable (name : Octets)
  | unary (op : UnaryOperator) (e : Expression)
  | binary (op : BinaryOperator) (a b : Expression)
  | choose (test yes no : Expression)
  | assign (name : Octets) (op : Option BinaryOperator) (e : Expression)
  deriving Repr, DecidableEq, BEq, Inhabited

inductive ExpressionError where
  | noPrimary
  | trailing
  | divisionByZero
  | illegalNumber (text : Octets)
  deriving Repr, DecidableEq, BEq, Inhabited

inductive ExpressionToken where
  | number (n : Int)
  | name (text : Octets)
  | symbol (text : String)
  deriving Repr, DecidableEq, BEq, Inhabited

namespace Expression

def wrap (n : Int) : Int :=
  Int.bmod n UInt64.size

def digitValue (c : Char) : Option Nat :=
  if c.isDigit then some (c.toNat - 48)
  else if 'a' ≤ c && c ≤ 'f' then some (c.toNat - 87)
  else if 'A' ≤ c && c ≤ 'F' then some (c.toNat - 55)
  else none

def ofDigits (base : Nat) (digits : Octets) : Option Nat :=
  digits.foldl (fun acc c => acc.bind fun n =>
    ((digitValue c).filter (· < base)).map (n * base + ·)) (some 0)

/-- The number that octets without a sign write: in base 16 after 0x, in base 8 after 0. -/
def natural? (text : Octets) : Option Nat :=
  match text with
  | [] => none
  | '0' :: 'x' :: digits | '0' :: 'X' :: digits =>
    if digits.isEmpty then none else ofDigits 16 digits
  | '0' :: digits => ofDigits 8 digits
  | digits => ofDigits 10 digits

def skipBlanks (text : Octets) : Octets :=
  text.dropWhile fun c => c == ' ' || ('\t' ≤ c && c ≤ '\r')

/-- The number that octets write, with a sign or without. -/
def integer? (text : Octets) : Option Int :=
  match skipBlanks text with
  | '-' :: digits => (natural? digits).map fun n => -(n : Int)
  | '+' :: digits => (natural? digits).map Int.ofNat
  | digits => (natural? digits).map Int.ofNat

/-- The symbols of expressions, longer ones first. -/
def symbols : List String :=
  ["<<=", ">>=", "||", "&&", "==", "!=", "<=", ">=", "<<", ">>", "+=", "-=", "*=", "/=", "%=", "&=",
    "|=", "^=", "|", "^", "&", "<", ">", "+", "-", "*", "/", "%", "!", "~", "(", ")", "?", ":", "="]

def tokens : Nat → Octets → Option (List ExpressionToken)
  | 0, _ => none
  | _ + 1, [] => some []
  | fuel + 1, c :: rest =>
    if c == ' ' || c == '\t' || c == '\n' then tokens fuel rest
    else if c.isDigit then
      let digits := (c :: rest).takeWhile Char.isAlphanum
      match natural? digits with
      | none => none
      | some n => (tokens fuel ((c :: rest).drop digits.length)).map (.number n :: ·)
    else if isNameStart c then
      let name := (c :: rest).takeWhile isNameRest
      (tokens fuel ((c :: rest).drop name.length)).map (.name name :: ·)
    else match symbols.find? fun s => s.toList.isPrefixOf (c :: rest) with
      | none => none
      | some s => (tokens fuel ((c :: rest).drop s.length)).map (.symbol s :: ·)

/-- The operator of a symbol and how tightly it binds. -/
def binary? (symbol : String) : Option (BinaryOperator × Nat) :=
  match symbol with
  | "||" => some (.or, 1)
  | "&&" => some (.and, 2)
  | "|" => some (.bitOr, 3)
  | "^" => some (.bitXor, 4)
  | "&" => some (.bitAnd, 5)
  | "==" => some (.equal, 6)
  | "!=" => some (.different, 6)
  | "<" => some (.less, 7)
  | "<=" => some (.atMost, 7)
  | ">" => some (.greater, 7)
  | ">=" => some (.atLeast, 7)
  | "<<" => some (.shiftLeft, 8)
  | ">>" => some (.shiftRight, 8)
  | "+" => some (.plus, 9)
  | "-" => some (.minus, 9)
  | "*" => some (.times, 10)
  | "/" => some (.divide, 10)
  | "%" => some (.remainder, 10)
  | _ => none

def assignment? (symbol : String) : Option (Option BinaryOperator) :=
  if symbol == "=" then some none
  else if symbol.toList.getLast? == some '=' then
    (binary? (String.ofList symbol.toList.dropLast)).map fun r => some r.1
  else none

mutual

def readWhole : Nat → List ExpressionToken →
    Except ExpressionError (Expression × List ExpressionToken)
  | 0, _ => .error .noPrimary
  | fuel + 1, ts =>
    match ts with
    | .name name :: .symbol symbol :: rest =>
      match assignment? symbol with
      | some op => (readWhole fuel rest).map fun r => (.assign name op r.1, r.2)
      | none => readChoice fuel ts
    | _ => readChoice fuel ts

def readChoice : Nat → List ExpressionToken →
    Except ExpressionError (Expression × List ExpressionToken)
  | 0, _ => .error .noPrimary
  | fuel + 1, ts =>
    match readBinary fuel 1 ts with
    | .error e => .error e
    | .ok (test, .symbol "?" :: rest) =>
      match readWhole fuel rest with
      | .error e => .error e
      | .ok (yes, .symbol ":" :: rest) =>
        (readChoice fuel rest).map fun r => (.choose test yes r.1, r.2)
      | .ok _ => .error .noPrimary
    | .ok r => .ok r

/-- Reads operators that bind at least so tightly. -/
def readBinary : Nat → Nat → List ExpressionToken →
    Except ExpressionError (Expression × List ExpressionToken)
  | 0, _, _ => .error .noPrimary
  | fuel + 1, least, ts =>
    match readUnary fuel ts with
    | .error e => .error e
    | .ok (a, rest) => readBinaryMore fuel least a rest

def readBinaryMore : Nat → Nat → Expression → List ExpressionToken →
    Except ExpressionError (Expression × List ExpressionToken)
  | 0, _, _, _ => .error .noPrimary
  | fuel + 1, least, a, ts =>
    match ts with
    | .symbol symbol :: rest =>
      match binary? symbol with
      | some (op, level) =>
        if level < least then .ok (a, ts)
        else match readBinary fuel (level + 1) rest with
          | .error e => .error e
          | .ok (b, rest) => readBinaryMore fuel least (.binary op a b) rest
      | none => .ok (a, ts)
    | _ => .ok (a, ts)

def readUnary : Nat → List ExpressionToken →
    Except ExpressionError (Expression × List ExpressionToken)
  | 0, _ => .error .noPrimary
  | fuel + 1, ts =>
    match ts with
    | .number n :: rest => .ok (.number n, rest)
    | .name name :: rest => .ok (.variable name, rest)
    | .symbol "(" :: rest =>
      match readWhole fuel rest with
      | .error e => .error e
      | .ok (e, .symbol ")" :: rest) => .ok (e, rest)
      | .ok _ => .error .noPrimary
    | .symbol "+" :: rest => (readUnary fuel rest).map fun r => (.unary .plus r.1, r.2)
    | .symbol "-" :: rest => (readUnary fuel rest).map fun r => (.unary .minus r.1, r.2)
    | .symbol "!" :: rest => (readUnary fuel rest).map fun r => (.unary .not r.1, r.2)
    | .symbol "~" :: rest => (readUnary fuel rest).map fun r => (.unary .complement r.1, r.2)
    | _ => .error .noPrimary

end

/-- Reads an expression; an empty one is zero. -/
def parse (text : Octets) : Except ExpressionError Expression :=
  match tokens (text.length + 1) text with
  | none => .error .trailing
  | some [] => .ok (.number 0)
  | some ts =>
    match readWhole (16 * ts.length + 16) ts with
    | .error e => .error e
    | .ok (e, []) => .ok e
    | .ok _ => .error .trailing

def ofBool (b : Bool) : Int :=
  if b then 1 else 0

/-- The value of an operator in front of a number. -/
def applyUnary (op : UnaryOperator) (n : Int) : Int :=
  match op with
  | .plus => n
  | .minus => wrap (-n)
  | .not => ofBool (n == 0)
  | .complement => -n - 1

def onBits (f : UInt64 → UInt64 → UInt64) (a b : Int) : Int :=
  wrap (f (UInt64.ofNat (a % UInt64.size).toNat) (UInt64.ofNat (b % UInt64.size).toNat)).toNat

/-- The value of an operator between two numbers. -/
def applyBinary (op : BinaryOperator) (a b : Int) : Except ExpressionError Int :=
  match op with
  | .or => .ok (ofBool (a != 0 || b != 0))
  | .and => .ok (ofBool (a != 0 && b != 0))
  | .bitOr => .ok (onBits (· ||| ·) a b)
  | .bitXor => .ok (onBits (· ^^^ ·) a b)
  | .bitAnd => .ok (onBits (· &&& ·) a b)
  | .equal => .ok (ofBool (a == b))
  | .different => .ok (ofBool (a != b))
  | .less => .ok (ofBool (decide (a < b)))
  | .atMost => .ok (ofBool (decide (a ≤ b)))
  | .greater => .ok (ofBool (decide (b < a)))
  | .atLeast => .ok (ofBool (decide (b ≤ a)))
  | .shiftLeft => .ok (wrap (a * Nat.pow 2 (b % 64).toNat))
  | .shiftRight => .ok (Int.fdiv a (Nat.pow 2 (b % 64).toNat))
  | .plus => .ok (wrap (a + b))
  | .minus => .ok (wrap (a - b))
  | .times => .ok (wrap (a * b))
  | .divide => if b == 0 then .error .divisionByZero else .ok (wrap (Int.tdiv a b))
  | .remainder => if b == 0 then .error .divisionByZero else .ok (Int.tmod a b)

def variableValue (bindings : List (Octets × Octets)) (name : Octets) :
    Except ExpressionError Int :=
  match bindings.lookup name with
  | none => .ok 0
  | some text =>
    if (skipBlanks text).isEmpty then .ok 0
    else match integer? text with
      | some n => .ok (wrap n)
      | none => .error (.illegalNumber text)

/-- The value of an expression, and the variables after it. -/
def evaluate (bindings : List (Octets × Octets)) :
    Expression → Except ExpressionError (Int × List (Octets × Octets))
  | .number n => .ok (wrap n, bindings)
  | .variable name => (variableValue bindings name).map fun n => (n, bindings)
  | .unary op e => (evaluate bindings e).map fun r => (applyUnary op r.1, r.2)
  | .binary op a b =>
    match evaluate bindings a with
    | .error e => .error e
    | .ok (m, bindings) =>
      if op == .or && m != 0 then .ok (1, bindings)
      else if op == .and && m == 0 then .ok (0, bindings)
      else match evaluate bindings b with
        | .error e => .error e
        | .ok (n, bindings) => (applyBinary op m n).map fun r => (r, bindings)
  | .choose test yes no =>
    match evaluate bindings test with
    | .error e => .error e
    | .ok (n, bindings) =>
      if n != 0 then evaluate bindings yes else evaluate bindings no
  | .assign name op e =>
    match evaluate bindings e with
    | .error e => .error e
    | .ok (n, bindings) =>
      let value : Except ExpressionError Int := match op with
        | none => .ok n
        | some op =>
          match variableValue bindings name with
          | .error e => .error e
          | .ok m => applyBinary op m n
      value.map fun n =>
        (n, (name, Octets.ofInt n) :: bindings.filter fun e => e.1 != name)

/-- What the shell says of an expression without a value. -/
def errorText (text : Octets) (e : ExpressionError) : Octets :=
  let about (problem : String) : Octets :=
    ("arithmetic expression: " ++ problem ++ ": \"").toList ++ text ++ ['"']
  match e with
  | .noPrimary => about "expecting primary"
  | .trailing => about "expecting EOF"
  | .divisionByZero => about "division by zero"
  | .illegalNumber written => "Illegal number: ".toList ++ written

end Expression

end LineCompletion.Shell

import LineCompletion.Shell.Script

/-!
# Words of scripts

How quotes, backslashes and dollar signs make up a word.
-/

namespace LineCompletion.Shell

/-- Why a script cannot be read. -/
inductive ScriptFlaw where
  | openQuote
  | openBackquote
  | openBrace
  | openExpression
  | badSubstitution
  | badLoopVariable
  | badFunctionName
  | unexpected (found : String) (wanted : Option String)
  deriving Repr, DecidableEq, BEq, Inhabited

def ScriptFlaw.message : ScriptFlaw → String
  | .openQuote => "Syntax error: Unterminated quoted string"
  | .openBackquote => "Syntax error: EOF in backquote substitution"
  | .openBrace => "Syntax error: Missing '\x7d'"
  | .openExpression => "Syntax error: Missing '))'"
  | .badSubstitution => "Bad substitution"
  | .badLoopVariable => "Syntax error: Bad for loop variable"
  | .badFunctionName => "Syntax error: Bad function name"
  | .unexpected found none => "Syntax error: " ++ found ++ " unexpected"
  | .unexpected found (some wanted) =>
    "Syntax error: " ++ found ++ " unexpected (expecting " ++ wanted ++ ")"

def isNameStart (c : Char) : Bool :=
  c.isAlpha || c == '_'

def isNameRest (c : Char) : Bool :=
  c.isAlphanum || c == '_'

def isName (text : Octets) : Bool :=
  match text with
  | [] => false
  | c :: rest => isNameStart c && rest.all isNameRest

/-- Whether an octet after a dollar sign is a parameter of its own. -/
def isSpecial (c : Char) : Bool :=
  ['@', '*', '#', '?', '-', '$', '!'].contains c

def endsWord (c : Char) : Bool :=
  [' ', '\t', '\n', ';', '&', '|', '<', '>', '(', ')'].contains c

/-- Takes the octets up to the mark that closes the last of some open brackets and quotes, whose
closing marks are given innermost first. -/
def upToClosing : List Char → Octets → Octets → Option (Octets × Octets)
  | [], taken, cs => some (taken.reverse, cs)
  | _ :: _, _, [] => none
  | '\'' :: outer, taken, c :: rest =>
    if c == '\'' then
      if outer.isEmpty then some (taken.reverse, rest) else upToClosing outer (c :: taken) rest
    else upToClosing ('\'' :: outer) (c :: taken) rest
  | close :: outer, taken, '\\' :: c :: rest =>
    upToClosing (close :: outer) (c :: '\\' :: taken) rest
  | close :: outer, taken, c :: rest =>
    if c == close then
      if outer.isEmpty then some (taken.reverse, rest) else upToClosing outer (c :: taken) rest
    else
      let inner :=
        if c == '"' then ['"']
        else if c == '(' && (close == ')' || taken.head? == some '$') then [')']
        else if c == '\x7b' && taken.head? == some '$' then ['\x7d']
        else if c == '\'' && close != '"' && outer.head? != some '"' then ['\'']
        else if c == Char.ofNat 96 then [c]
        else []
      upToClosing (inner ++ close :: outer) (c :: taken) rest

/-- The octets of a script in backquotes, in which some backslashes are dropped. -/
def unescapeBackquoted (quoted : Bool) : Octets → Octets
  | '\\' :: c :: rest =>
    if c == '\\' || c == '$' || c == Char.ofNat 96 || (quoted && c == '"') then
      c :: unescapeBackquoted quoted rest
    else '\\' :: c :: unescapeBackquoted quoted rest
  | c :: rest => c :: unescapeBackquoted quoted rest
  | [] => []

def parameterRule? : Octets → Option ParameterRule
  | [] => some .value
  | ':' :: '-' :: text => some (.orElse true text)
  | ':' :: '=' :: text => some (.orSet true text)
  | ':' :: '?' :: text => some (.orFail true text)
  | ':' :: '+' :: text => some (.andThen true text)
  | '-' :: text => some (.orElse false text)
  | '=' :: text => some (.orSet false text)
  | '?' :: text => some (.orFail false text)
  | '+' :: text => some (.andThen false text)
  | '%' :: '%' :: pattern => some (.dropEnd true pattern)
  | '%' :: pattern => some (.dropEnd false pattern)
  | '#' :: '#' :: pattern => some (.dropStart true pattern)
  | '#' :: pattern => some (.dropStart false pattern)
  | _ => none

def parameterName (text : Octets) : Octets × Octets :=
  match text with
  | [] => ([], [])
  | c :: rest =>
    if isNameStart c then (text.takeWhile isNameRest, text.dropWhile isNameRest)
    else if c.isDigit then (text.takeWhile Char.isDigit, text.dropWhile Char.isDigit)
    else if isSpecial c then ([c], rest)
    else ([], text)

def bracedParameter (quoted : Bool) (text : Octets) : Except ScriptFlaw Segment :=
  match text with
  | '#' :: c :: rest =>
    let (name, more) := parameterName (c :: rest)
    if !name.isEmpty && more.isEmpty then .ok (.parameter name .size quoted)
    else match parameterRule? (c :: rest) with
      | some rule => .ok (.parameter ['#'] rule quoted)
      | none => .error .badSubstitution
  | _ =>
    let (name, more) := parameterName text
    if name.isEmpty then .error .badSubstitution
    else match parameterRule? more with
      | some rule => .ok (.parameter name rule quoted)
      | none => .error .badSubstitution

def readDollar (quoted : Bool) (cs : Octets) : Except ScriptFlaw (Segment × Octets) :=
  match cs with
  | '(' :: '(' :: rest =>
    match upToClosing [')', ')'] [] rest with
    | none => .error .openExpression
    | some (text, rest) => .ok (.arithmetic text.dropLast quoted, rest)
  | '(' :: rest =>
    match upToClosing [')'] [] rest with
    | none => .error (.unexpected "end of file" (some "\")\""))
    | some (script, rest) => .ok (.command script quoted, rest)
  | '\x7b' :: rest =>
    match upToClosing ['\x7d'] [] rest with
    | none => .error .openBrace
    | some (text, rest) => (bracedParameter quoted text).map fun s => (s, rest)
  | c :: rest =>
    if c.isDigit then .ok (.parameter [c] .value quoted, rest)
    else
      let (name, more) := parameterName cs
      if name.isEmpty then .ok (.text ['$'] quoted, cs)
      else .ok (.parameter name .value quoted, more)
  | [] => .ok (.text ['$'] quoted, [])

def readBackquoted (quoted : Bool) (cs : Octets) : Except ScriptFlaw (Segment × Octets) :=
  match upToClosing [Char.ofNat 96] [] cs with
  | none => .error .openBackquote
  | some (text, rest) => .ok (.command (unescapeBackquoted quoted text) quoted, rest)

/-- Puts texts next to each other together. -/
def joinTexts : List Segment → Word
  | .text a p :: rest =>
    match joinTexts rest with
    | .text b q :: more =>
      if p == q then .text (a ++ b) p :: more else .text a p :: .text b q :: more
    | more => .text a p :: more
  | s :: rest => s :: joinTexts rest
  | [] => []

/-- What a double quote does among octets that are quoted. -/
inductive QuoteRole where
  | closes
  | plain
  | dropped
  deriving Repr, DecidableEq, BEq, Inhabited

/-- Reads octets in which only dollar signs, backquotes and some backslashes are special, up to a
quote that ends them or to the end. -/
def readQuoted (role : QuoteRole) : Nat → Octets → List Segment →
    Except ScriptFlaw (List Segment × Octets)
  | 0, _, _ => .error .openQuote
  | _ + 1, [], taken => if role == .closes then .error .openQuote else .ok (taken, [])
  | fuel + 1, '\\' :: c :: rest, taken =>
    if c == '\n' then readQuoted role fuel rest taken
    else if c == '\\' || c == '$' || c == Char.ofNat 96 || (role != .plain && c == '"') then
      readQuoted role fuel rest (.text [c] true :: taken)
    else readQuoted role fuel rest (.text ['\\', c] true :: taken)
  | fuel + 1, c :: rest, taken =>
    if c == '"' && role == .closes then .ok (taken, rest)
    else if c == '"' && role == .dropped then readQuoted role fuel rest taken
    else if c == '$' then
      match readDollar true rest with
      | .error e => .error e
      | .ok (s, rest) => readQuoted role fuel rest (s :: taken)
    else if c == Char.ofNat 96 then
      match readBackquoted true rest with
      | .error e => .error e
      | .ok (s, rest) => readQuoted role fuel rest (s :: taken)
    else readQuoted role fuel rest (.text [c] true :: taken)

/-- Reads the parts of a word, last first, up to an octet that ends it or to the end of all. -/
def readParts (toEnd : Bool) : Nat → Octets → List Segment →
    Except ScriptFlaw (List Segment × Octets)
  | 0, cs, taken => .ok (taken, cs)
  | _ + 1, [], taken => .ok (taken, [])
  | fuel + 1, c :: rest, taken =>
    if endsWord c && !toEnd then .ok (taken, c :: rest)
    else if c == '\\' then
      match rest with
      | [] => readParts toEnd fuel [] (.text ['\\'] false :: taken)
      | d :: rest =>
        if d == '\n' then readParts toEnd fuel rest taken
        else readParts toEnd fuel rest (.text [d] true :: taken)
    else if c == '\'' then
      match upToClosing ['\''] [] rest with
      | none => .error .openQuote
      | some (text, rest) => readParts toEnd fuel rest (.text text true :: taken)
    else if c == '"' then
      match readQuoted .closes (rest.length + 1) rest (.text [] true :: taken) with
      | .error e => .error e
      | .ok (taken, rest) => readParts toEnd fuel rest taken
    else if c == '$' then
      match readDollar false rest with
      | .error e => .error e
      | .ok (s, rest) => readParts toEnd fuel rest (s :: taken)
    else if c == Char.ofNat 96 then
      match readBackquoted false rest with
      | .error e => .error e
      | .ok (s, rest) => readParts toEnd fuel rest (s :: taken)
    else readParts toEnd fuel rest (.text [c] false :: taken)

def readWord (cs : Octets) : Except ScriptFlaw (Word × Octets) :=
  (readParts false (cs.length + 1) cs []).map fun r => (joinTexts r.1.reverse, r.2)

def wholeWord (cs : Octets) : Except ScriptFlaw Word :=
  (readParts true (cs.length + 1) cs []).map fun r => joinTexts r.1.reverse

def quotedWord (role : QuoteRole) (cs : Octets) : Except ScriptFlaw Word :=
  (readQuoted role (cs.length + 1) cs []).map fun r => joinTexts r.1.reverse

/-- The octets of a word in which nothing is special. -/
def literal? : Word → Option Octets
  | [.text text false] => some text
  | _ => none

/-- The octets of a word without its quotes, and whether there were any. -/
def bare (w : Word) : Octets × Bool :=
  w.foldl (fun acc s => match s with
    | .text text quoted => (acc.1 ++ text, acc.2 || quoted)
    | _ => acc) ([], false)

end LineCompletion.Shell

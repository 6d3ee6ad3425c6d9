import LineCompletion.Shell.Token

/-!
# Reading scripts

Commands from tokens. A script is read a line at a time, so that the lines before a flaw are run.
-/

namespace LineCompletion.Shell

/-- A part read from tokens, with the tokens that follow it. -/
abbrev Reading (α : Type) := Except ScriptFlaw (α × List ScriptToken)

/-- The words that are special where a command may begin. -/
def reserved : List String :=
  ["if", "then", "elif", "else", "fi", "while", "until", "do", "done", "for", "in", "case", "esac",
    "!", "\x7b", "\x7d"]

/-- The reserved words and operators that end a list of commands. -/
def closers : List String :=
  ["then", "elif", "else", "fi", "do", "done", "esac", "\x7d", ")", ";;"]

def redirections : List String :=
  ["<", ">", ">>", "<&", ">&", "<>", ">|"]

def TokenKind.mark? : TokenKind → Option String
  | .operator symbol => some symbol
  | .word w =>
    match literal? w with
    | none => none
    | some text =>
      let s := String.ofList text
      if reserved.contains s then some s else none
  | _ => none

/-- How messages call a token; reserved words count only where they are looked for. -/
def TokenKind.describe (kind : TokenKind) (keywords : Bool) : String :=
  match kind with
  | .newline => "newline"
  | .descriptor _ | .document _ => "redirection"
  | .operator symbol =>
    if redirections.contains symbol then "redirection" else "\"" ++ symbol ++ "\""
  | .word _ =>
    match kind.mark? with
    | some mark => if keywords then "\"" ++ mark ++ "\"" else "word"
    | none => "word"
  | .flaw _ => "end of file"

def refuse {α : Type} (keywords : Bool) (wanted : Option String) (ts : List ScriptToken) :
    Except ScriptFlaw α :=
  match ts with
  | [] => .error (.unexpected "end of file" wanted)
  | ⟨_, .flaw e⟩ :: _ => .error e
  | t :: _ => .error (.unexpected (t.kind.describe keywords) wanted)

def nextMark (ts : List ScriptToken) : Option String :=
  ts.head?.bind fun t => t.kind.mark?

def expect (mark : String) (ts : List ScriptToken) : Except ScriptFlaw (List ScriptToken) :=
  if nextMark ts == some mark then .ok ts.tail else refuse true (some ("\"" ++ mark ++ "\"")) ts

def skipNewlines (ts : List ScriptToken) : List ScriptToken :=
  ts.dropWhile fun t => t.kind == .newline

def assignment? : Word → Option (Octets × Word)
  | .text text false :: rest =>
    let name := text.takeWhile isNameRest
    match text.drop name.length with
    | '=' :: value =>
      if isName name then
        some (name, if value.isEmpty then rest else .text value false :: rest)
      else none
    | _ => none
  | _ => none

def readRedirection (documents : List Word) (ts : List ScriptToken) :
    Except ScriptFlaw (Option (Redirection × List ScriptToken)) :=
  let (given, rest) := match ts with
    | ⟨_, .descriptor n⟩ :: rest => (some n, rest)
    | _ => (none, ts)
  match rest with
  | ⟨_, .document index⟩ :: rest =>
    .ok (some (⟨given.getD 0, .document, documents.getD index []⟩, rest))
  | ⟨_, .operator symbol⟩ :: rest =>
    if !redirections.contains symbol then .ok none
    else match rest with
      | ⟨_, .word target⟩ :: more =>
        let (usual, kind) := match symbol with
          | "<" | "<>" => (0, RedirectionKind.read)
          | "<&" => (0, .copy)
          | ">&" => (1, .copy)
          | ">>" => (1, .append)
          | _ => (1, .write)
        .ok (some (⟨given.getD usual, kind, target⟩, more))
      | _ => refuse false none rest
  | _ => .ok none

def readRedirections (documents : List Word) : Nat → List ScriptToken → Reading (List Redirection)
  | 0, ts => .ok ([], ts)
  | fuel + 1, ts =>
    match readRedirection documents ts with
    | .error e => .error e
    | .ok none => .ok ([], ts)
    | .ok (some (r, ts)) =>
      (readRedirections documents fuel ts).map fun rs => (r :: rs.1, rs.2)

def readWords : List ScriptToken → List Word × List ScriptToken
  | ⟨_, .word w⟩ :: rest =>
    let (ws, more) := readWords rest
    (w :: ws, more)
  | ts => ([], ts)

def readPatterns : List ScriptToken → Reading (List Word)
  | ⟨_, .word w⟩ :: ⟨_, .operator "|"⟩ :: rest =>
    (readPatterns rest).map fun r => (w :: r.1, r.2)
  | ⟨_, .word w⟩ :: rest => (expect ")" rest).map fun ts => ([w], ts)
  | ts => refuse false (some "\")\"") ts.tail

def Command.andThen (first : Option Command) (second : Command) : Command :=
  match first with
  | none => second
  | some c => .sequence c second

mutual

/-- Reads the commands of a list. A nested list goes over lines and ends at a closing mark. -/
def readItems (documents : List Word) : Nat → Bool → Bool → Option Command → List ScriptToken →
    Reading Command
  | 0, _, _, _, ts => refuse true none ts
  | fuel + 1, nested, mayEnd, done, ts =>
    let ts := if nested then skipNewlines ts else ts
    let finish (rest : List ScriptToken) : Reading Command := .ok (done.getD .nothing, rest)
    match ts with
    | [] => finish []
    | ⟨_, .newline⟩ :: rest => finish rest
    | _ =>
      if nested && mayEnd && (nextMark ts).any closers.contains then finish ts
      else
        match readAndOr documents fuel ts with
        | .error e => .error e
        | .ok (c, rest) =>
          match nextMark rest, rest with
          | some ";", _ =>
            readItems documents fuel nested true (some (Command.andThen done c)) rest.tail
          | some "&", _ =>
            readItems documents fuel nested true
              (some (Command.andThen done (.background c))) rest.tail
          | _, [] | _, ⟨_, .newline⟩ :: _ =>
            readItems documents fuel nested true (some (Command.andThen done c)) rest
          | _, _ =>
            if nested then .ok (Command.andThen done c, rest) else refuse true none rest

def readAndOr (documents : List Word) : Nat → List ScriptToken → Reading Command
  | 0, ts => refuse true none ts
  | fuel + 1, ts =>
    match readPipeline documents fuel ts with
    | .error e => .error e
    | .ok (c, rest) => readAndOrMore documents fuel c rest

def readAndOrMore (documents : List Word) : Nat → Command → List ScriptToken → Reading Command
  | 0, c, ts => .ok (c, ts)
  | fuel + 1, c, ts =>
    match nextMark ts with
    | some "&&" =>
      match readPipeline documents fuel (skipNewlines ts.tail) with
      | .error e => .error e
      | .ok (d, rest) => readAndOrMore documents fuel (.both c d) rest
    | some "||" =>
      match readPipeline documents fuel (skipNewlines ts.tail) with
      | .error e => .error e
      | .ok (d, rest) => readAndOrMore documents fuel (.either c d) rest
    | _ => .ok (c, ts)

def readPipeline (documents : List Word) : Nat → List ScriptToken → Reading Command
  | 0, ts => refuse true none ts
  | fuel + 1, ts =>
    if nextMark ts == some "!" then
      (readPipeline documents fuel ts.tail).map fun r => (.negated r.1, r.2)
    else readPiped documents fuel ts

def readPiped (documents : List Word) : Nat → List ScriptToken → Reading Command
  | 0, ts => refuse true none ts
  | fuel + 1, ts =>
    match readCommand documents fuel ts with
    | .error e => .error e
    | .ok (c, rest) =>
      if nextMark rest == some "|" then
        (readPiped documents fuel (skipNewlines rest.tail)).map fun r => (.pipe c r.1, r.2)
      else .ok (c, rest)

/-- Reads a command. -/
def readCommand (documents : List Word) : Nat → List ScriptToken → Reading Command
  | 0, ts => refuse true none ts
  | fuel + 1, ts =>
    let line := (ts.head?.map (·.line)).getD 1
    let wrap (r : Reading Command) : Reading Command :=
      match r with
      | .error e => .error e
      | .ok (c, rest) =>
        match readRedirections documents rest.length rest with
        | .error e => .error e
        | .ok ([], rest) => .ok (c, rest)
        | .ok (rs, rest) => .ok (.redirected c rs, rest)
    let block (first second : String) (ts : List ScriptToken) : Reading (Command × Command) :=
      match readItems documents fuel true false none ts with
      | .error e => .error e
      | .ok (test, rest) =>
        match expect first rest with
        | .error e => .error e
        | .ok rest =>
          match readItems documents fuel true false none rest with
          | .error e => .error e
          | .ok (body, rest) =>
            if second.isEmpty then .ok ((test, body), rest)
            else (expect second rest).map fun rest => ((test, body), rest)
    let enclosed (close : String) : Reading Command :=
      match readItems documents fuel true false none ts.tail with
      | .error e => .error e
      | .ok (c, rest) => (expect close rest).map fun rest => (c, rest)
    match nextMark ts with
    | some "if" =>
      wrap (match block "then" "" ts.tail with
        | .error e => .error e
        | .ok ((test, yes), rest) => readElse documents fuel test yes rest)
    | some "while" => wrap ((block "do" "done" ts.tail).map fun r => (.loop false r.1.1 r.1.2, r.2))
    | some "until" => wrap ((block "do" "done" ts.tail).map fun r => (.loop true r.1.1 r.1.2, r.2))
    | some "for" => wrap (readFor documents fuel ts.tail)
    | some "case" =>
      match ts.tail with
      | ⟨_, .word subject⟩ :: rest =>
        match expect "in" (skipNewlines rest) with
        | .error e => .error e
        | .ok rest =>
          wrap ((readArms documents fuel rest).map fun r => (.choice subject r.1, r.2))
      | rest => refuse false none rest
    | some "(" => wrap ((enclosed ")").map fun r => (.subshell r.1, r.2))
    | some "\x7b" => wrap (enclosed "\x7d")
    | some mark =>
      if redirections.contains mark then readSimple documents fuel line ts [] [] []
      else refuse true none ts
    | none =>
      match ts with
      | ⟨_, .word _⟩ :: _ | ⟨_, .descriptor _⟩ :: _ | ⟨_, .document _⟩ :: _ =>
        readSimple documents fuel line ts [] [] []
      | _ => refuse true none ts

/-- Reads what follows the first branch of a choice. -/
def readElse (documents : List Word) : Nat → Command → Command → List ScriptToken → Reading Command
  | 0, _, _, ts => refuse true none ts
  | fuel + 1, test, yes, ts =>
    match nextMark ts with
    | some "elif" =>
      match readItems documents fuel true false none ts.tail with
      | .error e => .error e
      | .ok (other, rest) =>
        match expect "then" rest with
        | .error e => .error e
        | .ok rest =>
          match readItems documents fuel true false none rest with
          | .error e => .error e
          | .ok (then_, rest) =>
            (readElse documents fuel other then_ rest).map fun r => (.branch test yes r.1, r.2)
    | some "else" =>
      match readItems documents fuel true false none ts.tail with
      | .error e => .error e
      | .ok (no, rest) => (expect "fi" rest).map fun rest => (.branch test yes no, rest)
    | _ => (expect "fi" ts).map fun rest => (.branch test yes .nothing, rest)

/-- Reads a loop over words. -/
def readFor (documents : List Word) : Nat → List ScriptToken → Reading Command
  | 0, ts => refuse true none ts
  | fuel + 1, ts =>
    match ts with
    | ⟨_, .word w⟩ :: rest =>
      match (literal? w).filter isName with
      | none => .error .badLoopVariable
      | some name =>
        let rest := skipNewlines rest
        let head : Reading (Option (List Word)) :=
          if nextMark rest == some "in" then
            let (words, more) := readWords rest.tail
            match more with
            | ⟨_, .newline⟩ :: more | ⟨_, .operator ";"⟩ :: more => .ok (some words, more)
            | _ => refuse false none more
          else if nextMark rest == some ";" then .ok (none, rest.tail)
          else .ok (none, rest)
        match head with
        | .error e => .error e
        | .ok (words, rest) =>
          match expect "do" (skipNewlines rest) with
          | .error e => .error e
          | .ok rest =>
            match readItems documents fuel true false none rest with
            | .error e => .error e
            | .ok (body, rest) => (expect "done" rest).map fun rest => (.each name words body, rest)
    | [] => .error .badLoopVariable
    | t :: _ =>
      match t.kind with
      | .flaw e => .error e
      | _ => .error .badLoopVariable

def readArms (documents : List Word) : Nat → List ScriptToken → Reading (List (List Word × Command))
  | 0, ts => refuse true none ts
  | fuel + 1, ts =>
    let ts := skipNewlines ts
    if nextMark ts == some "esac" then .ok ([], ts.tail)
    else
      let ts := if nextMark ts == some "(" then ts.tail else ts
      match readPatterns ts with
      | .error e => .error e
      | .ok (patterns, rest) =>
        match readItems documents fuel true true none rest with
        | .error e => .error e
        | .ok (body, rest) =>
          if nextMark rest == some ";;" then
            (readArms documents fuel rest.tail).map fun r => ((patterns, body) :: r.1, r.2)
          else if nextMark rest == some "esac" then .ok ([(patterns, body)], rest.tail)
          else refuse true (some "\";;\"") rest

/-- Reads a command of assignments, words and redirections, each last first. -/
def readSimple (documents : List Word) : Nat → Nat → List ScriptToken → List (Octets × Word) →
    List Word → List Redirection → Reading Command
  | 0, _, ts, _, _, _ => refuse true none ts
  | fuel + 1, line, ts, assignments, words, rs =>
    let finish : Reading Command :=
      .ok (.simple line assignments.reverse words.reverse rs.reverse, ts)
    match ts with
    | ⟨_, .word w⟩ :: rest =>
      match if words.isEmpty then assignment? w else none with
      | some a => readSimple documents fuel line rest (a :: assignments) words rs
      | none => readSimple documents fuel line rest assignments (w :: words) rs
    | ⟨_, .operator "("⟩ :: rest =>
      match words, assignments, rs with
      | [w], [], [] =>
        match expect ")" rest with
        | .error e => .error e
        | .ok rest =>
          match (literal? w).filter isName with
          | none => .error .badFunctionName
          | some name =>
            (readCommand documents fuel (skipNewlines rest)).map fun r => (.define name r.1, r.2)
      | _, _, _ => finish
    | _ =>
      match readRedirection documents ts with
      | .error e => .error e
      | .ok none => finish
      | .ok (some (r, rest)) => readSimple documents fuel line rest assignments words (r :: rs)

end

/-- Reads the commands of the next line that has some; none at the end of the script. -/
def readLine (script : TokenScript) : Except ScriptFlaw (Option Command × TokenScript) :=
  match skipNewlines script.tokens with
  | [] => .ok (none, { script with tokens := [] })
  | ts =>
    match readItems script.documents (8 * ts.length + 16) false true none ts with
    | .error e => .error e
    | .ok (c, tokens) => .ok (some c, { script with tokens })

def TokenScript.line (script : TokenScript) : Nat :=
  match skipNewlines script.tokens with
  | t :: _ => t.line
  | [] => 1

end LineCompletion.Shell

import LineCompletion.Shell.Word

/-!
# Tokens of scripts

A script as words, operators and ends of lines. A flaw stands as a token where it was found, so that
what comes before it is still read.
-/

namespace LineCompletion.Shell

inductive TokenKind where
  | word (w : Word)
  | operator (symbol : String)
  | descriptor (n : Nat)
  | document (index : Nat)
  | newline
  | flaw (e : ScriptFlaw)
  deriving Repr, DecidableEq, BEq, Inhabited

structure ScriptToken where
  line : Nat
  kind : TokenKind
  deriving Repr, DecidableEq, BEq, Inhabited

/-- A text of the script that is to be read after the end of the line. -/
structure Awaited where
  ending : Octets
  quoted : Bool
  strip : Bool
  deriving Repr, Inhabited

structure TokenScript where
  tokens : List ScriptToken := []
  documents : List Word := []
  deriving Repr, Inhabited

def operators : List String :=
  ["<<-", "&&", "||", ";;", "<<", ">>", "<&", ">&", "<>", ">|", "<", ">", "&", "|", ";", "(", ")"]

def operator? (cs : Octets) : Option (String × Octets) :=
  operators.findSome? fun o =>
    if o.toList.isPrefixOf cs then some (o, cs.drop o.length) else none

/-- The lines of a text up to its end, and what follows. -/
def takeDocument (a : Awaited) : List Octets → Octets × List Octets
  | [] => ([], [])
  | line :: rest =>
    let line := if a.strip then line.dropWhile (· == '\t') else line
    if Octets.chomp line == a.ending then ([], rest)
    else
      let (text, rest) := takeDocument a rest
      (line ++ text, rest)

def takeDocuments : List Awaited → List Octets → Except ScriptFlaw (List Word × List Octets)
  | [], lines => .ok ([], lines)
  | a :: more, lines =>
    let (text, lines) := takeDocument a lines
    let word := if a.quoted then .ok [Segment.text text true] else quotedWord .plain text
    match word with
    | .error e => .error e
    | .ok w => (takeDocuments more lines).map fun r => (w :: r.1, r.2)

/-- Splits a script into tokens. -/
def scan : Nat → Nat → List Awaited → TokenScript → Octets → TokenScript
  | 0, _, _, s, _ => s
  | _ + 1, _, _, s, [] => s
  | fuel + 1, line, awaited, s, c :: rest =>
    let put (kind : TokenKind) : TokenScript := { s with tokens := ⟨line, kind⟩ :: s.tokens }
    let after (more : Octets) : Nat := line + Octets.newlines (c :: rest) - Octets.newlines more
    if c == ' ' || c == '\t' then scan fuel line awaited s rest
    else if c == '\\' && rest.head? == some '\n' then scan fuel (line + 1) awaited s rest.tail
    else if c == '#' then scan fuel line awaited s (rest.dropWhile (· != '\n'))
    else if c == '\n' then
      match takeDocuments awaited (Octets.lines rest) with
      | .error e => put (.flaw e)
      | .ok (words, lines) =>
        let s := { put .newline with documents := s.documents ++ words }
        scan fuel (after lines.flatten) [] s lines.flatten
    else match operator? (c :: rest) with
      | some (symbol, more) =>
        if symbol == "<<" || symbol == "<<-" then
          let from_ := more.dropWhile fun c => c == ' ' || c == '\t'
          match readWord from_ with
          | .error e => put (.flaw e)
          | .ok (w, more) =>
            let (ending, quoted) := bare w
            let index := s.documents.length + awaited.length
            let s := { s with tokens := ⟨line, .document index⟩ :: s.tokens }
            scan fuel (after more) (awaited ++ [⟨ending, quoted, symbol == "<<-"⟩]) s more
        else scan fuel line awaited (put (.operator symbol)) more
      | none =>
        match readWord (c :: rest) with
        | .error e => put (.flaw e)
        | .ok (w, more) =>
          let kind := match literal? w, more with
            | some text, '<' :: _ | some text, '>' :: _ =>
              if text.length == 1 then
                match Octets.digits? text with
                | some n => .descriptor n
                | none => .word w
              else .word w
            | _, _ => .word w
          scan fuel (after more) awaited (put kind) more

/-- The tokens of a script. Texts whose end is missing reach to the end of the script. -/
def TokenScript.ofOctets (cs : Octets) : TokenScript :=
  let s := scan (cs.length + 1) 1 [] {} cs
  { s with tokens := s.tokens.reverse }

end LineCompletion.Shell

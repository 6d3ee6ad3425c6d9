import LineCompletion.Shell.Arithmetic
import LineCompletion.Shell.Pattern
import LineCompletion.Shell.State

/-!
# Expansion

What words stand for: parameters, outputs of scripts and values of expressions are put in, the
result is split into fields, and patterns are replaced by the file names that they match.
-/

namespace LineCompletion.Shell

/-- Where an octet of an expanded word comes from. -/
inductive Mark where
  | quoted
  | plain
  | split
  deriving Repr, DecidableEq, BEq, Inhabited

inductive Piece where
  | octet (c : Char) (mark : Mark)
  | blank
  | absent
  | border
  deriving Repr, DecidableEq, BEq, Inhabited

def marked (mark : Mark) (octets : Octets) : List Piece :=
  octets.map fun c => .octet c mark

def valuePieces (quoted : Bool) (value : Octets) : List Piece :=
  if quoted then .blank :: marked .quoted value else marked .split value

def pieceOctets (pieces : List Piece) : Octets :=
  pieces.filterMap fun p => match p with
    | .octet c _ => some c
    | .border => some ' '
    | _ => none

def pieceMarks (pieces : List Piece) : List (Char × Bool) :=
  pieces.filterMap fun p => match p with
    | .octet c mark => some (c, mark == .quoted)
    | .border => some (' ', true)
    | _ => none

/-- The octets between which values are split. -/
def State.separators (s : State) : Octets :=
  (s.lookup? ['I', 'F', 'S']).getD [' ', '\t', '\n']

def processNumber : Octets :=
  ['1', '0', '0', '0']

def State.parameter? (s : State) (name : Octets) : Option Octets :=
  match name with
  | ['?'] => some (Octets.ofNat s.status)
  | ['#'] => some (Octets.ofNat s.arguments.length)
  | ['$'] => some processNumber
  | ['-'] => some s.options
  | ['!'] => none
  | ['0'] => some s.name
  | _ =>
    match Octets.digits? name with
    | some n => s.arguments[n - 1]?
    | none => s.lookup? name

def argumentPieces (s : State) (joined quoted : Bool) : List Piece :=
  if joined && quoted then
    let separator := match s.lookup? ['I', 'F', 'S'] with
      | none => [' ']
      | some separators => separators.take 1
    valuePieces true (separator.intercalate s.arguments)
  else if s.arguments.isEmpty then if quoted then [.absent] else []
  else [Piece.border].intercalate (s.arguments.map (valuePieces quoted))

/-- What is left of a value without what a pattern matches at one of its ends. -/
def trimMatch (fromEnd longest : Bool) (p : Pattern) (value : Octets) : Octets :=
  let lengths := List.range (value.length + 1)
  let order := if longest then lengths.reverse else lengths
  let found := order.find? fun n =>
    if fromEnd then p.isMatch (value.drop (value.length - n)) else p.isMatch (value.take n)
  match found with
  | none => value
  | some n => if fromEnd then value.take (value.length - n) else value.drop n

/-- How the output of a script is found. -/
abbrev Substitution := State → Octets → Octets × State

/-- The pieces of a word, and the state after they are found. -/
def expandPieces (run : Substitution) : Nat → Bool → State → Word → List Piece × State
  | 0, _, s, _ => ([], { s with flow := .stuck })
  | _ + 1, _, s, [] => ([], s)
  | fuel + 1, inner, s, segment :: rest =>
    let (pieces, s) : List Piece × State :=
      match segment with
      | .text octets true => (.blank :: marked .quoted octets, s)
      | .text octets false => (marked (if inner then .split else .plain) octets, s)
      | .command script quoted =>
        let (output, s) := run s script
        (valuePieces quoted (Octets.trimNewlines output), s)
      | .arithmetic expression quoted =>
        match quotedWord .dropped expression with
        | .error e => ([], s.abort e.message.toList)
        | .ok w =>
          let (pieces, s) := expandPieces run fuel false s w
          let text := pieceOctets pieces
          let result := (Expression.parse text).bind (Expression.evaluate s.bindings)
          match result with
          | .error e => ([], s.abort (Expression.errorText text e))
          | .ok (n, bindings) => (valuePieces quoted (Octets.ofInt n), { s with bindings })
      | .parameter name rule quoted =>
        let value := s.parameter? name
        let all := name == ['@'] || name == ['*']
        let given := if all then (if s.arguments.isEmpty then none else some ['@']) else value
        let plain : List Piece :=
          if all then argumentPieces s (name == ['*']) quoted
          else valuePieces quoted (value.getD [])
        let inText (text : Octets) : List Piece × State :=
          match if quoted then quotedWord .dropped text else wholeWord text with
          | .error e => ([], s.abort e.message.toList)
          | .ok w =>
            let (pieces, s) := expandPieces run fuel (!quoted) s w
            (if quoted then .blank :: pieces else pieces, s)
        let missing (orEmpty : Bool) : Bool := match given with
          | none => true
          | some v => orEmpty && v.isEmpty
        let trimmed (fromEnd longest : Bool) (pattern : Octets) : List Piece × State :=
          match wholeWord pattern with
          | .error e => ([], s.abort e.message.toList)
          | .ok w =>
            let (pieces, s) := expandPieces run fuel false s w
            let p := Pattern.ofOctets (pieceMarks pieces)
            (valuePieces quoted (trimMatch fromEnd longest p (value.getD [])), s)
        let unset := s.hasOption 'u' && !all && value.isNone
        let complain : List Piece × State := ([], s.abort (name ++ ": parameter not set".toList))
        match rule with
        | .value => if unset then complain else (plain, s)
        | .size => (valuePieces quoted (Octets.ofNat (value.getD []).length), s)
        | .orElse orEmpty text => if missing orEmpty then inText text else (plain, s)
        | .andThen orEmpty text =>
        if missing orEmpty then (valuePieces quoted [], s) else inText text
        | .orSet orEmpty text =>
          if missing orEmpty then
            let (pieces, s) := inText text
            let value := pieceOctets pieces
            (valuePieces quoted value, s.setVariable name value)
          else (plain, s)
        | .orFail orEmpty text =>
          if missing orEmpty then
            let (pieces, s) := inText text
            let message := if text.isEmpty then
                if orEmpty then "parameter not set or null".toList else "parameter not set".toList
              else pieceOctets pieces
            ([], s.abort (name ++ ": ".toList ++ message))
          else (plain, s)
        | .dropStart longest pattern => trimmed false longest pattern
        | .dropEnd longest pattern => trimmed true longest pattern
    if !s.isRunning then ([], s)
    else
      let (more, s) := expandPieces run fuel inner s rest
      (pieces ++ more, s)

/-- A word with the home directory in the place of a tilde. -/
def expandTilde (s : State) (w : Word) : Word :=
  match w with
  | .text ('~' :: text) false :: rest =>
    match s.lookup? "HOME".toList with
    | some home =>
      if (text.isEmpty && rest.isEmpty) || text.head? == some '/' then
        .text home true :: .text text false :: rest
      else w
    | none => w
  | _ => w

def expansionDepth : Nat :=
  1000

def expandWord (run : Substitution) (s : State) (w : Word) : List Piece × State :=
  expandPieces run expansionDepth false s (expandTilde s w)

def expandText (run : Substitution) (s : State) (w : Word) : Octets × State :=
  let (pieces, s) := expandWord run s w
  (pieceOctets pieces, s)

/-- A field that is being put together. -/
structure Field where
  octets : List (Char × Bool) := []
  absent : Bool := false
  deriving Repr, Inhabited

/-- The fields put together so far, last first. -/
structure Fields where
  done : List (List (Char × Bool)) := []
  open_ : Option Field := none
  afterBlank : Bool := false
  deriving Repr, Inhabited

namespace Fields

def close (f : Fields) : Fields :=
  match f.open_ with
  | none => f
  | some field =>
    if field.octets.isEmpty && field.absent then { f with open_ := none }
    else { f with done := field.octets :: f.done, open_ := none }

def add (separators : Octets) (f : Fields) (p : Piece) : Fields :=
  let field := f.open_.getD {}
  match p with
  | .blank => { f with open_ := some field }
  | .absent => { f with open_ := some { field with absent := true } }
  | .border => f.close
  | .octet c mark =>
    if mark == .split && separators.contains c then
      if c == ' ' || c == '\t' || c == '\n' then
        if f.open_.isSome then { f.close with afterBlank := true } else f
      else if f.open_.isSome then { f.close with afterBlank := false }
      else if f.afterBlank then { f with afterBlank := false }
      else { f with done := [] :: f.done }
    else
      { f with open_ := some { field with octets := field.octets ++ [(c, mark == .quoted)] },
               afterBlank := false }

def ofPieces (separators : Octets) (pieces : List Piece) : List (List (Char × Bool)) :=
  (pieces.foldl (add separators) {}).close.done.reverse

end Fields

def splitPath : List (Char × Bool) → List (List (Char × Bool))
  | [] => [[]]
  | c :: rest =>
    if c.1 == '/' then [] :: splitPath rest
    else match splitPath rest with
      | [] => [[c]]
      | part :: parts => (c :: part) :: parts

/-- Whether a pattern may match a name; a dot at the start has to be written. -/
def matchesName (p : Pattern) (name : Octets) : Bool :=
  (name.head? != some '.' || p.head? == some (.octet '.')) && p.isMatch name

def pathsFrom (fs : Files) : Octets → List (List (Char × Bool)) → List Octets
  | path, [] => [path]
  | path, part :: more =>
    let slash : Octets := if more.isEmpty then [] else ['/']
    let p := Pattern.ofOctets part
    if !p.isActive then pathsFrom fs (path ++ p.octets ++ slash) more
    else
      let directory := if path.isEmpty then "." else Octets.toText path
      let names := ((fs.list directory).toOption.getD []).map Octets.ofString
      let names := ['.'] :: ['.', '.'] :: names
      let found := (names.filter (matchesName p)).map fun name => path ++ name
      let found := if more.isEmpty then found
        else found.filter fun path => fs.isDirectory (Octets.toText path)
      found.flatMap fun path => pathsFrom fs (path ++ slash) more

/-- The arguments that a field stands for: the paths it matches, or itself. -/
def expandPaths (fs : Files) (field : List (Char × Bool)) : List Octets :=
  if !(Pattern.ofOctets field).isActive then [field.map (·.1)]
  else
    let found := (pathsFrom fs [] (splitPath field)).filter fun path =>
      (fs.find (Octets.toText path)).isOk
    if found.isEmpty then [field.map (·.1)] else found.mergeSort Octets.atMost

def expandWords (run : Substitution) : State → List Word → List Octets × State
  | s, [] => ([], s)
  | s, w :: rest =>
    let (pieces, s) := expandWord run s w
    if !s.isRunning then ([], s)
    else
      let fields := Fields.ofPieces s.separators pieces
      let found := fields.flatMap fun field =>
        if s.hasOption 'f' then [field.map (·.1)] else expandPaths s.files field
      let (more, s) := expandWords run s rest
      (found ++ more, s)

end LineCompletion.Shell

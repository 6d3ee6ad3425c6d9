import LineCompletion.Suggest.Match

/-!
# Arguments of the command line

What the arguments ask for. Options may stand in any order up to the first word of the line to
complete; from there on every argument is a word. An argument that looks like an option but is none
begins the words, or is the value that an option waits for.
-/

namespace LineCompletion.Cli

inductive OutputFormat where
  | text
  | json
  deriving Repr, DecidableEq, BEq, Inhabited

/-- What completion is asked for. -/
structure Completion where
  settings : Option String := none
  dictionaries : List String := []
  directory : Option String := none
  mode : Option MatchMode := none
  rejectExpired : Bool := false
  format : OutputFormat := .text
  seconds : UInt64 := 30
  line : Option String := none
  trailingSpace : Bool := false
  words : List String := []
  deriving Repr, DecidableEq, BEq, Inhabited

/-- What the arguments ask for. -/
inductive Request where
  | complete (c : Completion)
  | validate (paths : List String)
  | list (paths : List String)
  | help
  | version
  deriving Repr, DecidableEq, BEq, Inhabited

inductive OptionName where
  | settings | dictionary | directory | mode | format | seconds | line
  | rejectExpired | trailingSpace | verbose | help | version
  deriving Repr, DecidableEq, BEq, Inhabited

namespace OptionName

def takesValue : OptionName → Bool
  | .settings | .dictionary | .directory | .mode | .format | .seconds | .line => true
  | _ => false

def shared (name : String) : Option OptionName :=
  match name with
  | "v" | "verbose" => some .verbose
  | "h" | "help" => some .help
  | _ => none

def leading (name : String) : Option OptionName :=
  match name with
  | "V" | "version" => some .version
  | _ => shared name

def completion (name : String) : Option OptionName :=
  match name with
  | "c" | "config" => some .settings
  | "d" | "dictionary" => some .dictionary
  | "cwd" => some .directory
  | "mode" => some .mode
  | "f" | "format" => some .format
  | "timeout-secs" => some .seconds
  | "l" | "line" => some .line
  | "reject-expired" => some .rejectExpired
  | "t" | "trailing-space" => some .trailingSpace
  | _ => shared name

end OptionName

inductive Shape where
  | separator
  | long (name : String) (value : Option String)
  | short (letters : List Char)
  | plain
  deriving Repr, DecidableEq, BEq, Inhabited

def shapeOf (argument : String) : Shape :=
  match argument.toList with
  | ['-', '-'] => .separator
  | '-' :: '-' :: rest =>
    let name := rest.takeWhile (· != '=')
    let value := match rest.drop name.length with
      | _ :: value => some (String.ofList value)
      | [] => none
    .long (String.ofList name) value
  | '-' :: c :: rest => .short (c :: rest)
  | _ => .plain

/-- The number that digits write, if it has 64 bits. -/
def word? (text : String) : Option UInt64 :=
  let digits := match text.toList with
    | '+' :: rest => rest
    | rest => rest
  if digits.isEmpty || !digits.all Char.isDigit then none
  else
    let n := digits.foldl (fun n c => n * 10 + (c.toNat - 48)) 0
    if n < UInt64.size then some (UInt64.ofNat n) else none

/-- Completion that is being asked for, with the options given so far. -/
structure Draft where
  completion : Completion := {}
  given : List OptionName := []
  deriving Repr, Inhabited

namespace Draft

/-- Notes an option; only dictionaries may be given twice. -/
def note (d : Draft) (o : OptionName) : Option Draft :=
  if d.given.contains o && o != .dictionary then none else some { d with given := o :: d.given }

/-- Sets an option without a value. -/
def setFlag (d : Draft) (o : OptionName) : Option Draft :=
  (d.note o).map fun d =>
    match o with
    | .rejectExpired => { d with completion := { d.completion with rejectExpired := true } }
    | .trailingSpace => { d with completion := { d.completion with trailingSpace := true } }
    | _ => d

def setValue (d : Draft) (o : OptionName) (value : String) : Option Draft :=
  (d.note o).bind fun d =>
    let c := d.completion
    let set (completion : Completion) : Option Draft := some { d with completion }
    match o with
    | .settings => if value.isEmpty then none else set { c with settings := some value }
    | .dictionary =>
      if value.isEmpty then none else set { c with dictionaries := c.dictionaries ++ [value] }
    | .directory => set { c with directory := some value }
    | .mode =>
      match MatchMode.all.find? fun m => m.name == value with
      | some mode => set { c with mode := some mode }
      | none => none
    | .format =>
      if value == "text" then set { c with format := .text }
      else if value == "json" then set { c with format := .json }
      else none
    | .seconds => (word? value).bind fun seconds => set { c with seconds }
    | .line => set { c with line := some value }
    | _ => none

/-- Completes the draft with the words of the line, which cannot be given in two ways. -/
def finish (d : Draft) (words : List String) : Option Request :=
  if d.completion.line.isSome && !words.isEmpty then none
  else some (.complete { d.completion with words })

end Draft

inductive ShortResult where
  | set (d : Draft)
  | waiting (d : Draft) (o : OptionName)
  | help

/-- Sets short options in one; what follows one with a value is its value. -/
def setShort (d : Draft) : List Char → Option ShortResult
  | [] => some (.set d)
  | c :: rest =>
    match OptionName.completion (String.singleton c) with
    | none => none
    | some .help => some .help
    | some o =>
      if o.takesValue then
        if rest.isEmpty then some (.waiting d o)
        else (d.setValue o (String.ofList rest)).map .set
      else (d.setFlag o).bind fun d => setShort d rest

/-- Reads the arguments of completion, of which one may be the value of an option. -/
def readCompletion (d : Draft) (waiting : Option OptionName) : List String → Option Request
  | [] => if waiting.isSome then none else d.finish []
  | a :: rest =>
    let plain : Option Request :=
      match waiting with
      | some o => (d.setValue o a).bind fun d => readCompletion d none rest
      | none => d.finish (a :: rest)
    match shapeOf a with
    | .separator => if waiting.isSome then none else d.finish rest
    | .plain => plain
    | .long name value =>
      if name.length == 1 then plain
      else match OptionName.completion name, value with
        | none, _ => plain
        | some o, value =>
          if waiting.isSome then none
          else if o.takesValue then
            match value with
            | some v => (d.setValue o v).bind fun d => readCompletion d none rest
            | none => readCompletion d (some o) rest
          else if value.isSome then none
          else if o == .help then some .help
          else (d.setFlag o).bind fun d => readCompletion d none rest
    | .short letters =>
      if letters.any fun c => (OptionName.completion (String.singleton c)).isNone then plain
      else if waiting.isSome then none
      else match setShort d letters with
        | none => none
        | some .help => some .help
        | some (.set d) => readCompletion d none rest
        | some (.waiting d o) => readCompletion d (some o) rest

/-- Reads the options of an argument that has only ones without a value; the first answer is
whether one is for more words. -/
def readFlags (known : String → Option OptionName) (verbose : Bool) :
    List String → Option (Bool ⊕ Request)
  | [] => some (.inl verbose)
  | name :: rest =>
    match known name with
    | some .verbose => if verbose then none else readFlags known true rest
    | some .help => some (.inr .help)
    | some .version => some (.inr .version)
    | _ => none

def flagNames (known : String → Option OptionName) (a : String) : Option (List String) :=
  match shapeOf a with
  | .long name none =>
    if name.length == 1 && (known name).isSome then some [""] else some [name]
  | .long _ (some _) => some [""]
  | .short letters => some (letters.map String.singleton)
  | .separator | .plain => none

def readPaths (make : List String → Request) (verbose : Bool) (taken : List String) :
    List String → Option Request
  | [] => if taken.isEmpty then none else some (make taken.reverse)
  | a :: rest =>
    if shapeOf a == .separator then
      let all := taken.reverse ++ rest
      if all.isEmpty || rest.any String.isEmpty then none else some (make all)
    else match flagNames OptionName.shared a with
      | some names =>
        match readFlags OptionName.shared verbose names with
        | none => none
        | some (.inr r) => some r
        | some (.inl verbose) => readPaths make verbose taken rest
      | none => if a.isEmpty then none else readPaths make verbose (a :: taken) rest

def readHelp : List String → Option Request
  | [] => some .help
  | [name] => if ["complete", "validate", "list", "help"].contains name then some .help else none
  | _ => none

def readFrom (verbose : Bool) : List String → Option Request
  | [] => none
  | a :: rest =>
    match a with
    | "complete" => readCompletion {} none rest
    | "validate" => readPaths .validate false [] rest
    | "list" => readPaths .list false [] rest
    | "help" => readHelp rest
    | _ =>
      match flagNames OptionName.leading a with
      | none => none
      | some names =>
        match readFlags OptionName.leading verbose names with
        | none => none
        | some (.inr r) => some r
        | some (.inl verbose) => readFrom verbose rest

def Request.ofArguments (arguments : List String) : Option Request :=
  readFrom false arguments

end LineCompletion.Cli

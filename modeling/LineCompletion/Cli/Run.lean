import LineCompletion.Cli.Arguments
import LineCompletion.Engine.Run
import LineCompletion.Job.Basic
import LineCompletion.Settings.Basic

/-!
# Answering the command line

What the program prints for its arguments, and the status it ends with. Loading and the commands of
sources take time, of which there is only as much as the arguments allow.
-/

namespace LineCompletion

def Suggestion.toJson (s : Suggestion) : Json :=
  .map ([("text", .text s.text)] ++ Json.optional "description" (s.description.map .text)
    ++ [("kind", .text s.kind.name)])

namespace Cli

/-- What the program answers. -/
structure Report where
  /-- The status it ends with. -/
  status : Nat := 0
  /-- What it prints. -/
  output : String := ""
  /-- Why it fails. -/
  error : Option String := none
  /-- Why values are missing, though it does not fail. -/
  warning : Option String := none
  deriving Repr, DecidableEq, BEq, Inhabited

def Report.failure (output message : String) : Report :=
  { status := 1, output, error := some message }

/-- Files with the time that has passed, in milliseconds. -/
structure Surroundings where
  /-- The files. -/
  files : Files
  /-- How many milliseconds have passed. -/
  elapsed : Nat := 0
  /-- When the caller stops waiting. -/
  deadline : Nat := 0
  deriving Inhabited

/-- Runs a command unless it ends only after the caller has stopped waiting. -/
def Surroundings.run [ScriptRunner] (limit : Option Nat) (w : Surroundings) (command : String)
    (directory : Option String) : Option Outcome × Surroundings :=
  let r := Job.run limit w.files command directory
  if r.outcome.isNone || w.deadline ≤ w.elapsed + r.milliseconds then (none, w)
  else (r.outcome, { w with files := r.files, elapsed := w.elapsed + r.milliseconds })

/-- The surroundings as the engine sees them. -/
def host [Codec] [ScriptRunner] (limit : Option Nat) : Host Surroundings :=
  { clock := fun w _ => (w.elapsed : Int)
    load := fun w path => Library.ofPath w.files path
    run := fun w _ => w.run limit }

/-- Waits for the worker for some seconds. Where there is no time at all it cannot catch up. -/
def wait [Codec] [ScriptRunner] (limit : Option Nat) (seconds : Nat) (e : Engine)
    (w : Surroundings) : Except EngineError Unit × Engine × Surroundings :=
  if seconds == 0 then (.error .syncTimeout, e, w)
  else e.sync (host limit) { w with deadline := w.elapsed + seconds * 1000 }

/-- Why the worker did not catch up, with the fault that is known. -/
def describe (e : Engine) (cause : EngineError) : String :=
  match e.fault with
  | some fault => cause.message ++ ": " ++ fault.message
  | none => cause.message

/-- A text in which every part ends a line. -/
def unlines (lines : List String) : String :=
  String.join (lines.map (· ++ "\n"))

def render (format : OutputFormat) (suggestions : List Suggestion) : String :=
  match format with
  | .json => (Json.list (suggestions.map Suggestion.toJson)).pretty 0 ++ "\n"
  | .text =>
    unlines (suggestions.map fun s =>
      match s.description with
      | some description => s.text ++ "\t" ++ description
      | none => s.text)

/-- The moment some seconds after another, both counted from when the machine started. A clock of 64
bits with a sign tells no moment beyond its last. -/
def deadline? (now : Nat) (seconds : UInt64) : Option Nat :=
  let moment := now + seconds.toNat
  if moment < Nat.pow 2 63 then some moment else none

/-- The seconds that have passed at least since the machine started. -/
def leastUptime : Nat :=
  1

def settingsOf [Codec] (files : Files) (c : Completion) : Except String Settings :=
  let loaded : Except String Settings := match c.settings with
    | none => .ok {}
    | some path =>
      (Settings.load files path).mapError fun e =>
        "failed to load config " ++ path ++ ": " ++ e.message
  loaded.map fun s =>
    { s with
      dictionaries := s.dictionaries ++ c.dictionaries
      matching := { mode := c.mode.getD s.matching.mode
                    staleness :=
                      if c.rejectExpired then .rejectExpired else s.matching.staleness } }

def lineOf (c : Completion) : TokenLine :=
  match c.line with
  | some line => TokenLine.ofLine line
  | none => TokenLine.ofWords c.words c.trailingSpace

/-- Completes a line with an engine that has loaded its dictionaries: refreshes the sources of the
dictionary first. -/
def answer [Codec] [ScriptRunner] (limit : Option Nat) (c : Completion)
    (request : LineCompletion.Request) (e : Engine) (w : Surroundings) : Report :=
  let (warning, e, w) : Option String × Engine × Surroundings :=
    match e.suggestorFor request.command with
    | none => (none, e, w)
    | some s =>
      match wait limit c.seconds.toNat (e.refreshDictionary s.dictionary request.directory) w with
      | (.ok (), e, w) => (none, e, w)
      | (.error cause, e, w) => (some (describe e cause), e, w)
  let suggestions := (e.suggest ((host limit).clock w) request).1
  { output := render c.format suggestions, warning }

def complete [Codec] [ScriptRunner] (files : Files) (c : Completion) : Report :=
  match settingsOf files c with
  | .error message => .failure "" message
  | .ok s =>
    let line := lineOf c
    if s.dictionaries.isEmpty then
      .failure "" "no dictionaries given (use --dictionary or --config)"
    else if line.tokens.isEmpty then .failure "" "nothing to complete"
    else if (deadline? leastUptime c.seconds).isNone then { status := 101 }
    else
      let limit := s.execution.timeoutSeconds.map fun n => n.toNat * 1000
      let request : LineCompletion.Request := { line, directory := c.directory }
      match (Engine.ofSettings s.matching false s.dictionaries).start with
      | .error e => .failure "" e.message
      | .ok e =>
        match wait limit c.seconds.toNat e { files } with
        | (.error cause, e, _) => .failure "" (describe e cause)
        | (.ok (), e, w) => answer limit c request e w

/-- What a check of dictionaries has found so far. -/
structure Findings where
  lines : List String := []
  problems : List String := []
  checked : Nat := 0
  deriving Repr, Inhabited

/-- Adds what is found about a dictionary. -/
def Findings.add (f : Findings) (d : Dictionary Source) : Findings :=
  let f := { f with checked := f.checked + 1 }
  match d.validate with
  | .ok () => { f with lines := ("ok      " ++ d.name) :: f.lines }
  | .error e =>
    { f with lines := ("invalid " ++ d.name ++ ": " ++ e.message) :: f.lines
             problems := (d.name ++ ": " ++ e.message) :: f.problems }

def validate [Codec] (files : Files) (paths : List String) : Report :=
  let f := paths.foldl (fun f path =>
    match Library.ofPath files path with
    | .error e => { f with problems := e.message :: f.problems }
    | .ok l => l.dictionaries.foldl Findings.add f) ({} : Findings)
  let summary := toString f.checked ++ " dictionaries checked, " ++ toString f.problems.length
    ++ " problems"
  let output := unlines (f.lines.reverse ++ [summary])
  if f.problems.isEmpty then { output } else .failure output ("; ".intercalate f.problems.reverse)

def entry (d : Dictionary Source) : String :=
  d.name ++ " [" ++ ", ".intercalate d.keys ++ "]"
    ++ (if d.description.isEmpty then "" else "  " ++ d.description)

/-- Lists the dictionaries of some paths, up to the first that cannot be loaded. -/
def list [Codec] (files : Files) : List String → Report
  | [] => {}
  | path :: rest =>
    match Library.ofPath files path with
    | .error e => .failure "" e.message
    | .ok l =>
      let r := list files rest
      { r with output := unlines (l.dictionaries.map entry) ++ r.output }

def usage : String :=
  unlines [
    "Suggest command-line completions from command dictionaries",
    "",
    "Usage: suggest [OPTIONS] <COMMAND>",
    "",
    "Commands:",
    "  complete  Print suggestions for a partially typed command line",
    "  validate  Validate dictionary files or directories",
    "  list      List the dictionaries found in files or directories",
    "  help      Print this message"]

def run [Codec] [ScriptRunner] (files : Files) (arguments : List String) : Report :=
  match Request.ofArguments arguments with
  | none => { status := 2, error := some "unexpected arguments" }
  | some .help => { output := usage }
  | some .version => { output := "suggest 0.1.0\n" }
  | some (.complete c) => complete files c
  | some (.validate paths) => validate files paths
  | some (.list paths) => list files paths

end Cli

end LineCompletion

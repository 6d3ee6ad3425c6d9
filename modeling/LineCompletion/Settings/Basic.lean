import LineCompletion.Library.Load
import LineCompletion.Suggest.Options

/-!
# Settings

What a user sets once: the dictionaries to load, how suggestions are made, and how the commands of
sources are run. Settings are kept in a YAML file.
-/

namespace LineCompletion

/-- How the commands of sources are run. -/
structure Execution where
  /-- After how many seconds a command is stopped, if ever. -/
  timeoutSeconds : Option UInt64 := none
  /-- Whether a suggestion asks for the refreshes that are due. -/
  refreshOnSuggest : Bool := true
  deriving Repr, DecidableEq, BEq, Inhabited

/-- What a user sets once. -/
structure Settings where
  /-- The version of the form in which settings are written. -/
  version : String := "1.0"
  /-- The files and directories to load dictionaries from, in order. -/
  dictionaries : List String := []
  /-- How suggestions are made. -/
  matching : SuggestOptions := {}
  /-- How commands are run. -/
  execution : Execution := {}
  deriving Repr, DecidableEq, BEq, Inhabited

namespace Execution

/-- Rules for running commands, being read. -/
structure Draft where
  /-- The time limit, once given. -/
  timeoutSeconds : Option (Option UInt64) := none
  /-- Whether suggestions ask for refreshes, once given. -/
  refreshOnSuggest : Option Bool := none
  deriving Repr, Inhabited

def reader : RecordReader Draft :=
  { expected := "struct ExecutionConfig"
    fields := ["command_timeout_secs", "refresh_on_suggest"]
    read := fun _ name value d =>
      if name == "command_timeout_secs" then do
        let read := if value.isNull then .ok none else value.word.map some
        let timeoutSeconds ← once (duplicateField name) d.timeoutSeconds read
        return { d with timeoutSeconds }
      else do
        let refreshOnSuggest ← once (duplicateField name) d.refreshOnSuggest value.bool
        return { d with refreshOnSuggest } }

def Draft.finish (d : Draft) : Execution :=
  { timeoutSeconds := d.timeoutSeconds.getD none
    refreshOnSuggest := d.refreshOnSuggest.getD true }

def toJson (e : Execution) : Json :=
  .map (Json.optional "command_timeout_secs" (e.timeoutSeconds.map fun n => .int n.toNat)
    ++ [("refresh_on_suggest", .bool e.refreshOnSuggest)])

end Execution

namespace Settings

structure Draft where
  /-- The version, once given. -/
  version : Option String := none
  /-- The origins of dictionaries, once given. -/
  dictionaries : Option (List String) := none
  /-- The options of suggestions, once given. -/
  matching : Option SuggestOptions := none
  /-- The rules for running commands, once given. -/
  execution : Option Execution := none
  deriving Repr, Inhabited

def matchingOfNode (depth : Nat) (n : Node) : Except DocumentError SuggestOptions :=
  ((SuggestOptions.reader "struct MatchingConfig" "mode" .yaml).readNode .yaml depth {} n).map
    SuggestOptions.Draft.finish

/-- Reads the rules for running commands. -/
def executionOfNode (depth : Nat) (n : Node) : Except DocumentError Execution :=
  (Execution.reader.readNode .yaml depth {} n).map Execution.Draft.finish

def reader : RecordReader Draft :=
  { expected := "struct SuggestConfig"
    fields := ["version", "dictionaries", "matching", "execution"]
    read := fun depth name value d =>
      if name == "version" then do
        let version ← once (duplicateField name) d.version value.text
        return { d with version }
      else if name == "dictionaries" then do
        let dictionaries ← once (duplicateField name) d.dictionaries (value.texts depth)
        return { d with dictionaries }
      else if name == "matching" then do
        let matching ← once (duplicateField name) d.matching (matchingOfNode depth value)
        return { d with matching }
      else do
        let execution ← once (duplicateField name) d.execution (executionOfNode depth value)
        return { d with execution } }

/-- The settings of what was given; they need a version. -/
def Draft.finish (d : Draft) : Except DocumentError Settings :=
  match d.version with
  | none => .error (.schema (.missingField "version"))
  | some version =>
    .ok { version
          dictionaries := d.dictionaries.getD []
          matching := d.matching.getD {}
          execution := d.execution.getD {} }

def ofNode (n : Node) : Except DocumentError Settings :=
  match reader.readNode .yaml Format.yaml.maxDepth {} n with
  | .error e => .error e
  | .ok draft => draft.finish

def members (s : Settings) : List (String × Json) :=
  [("version", .text s.version), ("dictionaries", Json.texts s.dictionaries),
    ("matching", .map [("mode", .text s.matching.mode.name),
      ("staleness", .text s.matching.staleness.name)]),
    ("execution", s.execution.toJson)]

def text [Codec] (s : Settings) : String :=
  Codec.emit s.members

def load [Codec] (fs : Files) (path : String) : Except LoadError Settings :=
  fs.readDocument .yaml ofNode path

def save [Codec] (s : Settings) (fs : Files) (path : String) : Except LoadError Files :=
  (fs.write path (Text.Utf8.encode s.text.toList)).mapError .file

end Settings

end LineCompletion

import LineCompletion.Shell.Run
import LineCompletion.Source.Refresh
import LineCompletion.Text.Character

/-!
# Jobs

A job runs the command of a source: a script of the shell, in a directory, perhaps with a limit of
time. Every line of its output that is not blank is a value; a tab separates its description.
-/

namespace LineCompletion.Job

def endingText : Shell.Ending → String
  | .exited status => "exit status: " ++ toString status
  | .killed signal =>
    match Signal.name? signal with
    | some name => "signal: " ++ toString signal ++ " (" ++ name ++ ")"
    | none => "signal: " ++ toString signal
  | .running => ""

/-- The lines of a text, without a return at their ends. -/
def linesOf : List Char → List (List Char)
  | [] => []
  | '\r' :: '\n' :: rest => [] :: linesOf rest
  | c :: rest =>
    if c == '\n' then [] :: linesOf rest
    else match linesOf rest with
      | [] => [[c]]
      | line :: more => (c :: line) :: more

def itemOf (line : List Char) : Item :=
  let name := line.takeWhile (· != '\t')
  match line.drop name.length with
  | '\t' :: description =>
    { name := String.ofList name, description := String.ofList (Text.trim description) }
  | _ => { name := String.ofList line }

def itemsOfText (text : List Char) : List Item :=
  let lines := (linesOf text).map Text.trimRight
  (lines.filter fun l => !l.isEmpty).map itemOf

def itemsOf (output : List UInt8) : List Item :=
  itemsOfText (Text.Utf8.decodeLossy output)

def detailOf (errors : List UInt8) : String :=
  let lines := (linesOf (Text.Utf8.decodeLossy errors)).map Text.trim
  String.ofList ((lines.find? fun l => !l.isEmpty).getD [])

/-- How a command ends that has done what a report says; none if it never does. A limit is in
milliseconds. -/
def outcomeOf (limit : Option Nat) (r : Shell.Report) : Option Outcome :=
  let late : Bool := match limit with
    | none => false
    | some ms => r.ending == .running || decide (ms ≤ r.milliseconds)
  if late then some (.failed ("timed out after " ++ toString (limit.getD 0) ++ "ms"))
  else match r.ending with
    | .running => none
    | .exited 0 => some (.items (itemsOf r.output))
    | ending => some (.failed (endingText ending ++ ": " ++ detailOf r.errors))

/-- What a job has done: how it ended, how many milliseconds it took, and the files after it. -/
structure Result where
  outcome : Option Outcome
  milliseconds : Nat
  files : Files
  deriving Inhabited

def run [ScriptRunner] (limit : Option Nat) (files : Files) (command : String)
    (directory : Option String) : Result :=
  let refuse (problem : String) : Result :=
    { outcome := some (.failed ("spawn failed: " ++ problem)), milliseconds := 0, files }
  let hasNul (s : String) : Bool := s.toList.contains '\x00'
  if hasNul command || directory.any hasNul then refuse "nul byte found in provided data"
  else
    let place : Except FileError (List String × FileEntry) := match directory with
      | none => .ok (files.directory, FileEntry.directory)
      | some path => files.find path
    match place with
    | .error e => refuse e.message
    | .ok (_, .file _) => refuse FileError.notDirectory.message
    | .ok (place, .directory) =>
      let r := ScriptRunner.execute { files with directory := place } command
      { outcome := outcomeOf limit r
        milliseconds := match limit with
          | some ms => min ms r.milliseconds
          | none => r.milliseconds
        files := { r.files with directory := files.directory } }

end LineCompletion.Job

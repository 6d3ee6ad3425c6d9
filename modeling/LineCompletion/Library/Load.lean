import LineCompletion.Dictionary.Read
import LineCompletion.Document.Parse
import LineCompletion.Files.Basic
import LineCompletion.Library.Basic

/-!
# Loading libraries

Dictionaries from files and directories. The extension of a file tells its format. One file that
cannot be read spoils the whole directory.
-/

namespace LineCompletion

/-- Why the text of a JSON file is not what it should be. -/
inductive JsonFailure where
  | file (e : FileError)
  | document (e : DocumentError)
  deriving Repr, DecidableEq, BEq, Inhabited

/-- Why dictionaries or settings cannot be loaded. -/
inductive LoadError where
  | file (e : FileError)
  | json (e : JsonFailure)
  | yaml
  | unsupportedFormat (path : String)
  | inFile (path : String) (cause : LoadError)
  | nothingAvailable
  deriving Repr, DecidableEq, BEq, Inhabited

/-- What messages say about the text of a JSON file. -/
def JsonFailure.message : JsonFailure → String
  | .file e => e.message
  | .document (.flaw .malformed) => "malformed text"
  | .document (.flaw .truncated) => "text ends too early"
  | .document (.schema e) => e.message

def LoadError.message : LoadError → String
  | .file e => "I/O error: " ++ e.message
  | .json e => "JSON error: " ++ e.message
  | .yaml => "YAML error: not the document that is wanted"
  | .unsupportedFormat path => "unsupported dictionary format: " ++ path
  | .inFile path cause => path ++ ": " ++ cause.message
  | .nothingAvailable => "no dictionary sources available"

def LoadError.ofDocument (format : Format) (e : DocumentError) : LoadError :=
  match format with
  | .json => .json (.document e)
  | .yaml => .yaml

def Format.ofPath? (path : String) : Option Format :=
  match Path.extension? path with
  | none => none
  | some extension =>
    let extension := extension.toList.map Char.toLower
    if extension == ['j', 's', 'o', 'n'] then some .json
    else if extension == ['y', 'a', 'm', 'l'] || extension == ['y', 'm', 'l'] then some .yaml
    else none

def isDictionaryPath (path : String) : Bool :=
  (Format.ofPath? path).isSome

namespace Files

/-- Reads the document in a file. A directory can be opened but not read. -/
def readDocument {α : Type} [Codec] (fs : Files) (format : Format)
    (f : Node → Except DocumentError α) (path : String) : Except LoadError α :=
  match fs.read path, format with
  | .error .isDirectory, .json => .error (.json (.file .isDirectory))
  | .error .isDirectory, .yaml => .error .yaml
  | .error e, _ => .error (.file e)
  | .ok bytes, format => ((Codec.parse format bytes).read f).mapError (.ofDocument format)

def loadDictionary [Codec] (fs : Files) (path : String) : Except LoadError (Dictionary Source) :=
  match Format.ofPath? path with
  | none => .error (.unsupportedFormat path)
  | some format =>
    (fs.readDocument format (Dictionary.ofNode format) path).mapError (.inFile path)

/-- The paths of the dictionary files among the names of a directory, in the order of their code
points whatever the order of the names. -/
def dictionaryPaths (fs : Files) (path : String) (names : List String) : List String :=
  ((names.map (Path.join path)).filter fun p => fs.isFile p && isDictionaryPath p).mergeSort
    fun a b => decide (a ≤ b)

end Files

namespace Library

def loadAll [Codec] (fs : Files) : List String → Except LoadError (List (Dictionary Source))
  | [] => .ok []
  | path :: rest =>
    match fs.loadDictionary path with
    | .error e => .error e
    | .ok d => (loadAll fs rest).map (d :: ·)

def ofFile [Codec] (fs : Files) (path : String) : Except LoadError (Library Source) :=
  (fs.loadDictionary path).map fun d => ofList (.file path) [d]

/-- Loads every dictionary file of a directory. -/
def ofDirectory [Codec] (fs : Files) (path : String) : Except LoadError (Library Source) :=
  match fs.list path with
  | .error e => .error (.file e)
  | .ok names =>
    (loadAll fs (fs.dictionaryPaths path names)).map (ofList (.directory path))

/-- Loads a directory or a single file, whichever the path names. -/
def ofPath [Codec] (fs : Files) (path : String) : Except LoadError (Library Source) :=
  if fs.isDirectory path then ofDirectory fs path else ofFile fs path

/-- Loads one origin; only files and directories can be loaded. -/
def ofOrigin? [Codec] (fs : Files) : Origin → Option (Library Source)
  | .file path => (ofFile fs path).toOption
  | .directory path => (ofDirectory fs path).toOption
  | .memory | .firstOf _ => none

/-- Loads the first of several origins that can be loaded. -/
def ofFirst [Codec] (fs : Files) (origins : List Origin) : Except LoadError (Library Source) :=
  match origins.findSome? (ofOrigin? fs) with
  | some l => .ok { l with origin := .firstOf origins }
  | none => .error .nothingAvailable

end Library

end LineCompletion

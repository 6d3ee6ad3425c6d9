import LineCompletion.Files.Path
import LineCompletion.Text.Utf8

/-!
# Files

A tree of files and directories with a working directory, from which relative paths start.
-/

namespace LineCompletion

/-- Why a path cannot be used. -/
inductive FileError where
  | notFound
  | notDirectory
  | isDirectory
  | nameTooLong
  | invalidPath
  | other (message : String)
  deriving Repr, DecidableEq, BEq, Inhabited

def FileError.message : FileError → String
  | .notFound => "No such file or directory (os error 2)"
  | .notDirectory => "Not a directory (os error 20)"
  | .isDirectory => "Is a directory (os error 21)"
  | .nameTooLong => "File name too long (os error 36)"
  | .invalidPath => "file name contained an unexpected NUL byte"
  | .other message => message

/-- What stands at a place of the tree. -/
inductive FileEntry where
  | file (content : List UInt8)
  | directory
  deriving Repr, DecidableEq, BEq, Inhabited

/-- A tree of files. -/
structure Files where
  /-- What stands at the place of a list of names; the root is a directory in any case. -/
  entries : List (List String × FileEntry) := []
  /-- The working directory. -/
  directory : List String := []
  deriving Repr, Inhabited

namespace Files

def at? (fs : Files) (place : List String) : Option FileEntry :=
  if place.isEmpty then some .directory else fs.entries.lookup place

def drop (place : List String) (entries : List (List String × FileEntry)) :
    List (List String × FileEntry) :=
  entries.filter fun e => e.1 != place

def put (fs : Files) (place : List String) (entry : FileEntry) : Files :=
  { fs with entries := drop place fs.entries ++ [(place, entry)] }

/-- The names that lead to a place, without the last. -/
def parents (place : List String) : List (List String) :=
  (List.range place.length).tail.map place.take

/-- Puts an entry at a place and directories above it. -/
def putAll (fs : Files) (place : List String) (entry : FileEntry) : Files :=
  ((parents place).foldl (fun fs p => if (fs.at? p).isSome then fs else fs.put p .directory) fs).put
    place entry

def remove (fs : Files) (place : List String) : Files :=
  { fs with entries := fs.entries.filter fun e => !place.isPrefixOf e.1 }

/-- Goes from a place along names. Every place on the way must be a directory. -/
def walk (fs : Files) : List String → List String → Except FileError (List String)
  | place, [] => .ok place
  | place, name :: rest =>
    match fs.at? place with
    | none => .error .notFound
    | some (.file _) => .error .notDirectory
    | some .directory =>
      if name.utf8ByteSize > 255 then .error .nameTooLong
      else if name == ".." then walk fs place.dropLast rest
      else walk fs (place ++ [name]) rest

/-- The place that a path names, whether or not something stands there. -/
def locate (fs : Files) (path : String) : Except FileError (List String) :=
  if path.isEmpty then .error .notFound
  else if path.toList.contains '\x00' then .error .invalidPath
  else
    let start := if Path.isAbsolute path then [] else fs.directory
    fs.walk start (Path.components path)

/-- The place and the entry that a path names. -/
def find (fs : Files) (path : String) : Except FileError (List String × FileEntry) :=
  match fs.locate path with
  | .error e => .error e
  | .ok place =>
    match fs.at? place with
    | none => .error .notFound
    | some (.file content) =>
      if Path.namesDirectory path then .error .notDirectory else .ok (place, .file content)
    | some .directory => .ok (place, .directory)

def isDirectory (fs : Files) (path : String) : Bool :=
  match fs.find path with
  | .ok (_, .directory) => true
  | _ => false

def isFile (fs : Files) (path : String) : Bool :=
  match fs.find path with
  | .ok (_, .file _) => true
  | _ => false

def read (fs : Files) (path : String) : Except FileError (List UInt8) :=
  match fs.find path with
  | .error e => .error e
  | .ok (_, .file content) => .ok content
  | .ok (_, .directory) => .error .isDirectory

/-- The name that leads from a place to another right below it. -/
def nameBelow (place other : List String) : Option String :=
  if place.isPrefixOf other && other.length == place.length + 1 then other.getLast? else none

/-- The names in a directory, in the order in which they were put there. -/
def names (fs : Files) (place : List String) : List String :=
  fs.entries.filterMap fun e => nameBelow place e.1

/-- The names in the directory of a path, in no order that a caller may rely on. -/
def list (fs : Files) (path : String) : Except FileError (List String) :=
  match fs.find path with
  | .error e => .error e
  | .ok (_, .file _) => .error .notDirectory
  | .ok (place, .directory) => .ok (fs.names place)

def write (fs : Files) (path : String) (content : List UInt8) : Except FileError Files :=
  match fs.locate path with
  | .error e => .error e
  | .ok place =>
    match fs.at? place with
    | some .directory => .error .isDirectory
    | some (.file _) =>
      if Path.namesDirectory path then .error .notDirectory
      else .ok (fs.put place (.file content))
    | none =>
      match fs.at? place.dropLast with
      | none => .error .notFound
      | some (.file _) => .error .notDirectory
      | some .directory =>
        if Path.namesDirectory path then .error .isDirectory
        else .ok (fs.put place (.file content))

end Files

end LineCompletion

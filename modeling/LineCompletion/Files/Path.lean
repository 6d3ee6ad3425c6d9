/-!
# Paths

The text of a path as its components, its last component and the extension of that.
-/

namespace LineCompletion.Path

def splitSlashes : List Char → List (List Char)
  | [] => [[]]
  | c :: rest =>
    if c == '/' then [] :: splitSlashes rest
    else match splitSlashes rest with
      | [] => [[c]]
      | part :: parts => (c :: part) :: parts

/-- The parts of a path that go somewhere: neither empty nor a single dot. -/
def components (path : String) : List String :=
  ((splitSlashes path.toList).map String.ofList).filter fun p => !(p.isEmpty || p == ".")

def isAbsolute (path : String) : Bool :=
  path.toList.head? == some '/'

def namesDirectory (path : String) : Bool :=
  match ((splitSlashes path.toList).map String.ofList).getLast? with
  | some last => last.isEmpty || last == "." || last == ".."
  | none => false

/-- The last component of a path, unless it goes up. -/
def fileName? (path : String) : Option String :=
  match (components path).getLast? with
  | some name => if name == ".." then none else some name
  | none => none

/-- The characters after the last dot of a name that does not begin with that dot. -/
def extensionOf (name : List Char) : Option (List Char) :=
  let after := name.reverse.takeWhile (· != '.')
  match name.reverse.drop after.length with
  | '.' :: before => if before.isEmpty then none else some after.reverse
  | _ => none

def extension? (path : String) : Option String :=
  (fileName? path).bind fun name => (extensionOf name.toList).map String.ofList

/-- A path followed by the name of an entry. -/
def join (directory name : String) : String :=
  if directory.isEmpty || directory.toList.getLast? == some '/' then directory ++ name
  else directory ++ "/" ++ name

end LineCompletion.Path

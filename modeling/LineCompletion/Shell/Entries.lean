import LineCompletion.Shell.Usage

/-!
# Entries

The programs that list, name, make and remove files and directories.
-/

namespace LineCompletion.Shell

namespace Utility

def ls : Action := fun s arguments =>
  let letters := ['a', 'A', '1', 'r', 'd', 'p', 'F', 't', 'U', 'f', 'l', 'h', 'C', 'R']
  withUsage "ls" letters [] s arguments fun u =>
    let mark (path : Octets) : Octets :=
      if (u.has 'p' || u.has 'F') && s.files.isDirectory (Octets.toText path) then ['/'] else []
    let paths := if u.operands.isEmpty then [['.']] else u.operands
    let ordered (names : List Octets) : List Octets :=
      let sorted := names.mergeSort Octets.atMost
      if u.has 'r' then sorted.reverse else sorted
    let exists_ (p : Octets) : Bool := (s.files.find (Octets.toText p)).isOk
    let isDirectory (p : Octets) : Bool := s.files.isDirectory (Octets.toText p)
    let s := (paths.filter fun p => !exists_ p).foldl (fun s p =>
      match s.files.find (Octets.toText p) with
      | .error e =>
        fail s "ls" ("cannot access '".toList ++ p ++ "': ".toList ++ fileErrorText e) 2
      | .ok _ => s) (s.withStatus 0)
    let found := ordered (paths.filter exists_)
    let plain := found.filter fun p => u.has 'd' || !isDirectory p
    let directories := found.filter fun p => !u.has 'd' && isDirectory p
    let listing (p : Octets) : Octets :=
      let names := ((s.files.list (Octets.toText p)).toOption.getD []).map Octets.ofString
      let names := if u.has 'a' || u.has 'f' then ['.'] :: ['.', '.'] :: names else names
      let shown := names.filter fun n => u.has 'a' || u.has 'A' || u.has 'f' || n.head? != some '.'
      unlines ((ordered shown).map fun n => n ++ mark (p ++ '/' :: n))
    let titled := 1 < paths.length
    let sections := directories.map fun p =>
      (if titled then p ++ [':', '\n'] else []) ++ listing p
    let first := if plain.isEmpty then [] else [unlines (plain.map fun p => p ++ mark p)]
    s.out (['\n'].intercalate (first ++ sections))

def trimSlashes (path : Octets) : Octets :=
  let trimmed := (path.reverse.dropWhile (· == '/')).reverse
  if trimmed.isEmpty && !path.isEmpty then ['/'] else trimmed

/-- Prints the last part of a path, without an ending. -/
def basename : Action := fun s arguments =>
  match arguments with
  | [] => fail s "basename" "missing operand".toList 1
  | path :: rest =>
    let path := trimSlashes path
    let name := if path == ['/'] then path else (path.reverse.takeWhile (· != '/')).reverse
    let ending := rest.head?.getD []
    let name := if ending.isSuffixOf name && name != ending then
        name.take (name.length - ending.length)
      else name
    (s.out (name ++ ['\n'])).withStatus 0

/-- Prints a path without its last part. -/
def dirname : Action := fun s arguments =>
  match arguments with
  | [] => fail s "dirname" "missing operand".toList 1
  | paths =>
    let line (path : Octets) : Octets :=
      let path := trimSlashes path
      if !path.contains '/' then ['.']
      else if path == ['/'] then path
      else trimSlashes ((path.reverse.dropWhile (· != '/')).reverse)
    (s.out (unlines (paths.map line))).withStatus 0

def touch : Action := fun s arguments =>
  arguments.foldl (fun s path =>
    if (s.files.find (Octets.toText path)).isOk then s
    else match s.files.write (Octets.toText path) [] with
      | .ok files => { s with files }
      | .error e =>
        fail s "touch" ("cannot touch '".toList ++ path ++ "': ".toList ++ fileErrorText e) 1)
    (s.withStatus 0)

def mkdir : Action := fun s arguments =>
  withUsage "mkdir" ['p'] ['m'] s arguments fun u =>
    u.operands.foldl (fun s path =>
      let refuse (s : State) (problem : Octets) : State :=
        fail s "mkdir" ("cannot create directory '".toList ++ path ++ "': ".toList ++ problem) 1
      let text := Octets.toText path
      if (s.files.find text).isOk then
        if u.has 'p' && s.files.isDirectory text then s else refuse s "File exists".toList
      else if u.has 'p' then
        let start := if Path.isAbsolute text then [] else s.files.directory
        { s with files := s.files.putAll (start ++ Path.components text) .directory }
      else match s.files.locate text with
        | .error e => refuse s (fileErrorText e)
        | .ok place =>
          match s.files.at? place.dropLast with
          | some .directory => { s with files := s.files.put place .directory }
          | _ => refuse s (fileErrorText .notFound)) (s.withStatus 0)

def rm : Action := fun s arguments =>
  withUsage "rm" ['r', 'R', 'f', 'd'] [] s arguments fun u =>
    u.operands.foldl (fun s path =>
      let refuse (problem : Octets) : State :=
        fail s "rm" ("cannot remove '".toList ++ path ++ "': ".toList ++ problem) 1
      match s.files.find (Octets.toText path) with
      | .error e => if u.has 'f' then s else refuse (fileErrorText e)
      | .ok (place, .file _) => { s with files := s.files.remove place }
      | .ok (place, .directory) =>
        if u.has 'r' || u.has 'R' then { s with files := s.files.remove place }
        else refuse (fileErrorText .isDirectory)) (s.withStatus 0)

def copy (program : String) (moves : Bool) : Action := fun s arguments =>
  withUsage program ['f', 'p', 'r', 'R', 'a', 'n', 'i'] [] s arguments fun u =>
    match u.operands with
    | [source, target] =>
      let path := Octets.toText target
      let path := if s.files.isDirectory path then
          Path.join path ((Path.fileName? (Octets.toText source)).getD "")
        else path
      match s.files.find (Octets.toText source) with
      | .error e =>
        fail s program ("cannot stat '".toList ++ source ++ "': ".toList ++ fileErrorText e) 1
      | .ok (_, .directory) =>
        fail s program ("-r not specified; omitting directory '".toList ++ source ++ ['\'']) 1
      | .ok (place, .file content) =>
        match s.files.write path content with
        | .error e => fail s program
            ("cannot create regular file '".toList ++ target ++ "': ".toList ++ fileErrorText e) 1
        | .ok files => { s with files := if moves then files.remove place else files, status := 0 }
    | [] => fail s program "missing file operand".toList 1
    | first :: _ =>
      fail s program ("missing destination file operand after '".toList ++ first ++ ['\'']) 1

end Utility

end LineCompletion.Shell

import LineCompletion.Shell.Builtin

/-!
# Usage of programs

How programs read their arguments and inputs, and what they say when they cannot.
-/

namespace LineCompletion.Shell

/-- The options and operands of a program. -/
structure Usage where
  options : List (Char × Octets) := []
  operands : List Octets := []
  deriving Repr, Inhabited

namespace Usage

def has (u : Usage) (c : Char) : Bool :=
  u.options.any fun o => o.1 == c

/-- The value of an option, the last where it is given twice. -/
def value? (u : Usage) (c : Char) : Option Octets :=
  (u.options.reverse.find? fun o => o.1 == c).map (·.2)

/-- Reads the letters after a dash: plain ones, then perhaps one that takes a value. -/
def letters (plain valued : List Char) : Octets → Option (List (Char × Octets) × Bool)
  | [] => some ([], false)
  | c :: rest =>
    if plain.contains c then (letters plain valued rest).map fun r => ((c, []) :: r.1, r.2)
    else if valued.contains c then some ([(c, rest)], rest.isEmpty)
    else none

/-- Reads arguments; none where an option is unknown. -/
def parse (plain valued : List Char) : List Octets → Option Usage
  | [] => some {}
  | ['-', '-'] :: rest => some { operands := rest }
  | ('-' :: c :: cs) :: rest =>
    match letters plain valued (c :: cs) with
    | none => none
    | some (options, false) =>
      (parse plain valued rest).map fun u => { u with options := options ++ u.options }
    | some (options, true) =>
      match rest with
      | [] => none
      | value :: rest =>
        (parse plain valued rest).map fun u =>
          let last := options.getLast?.toList.map fun o => (o.1, value)
          { u with options := options.dropLast ++ last ++ u.options }
  | a :: rest => (parse plain valued rest).map fun u => { u with operands := a :: u.operands }

end Usage

namespace Utility

def fail (s : State) (program : String) (text : Octets) (status : Nat) : State :=
  (s.complain ((program ++ ": ").toList ++ text)).withStatus status

/-- Runs a program whose options are known. -/
def withUsage (program : String) (plain valued : List Char) (s : State) (arguments : List Octets)
    (k : Usage → State) : State :=
  match Usage.parse plain valued arguments with
  | some u => k u
  | none =>
    let bad := (arguments.find? fun a => a.head? == some '-').getD []
    let text := if a_long bad then "unrecognized option '".toList ++ bad ++ ['\'']
      else "invalid option -- '".toList ++ (bad.drop 1).take 1 ++ ['\'']
    let s := s.complain ((program ++ ": ").toList ++ text)
    fail s "Try '" ((program ++ " --help' for more information.").toList) 1
where
  /-- Whether an option is a whole word. -/
  a_long (option : Octets) : Bool := option.take 2 == ['-', '-']

/-- What a program says of a file that it cannot read. -/
abbrev Complaint := Octets → FileError → Octets

def plainly : Complaint := fun path e => path ++ ": ".toList ++ fileErrorText e

/-- The complaint of programs that open files for reading. -/
def forReading : Complaint := fun path e =>
  match e with
  | .isDirectory => "error reading '".toList ++ path ++ "': ".toList ++ fileErrorText e
  | _ => "cannot open '".toList ++ path ++ "' for reading: ".toList ++ fileErrorText e

/-- The octets of each operand, or of the input where there are none, with the first failure. -/
def inputs (program : String) (complaint : Complaint) (status : Nat) (s : State)
    (paths : List Octets) : List (Octets × Octets) × State :=
  let paths := if paths.isEmpty then [['-']] else paths
  let (found, s) := paths.foldl (fun (acc : List (Octets × Octets) × State) path =>
    if path == ['-'] then
      let (text, s) := acc.2.readAll 0
      ((path, text) :: acc.1, s)
    else
      match acc.2.fileAt path with
      | .ok text => ((path, text) :: acc.1, acc.2)
      | .error e => (acc.1, fail acc.2 program (complaint path e) status)) ([], s.withStatus 0)
  (found.reverse, s)

/-- A program that prints what it makes of all its input. -/
def filter (program : String) (complaint : Complaint) (status : Nat) (s : State)
    (paths : List Octets) (f : Octets → Octets) : State :=
  let (found, s) := inputs program complaint status s paths
  s.out (f (found.flatMap (·.2)))

def bareLines (text : Octets) : List Octets :=
  (Octets.lines text).map Octets.chomp

def unlines (lines : List Octets) : Octets :=
  lines.flatMap fun l => l ++ ['\n']

end Utility

end LineCompletion.Shell

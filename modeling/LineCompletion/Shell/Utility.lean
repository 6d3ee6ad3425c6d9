import LineCompletion.Shell.Entries
import LineCompletion.Shell.Filters

/-!
# Programs

The programs that scripts call most, by name, with those that neither read lines nor touch files.
-/

namespace LineCompletion.Shell

namespace Utility

def seq : Action := fun s arguments =>
  let (separator, arguments) := match arguments with
    | ['-', 's'] :: separator :: rest => (separator, rest)
    | ('-' :: 's' :: separator) :: rest => (separator, rest)
    | rest => (['\n'], rest)
  let (padded, arguments) := if arguments.head? == some ['-', 'w'] then (true, arguments.tail)
    else (false, arguments)
  match arguments.mapM decimal? with
  | some [] =>
    fail (s.complain "seq: missing operand".toList) "Try '"
      "seq --help' for more information.".toList 1
  | none =>
    let bad := (arguments.find? fun a => (decimal? a).isNone).getD []
    let s := s.complain ("seq: invalid floating point argument: '".toList ++ bad ++ ['\''])
    fail s "Try '" "seq --help' for more information.".toList 1
  | some numbers =>
    let (first, step, last) : Int × Int × Int := match numbers with
      | [last] => (1, 1, last)
      | [first, last] => (first, 1, last)
      | first :: step :: last :: _ => (first, step, last)
      | [] => (1, 1, 0)
    let count := if step == 0 then 0
      else if 0 < step then (Int.fdiv (last - first) step + 1).toNat
      else (Int.fdiv (first - last) (-step) + 1).toNat
    let texts := (List.range count).map fun (i : Nat) => Octets.ofInt (first + step * (i : Int))
    let width := texts.foldl (fun w t => max w t.length) 0
    let texts := if padded then texts.map fun t => List.replicate (width - t.length) '0' ++ t
      else texts
    if texts.isEmpty then s.withStatus 0
    else (s.out (separator.intercalate texts ++ ['\n'])).withStatus 0

/-- How long a text of a number and perhaps a unit is, in milliseconds. -/
def milliseconds? (text : Octets) : Option Nat :=
  let (body, unit) := match text.getLast? with
    | some 's' => (text.dropLast, 1000)
    | some 'm' => (text.dropLast, 60000)
    | some 'h' => (text.dropLast, 3600000)
    | some 'd' => (text.dropLast, 86400000)
    | _ => (text, 1000)
  let whole := body.takeWhile (· != '.')
  let fraction := (body.drop whole.length).drop 1
  if whole.isEmpty && fraction.isEmpty then none
  else match Octets.digits? ('0' :: whole), Octets.digits? ('0' :: fraction) with
    | some m, some n => some (m * unit + n * unit / Nat.pow 10 fraction.length)
    | _, _ => none

def sleep : Action := fun s arguments =>
  match arguments.mapM milliseconds?, arguments with
  | some (t :: ts), _ => { s with slept := ts.foldl (· + ·) (s.slept + t), status := 0 }
  | some [], _ =>
    fail (s.complain "sleep: missing operand".toList) "Try '"
      "sleep --help' for more information.".toList 1
  | none, _ =>
    let bad := (arguments.find? fun a => (milliseconds? a).isNone).getD []
    fail (s.complain ("sleep: invalid time interval '".toList ++ bad ++ ['\''])) "Try '"
      "sleep --help' for more information.".toList 1

def env : Action := fun s _ =>
  (s.out (unlines (s.bindings.reverse.map fun v => v.1 ++ '=' :: v.2))).withStatus 0

/-- Prints the same line for ever. -/
def yes : Action := fun s arguments =>
  let line := if arguments.isEmpty then ['y'] else [' '].intercalate arguments
  { s.out (unlines (List.replicate 5000 line)) with flow := .stuck }

def uname : Action := fun s _ =>
  (s.out "Linux\n".toList).withStatus 0

def whoami : Action := fun s _ =>
  (s.out "root\n".toList).withStatus 0

def which : Action := fun s arguments =>
  let known (name : Octets) : Bool :=
    ["sh", "echo", "printf", "true", "false", "test", "[", "pwd", "kill", "cat", "ls", "seq",
      "head", "tail", "sort", "uniq", "wc", "tr", "cut", "tac", "rev", "tee", "basename",
      "dirname", "touch", "mkdir", "rm", "sleep", "env", "printenv", "grep", "fgrep", "uname",
      "whoami", "which", "yes", "cp", "mv"].any fun c => c.toList == name
  let found := arguments.filter known
  (s.out (unlines (found.map fun name => "/usr/bin/".toList ++ name))).withStatus
    (if found.length == arguments.length && !arguments.isEmpty then 0 else 1)

def all : List (String × Action) :=
  [("cat", cat), ("ls", ls), ("seq", seq), ("head", head), ("tail", tail), ("sort", sort),
    ("uniq", uniq), ("wc", wc), ("tr", tr), ("cut", cut), ("tac", tac), ("rev", rev), ("tee", tee),
    ("basename", basename), ("dirname", dirname), ("touch", touch), ("mkdir", mkdir), ("rm", rm),
    ("cp", copy "cp" false), ("mv", copy "mv" true),
    ("sleep", sleep), ("env", env), ("printenv", env), ("grep", grep false), ("fgrep", grep true),
    ("uname", uname), ("whoami", whoami), ("which", which), ("yes", yes)]

/-- The programs that do what commands of the shell do too. -/
def shared : List String :=
  ["echo", "printf", "true", "false", "test", "[", "pwd", "kill"]

def places : List String :=
  ["/bin/", "/usr/bin/"]

/-- The program that a name or path stands for. -/
def find? (name : Octets) : Option Action :=
  let base := places.findSome? fun p =>
    if p.toList.isPrefixOf name then some (name.drop p.length) else none
  match base with
  | some base =>
    if shared.any (fun c => c.toList == base) then Builtin.find? base
    else all.findSome? fun c => if c.1.toList == base then some c.2 else none
  | none => all.findSome? fun c => if c.1.toList == name then some c.2 else none

end Utility

end LineCompletion.Shell

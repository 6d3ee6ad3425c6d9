import LineCompletion.Shell.Condition
import LineCompletion.Shell.Expand
import LineCompletion.Shell.Report

/-!
# Commands of the shell itself

The commands that change the shell or need no program of their own, apart from those that run other
commands.
-/

namespace LineCompletion.Shell

abbrev Action := State → List Octets → State

namespace State

/-- Says with a message that names the command why it fails. -/
def blame (s : State) (command : Octets) (text : Octets) : State :=
  s.warn (command ++ ": ".toList ++ text)

/-- Fails with a message that names the command. -/
def refuse (s : State) (command : Octets) (text : Octets) : State :=
  (s.blame command text).withStatus 2

/-- Fails with a message that names the command, and ends the shell. -/
def refuseAll (s : State) (command : Octets) (text : Octets) : State :=
  s.abort (command ++ ": ".toList ++ text)

/-- Sends the shell a signal, which ends it unless the signal is caught. -/
def signal (s : State) (n : Nat) : State :=
  if n == 0 || Signal.isHarmless n then s.withStatus 0
  else if Signal.isPause n then { s with flow := .stuck }
  else { s with flow := .killed n }

end State

namespace Builtin

def echo : Action := fun s arguments =>
  (s.out (Shell.echo arguments)).withStatus 0

def printf : Action := fun s arguments =>
  let print (format : Octets) (rest : List Octets) : State :=
    let p := Shell.printf format rest
    ((p.warnings.foldl State.warn s).out p.output).withStatus p.status
  match if arguments.head? == some ['-', '-'] then arguments.tail else arguments with
  | [] => s.refuse "printf".toList "usage: printf format [arg ...]".toList
  | format :: rest =>
    match arguments.head?, format with
    | some ['-', '-'], _ | _, [] | _, ['-'] => print format rest
    | _, '-' :: c :: _ => s.refuse "printf".toList ("Illegal option -".toList ++ [c])
    | _, _ => print format rest

/-- The number of an argument of a command that ends something. -/
def count (s : State) (command : String) (arguments : List Octets) (otherwise : Nat)
    (k : Nat → State) : State :=
  match arguments with
  | [] => k otherwise
  | a :: _ =>
    match Octets.digits? a with
    | some n => k n
    | none => s.refuseAll command.toList ("Illegal number: ".toList ++ a)

def exit : Action := fun s arguments =>
  count s "exit" arguments s.status fun n => s.finish (n % 256)

def return_ : Action := fun s arguments =>
  count s "return" arguments s.status fun n => { s with status := n % 256, flow := .returning }

def break_ : Action := fun s arguments =>
  count s "break" arguments 1 fun n => { s with status := 0, flow := .leaving n }

/-- Goes on with the next turn of a loop. -/
def continue_ : Action := fun s arguments =>
  count s "continue" arguments 1 fun n => { s with status := 0, flow := .turning n }

def test (bracket : Bool) : Action := fun s arguments =>
  let name := if bracket then ['['] else "test".toList
  let closed := !bracket || arguments.getLast? == some [']']
  if !closed then s.refuse name "missing ]".toList
  else
    match Condition.decide? s (if bracket then arguments.dropLast else arguments) with
    | .ok r => s.withStatus (if r then 0 else 1)
    | .error e => s.refuse name e

def cd : Action := fun s arguments =>
  let arguments := if arguments.head? == some ['-', '-'] then arguments.tail else arguments
  let old := s.directory
  let (target, shown) := match arguments.head? with
    | none => ((s.lookup? "HOME".toList).getD [], false)
    | some ['-'] => ((s.lookup? "OLDPWD".toList).getD old, true)
    | some d => (d, false)
  let found := if target.isEmpty then .ok (s.files.directory, FileEntry.directory)
    else s.files.find (Octets.toText target)
  match found with
  | .ok (place, .directory) =>
    let s := { s with files := { s.files with directory := place } }
    let s := (s.setVariable "OLDPWD".toList old).setVariable "PWD".toList s.directory
    (if shown then s.out (s.directory ++ ['\n']) else s).withStatus 0
  | _ => s.refuse "cd".toList ("can't cd to ".toList ++ target)

def pwd : Action := fun s _ =>
  (s.out (s.directory ++ ['\n'])).withStatus 0

/-- Sets variables that are given as assignments, perhaps for the last time. -/
def assignEach (name : String) (lasting : Bool) : State → List Octets → State
  | s, [] => s.withStatus 0
  | s, a :: rest =>
    let left := a.takeWhile (· != '=')
    if a == ['-', 'p'] then assignEach name lasting s rest
    else if !isName left then s.refuseAll name.toList (a ++ ": bad variable name".toList)
    else
      let assigned := match a.drop left.length with
        | '=' :: value =>
          if s.constants.contains left then
            s.refuseAll name.toList (left ++ ": is read only".toList)
          else s.setVariable left value
        | _ => s
      if !assigned.isRunning then assigned
      else if lasting then
        assignEach name lasting { assigned with constants := left :: assigned.constants } rest
      else assignEach name lasting assigned rest

def assign : Action := assignEach "export" false

/-- Sets variables for the last time. -/
def readonly : Action := assignEach "readonly" true

/-- Sets variables until the function that runs returns. -/
def local_ : Action := fun s arguments =>
  let names := arguments.map fun a => a.takeWhile (· != '=')
  let old := names.map fun n => (n, s.lookup? n)
  match s.locals with
  | [] => s.refuseAll "local".toList "not in a function".toList
  | first :: rest => assignEach "local" false { s with locals := (old ++ first) :: rest } arguments

def unset : Action := fun s arguments =>
  match arguments with
  | ['-', 'f'] :: names =>
    { s with functions := s.functions.filter fun f => !names.contains f.1, status := 0 }
  | ['-', 'v'] :: names => (names.foldl State.unsetVariable s).withStatus 0
  | names => (names.foldl State.unsetVariable s).withStatus 0

/-- Sets the arguments and options of the shell, or prints its variables. -/
def set : Action := fun s arguments =>
  match arguments with
  | [] =>
    let line (v : Octets × Octets) : Octets := v.1 ++ "='".toList ++ v.2 ++ "'\n".toList
    let sorted := s.bindings.mergeSort fun a b => Octets.atMost a.1 b.1
    (s.out (sorted.flatMap line)).withStatus 0
  | ['-', '-'] :: rest => { s with arguments := rest, status := 0 }
  | a :: rest =>
    let change (options : List Char) : State :=
      { s with options, status := 0, arguments := if rest.isEmpty then s.arguments else rest }
    match a with
    | '-' :: c :: letters => change ((c :: letters) ++ s.options)
    | '+' :: c :: letters => change (s.options.filter fun o => !(c :: letters).contains o)
    | _ => { s with arguments := a :: rest, status := 0 }

def shift : Action := fun s arguments =>
  count s "shift" arguments 1 fun n =>
    if n ≤ s.arguments.length then { s with arguments := s.arguments.drop n, status := 0 }
    else s.refuseAll "shift".toList "can't shift that many".toList

/-- Splits a line among variables; the last gets all that is left. -/
def spread (separators : Octets) : State → List Octets → List (Char × Bool) → State
  | s, [], _ => s
  | s, [name], line =>
    let isBlank (c : Char × Bool) : Bool :=
      !c.2 && separators.contains c.1 && (c.1 == ' ' || c.1 == '\t' || c.1 == '\n')
    let line := ((line.dropWhile isBlank).reverse.dropWhile isBlank).reverse
    s.setVariable name (line.map (·.1))
  | s, name :: names, line =>
    let isBlank (c : Char × Bool) : Bool :=
      !c.2 && separators.contains c.1 && (c.1 == ' ' || c.1 == '\t' || c.1 == '\n')
    let isSeparator (c : Char × Bool) : Bool := !c.2 && separators.contains c.1
    let line := line.dropWhile isBlank
    let first := line.takeWhile fun c => !isSeparator c
    let rest := (line.drop first.length).dropWhile isBlank
    let rest := match rest with
      | c :: more => if isSeparator c then more else rest
      | [] => []
    spread separators (s.setVariable name (first.map (·.1))) names rest

/-- Octets with the mark whether a backslash stood before them; the backslashes are dropped. -/
def unquoteLine : Octets → List (Char × Bool)
  | '\\' :: c :: rest => (c, true) :: unquoteLine rest
  | c :: rest => (c, false) :: unquoteLine rest
  | [] => []

def read : Action := fun s arguments =>
  let (raw, names) := match arguments with
    | ['-', 'r'] :: names => (true, names)
    | _ => (false, arguments)
  let (line, s) := s.readLine 0
  let text := line.getD []
  let body := Octets.chomp text
  let chars := if raw then body.map fun c => (c, false) else unquoteLine body
  (spread s.separators s names chars).withStatus (if text.getLast? == some '\n' then 0 else 1)

def kill : Action := fun s arguments =>
  let usage : State := s.refuse "kill".toList
    ("Usage: kill [-s sigspec | -signum | -sigspec] [pid | job]... or\nkill -l [exitstatus]".toList)
  let send (n : Nat) (targets : List Octets) : State :=
    match targets with
    | [] => usage
    | t :: _ =>
      if t == processNumber then s.signal n
      else if (decimal? t).isSome then (s.blame "kill".toList "No such process".toList).withStatus 1
      else s.refuse "kill".toList ("Illegal number: ".toList ++ t)
  let named (name : Octets) (targets : List Octets) : State :=
    match Signal.number? (String.ofList name) with
    | some n => send n targets
    | none => s.refuse "kill".toList ("invalid signal number or name: ".toList ++ name)
  match arguments with
  | [] => usage
  | ['-', 's'] :: name :: targets => named name targets
  | ['-', '-'] :: targets => send 15 targets
  | ['-', 'l'] :: n :: _ =>
    match (Octets.digits? n).bind fun n => Signal.name? (n % 128) with
    | some name => (s.out (name.toList.drop 3 ++ ['\n'])).withStatus 0
    | none => s.refuse "kill".toList ("invalid signal number or exit status: ".toList ++ n)
  | ('-' :: name) :: targets =>
    match Signal.number? (String.ofList name) with
    | some n => send n targets
    | none => s.refuse "kill".toList ("Illegal option -".toList ++ name.take 1)
  | targets => send 15 targets

/-- Sets what is done before the shell ends. -/
def trap : Action := fun s arguments =>
  match arguments with
  | [] => s.withStatus 0
  | [condition] => { s with traps := s.traps.filter fun t => t.1 != condition, status := 0 }
  | script :: conditions =>
    let key (c : Octets) : Octets :=
      if c == ['0'] then "EXIT".toList
      else match Signal.number? (String.ofList c) with
        | some n => Octets.ofNat n
        | none => c
    let set (traps : List (Octets × Octets)) (c : Octets) : List (Octets × Octets) :=
      if script == ['-'] then traps.filter fun t => t.1 != key c
      else State.assign (key c) script traps
    { s with traps := conditions.foldl set s.traps, status := 0 }

def done (status : Nat) : Action := fun s _ =>
  s.withStatus status

/-- The commands of the shell itself by name. -/
def all : List (String × Action) :=
  [(":", done 0), ("true", done 0), ("false", done 1), ("echo", echo), ("printf", printf),
    ("test", test false), ("[", test true), ("exit", exit), ("return", return_),
    ("break", break_), ("continue", continue_), ("cd", cd), ("chdir", cd), ("pwd", pwd),
    ("export", assign), ("readonly", readonly), ("local", local_),
    ("unset", unset), ("set", set), ("shift", shift), ("read", read), ("kill", kill),
    ("trap", trap), ("wait", done 0), ("umask", done 0), ("ulimit", done 0), ("times", done 0),
    ("hash", done 0), ("alias", done 0), ("unalias", done 0), ("bg", done 0), ("fg", done 0),
    ("jobs", done 0)]

/-- The commands whose failure ends the shell and whose assignments stay. -/
def special : List String :=
  [":", "break", "continue", ".", "eval", "exec", "exit", "export", "readonly", "return", "set",
    "shift", "times", "trap", "unset"]

def find? (name : Octets) : Option Action :=
  all.findSome? fun c => if c.1.toList == name then some c.2 else none

end Builtin

end LineCompletion.Shell

import LineCompletion.Shell.Parse
import LineCompletion.Shell.Utility

/-!
# Running scripts

The meaning of commands: what a shell is after one has run. A bound on the depth keeps all this
total; a script that uses it up counts as one that never ends.
-/

namespace LineCompletion.Shell

namespace State

/-- Opens the target of a redirection; the first answer is where it leads. -/
def openTarget (s : State) (kind : RedirectionKind) (target : Octets) :
    Except Octets (Endpoint × State) :=
  let path := Octets.toText target
  let refuse (verb : String) (e : FileError) : Except Octets (Endpoint × State) :=
    let reason := match e with
      | .notFound =>
        if verb == "create" then "Directory nonexistent".toList else "No such file".toList
      | _ => fileErrorText e
    .error (("cannot " ++ verb ++ " ").toList ++ target ++ ": ".toList ++ reason)
  match kind with
  | .document =>
    let (index, s) := s.newStream target
    .ok (.stream index, s)
  | .copy =>
    if target == ['-'] then .ok (.nowhere, s)
    else match Octets.digits? target with
      | some n =>
        match s.descriptors.lookup n with
        | some e => .ok (e, s)
        | none => .error (target ++ ": Bad file descriptor".toList)
      | none => .error "Syntax error: Bad fd number".toList
  | _ =>
    if path == "/dev/null" then .ok (.nowhere, s)
    else if path == "/dev/stdout" then .ok (s.endpoint 1, s)
    else if path == "/dev/stderr" then .ok (s.endpoint 2, s)
    else match kind with
      | .read =>
        match s.files.find path with
        | .error e => refuse "open" e
        | .ok (_, .directory) => .ok (.nowhere, s)
        | .ok (_, .file content) =>
          let (index, s) := s.newStream (Octets.ofBytes content)
          .ok (.stream index, s)
      | _ =>
        let content := if kind == .append then (s.files.read path).toOption.getD [] else []
        match s.files.write path content with
        | .error e => refuse "create" e
        | .ok files =>
          match files.locate path with
          | .error e => refuse "create" e
          | .ok place => .ok (.file place, { s with files })

/-- Makes redirections one after the other, up to the first that fails. -/
def redirect (run : Substitution) : State → List Redirection → Except Octets State × State
  | s, [] => (.ok s, s)
  | s, r :: rest =>
    let (target, s) := expandText run s r.target
    match s.openTarget r.kind target with
    | .error e => (.error e, s)
    | .ok (endpoint, s) => redirect run (s.connect r.descriptor endpoint) rest

/-- The state after a shell of its own has ended: only files, streams and time remain. -/
def afterSubshell (s inner : State) : State :=
  let flow := match inner.flow with
    | .killed n => .killed n
    | .stuck => .stuck
    | _ => s.flow
  { s with files := { inner.files with directory := s.files.directory }, streams := inner.streams,
           nextStream := inner.nextStream, slept := inner.slept, status := inner.status, flow }

/-- The state with which a shell of its own begins. -/
def subshell (s : State) : State :=
  { s with traps := [] }

/-- The state after the loops around a command were told what to do, and whether the loop goes
on. -/
def turn (s : State) : Bool × State :=
  match s.flow with
  | .next => (true, s)
  | .leaving n => (false, { s with flow := if n ≤ 1 then .next else .leaving (n - 1) })
  | .turning n =>
    if n ≤ 1 then (true, { s with flow := .next }) else (false, { s with flow := .turning (n - 1) })
  | _ => (false, s)

/-- Gives variables back the values they had before a function ran. -/
def restore (s : State) (old : List (Octets × Option Octets)) : State :=
  old.reverse.foldl (fun s v => match v.2 with
    | some value => s.setVariable v.1 value
    | none => s.unsetVariable v.1) s

end State

/-- Where a command of a name comes from, for `command` and `type`. -/
def whereIs (s : State) (name : Octets) : Option Octets :=
  if (s.functions.lookup name).isSome || (Builtin.find? name).isSome
      || ["eval", "exec", "command", "type", ".", "trap", "getopts"].any fun c => c.toList == name
  then some name
  else if (Utility.find? name).isSome && !name.contains '/' then some ("/usr/bin/".toList ++ name)
  else none

/-- What the shell says of a name that stands for no command, after the name of what wants it. -/
def notFound (s : State) (context name : Octets) : State :=
  let say (problem : String) (status : Nat) : State :=
    (s.warn (context ++ name ++ (": " ++ problem).toList)).withStatus status
  if name.isEmpty then say "Permission denied" 127
  else if name.contains '/' then
    match s.files.find (Octets.toText name) with
    | .ok _ => say "Permission denied" 126
    | .error .notDirectory => say "Not a directory" 126
    | .error _ => say "not found" 127
  else say "not found" 127

def expandPattern (run : Substitution) (s : State) (w : Word) : Pattern × State :=
  let (pieces, s) := expandWord run s w
  (Pattern.ofOctets (pieceMarks pieces), s)

mutual

/-- Runs a script line by line, up to the first flaw. -/
def runLines : Nat → State → TokenScript → State
  | 0, s, _ => { s with flow := .stuck }
  | fuel + 1, s, script =>
    let s := { s with line := script.line }
    match readLine script with
    | .error e => s.abort e.message.toList
    | .ok (none, _) => s
    | .ok (some c, rest) =>
      let s := run fuel s c
      if s.isRunning then runLines fuel s rest else s

def runText : Nat → State → Octets → State
  | 0, s, _ => { s with flow := .stuck }
  | fuel + 1, s, text => runLines fuel s (TokenScript.ofOctets text)

/-- The output of a script that runs in a shell of its own. -/
def substitute : Nat → State → Octets → Octets × State
  | 0, s, _ => ([], { s with flow := .stuck })
  | fuel + 1, s, text =>
    let (index, opened) := s.newStream []
    let start := { opened.subshell.connect 1 (.stream index) with status := 0 }
    let inner := leave fuel (runText fuel start text)
    let after := s.afterSubshell inner
    (inner.stream index, { after with status := s.status, substituted := some inner.status })

/-- Does what a shell has to do before it ends. -/
def leave : Nat → State → State
  | 0, s => s
  | fuel + 1, s =>
    let act (key : Octets) (status : Nat) : State :=
      match s.traps.lookup key with
      | none => s
      | some text =>
        let cleared := { s with traps := s.traps.filter fun t => t.1 != key, flow := .next, status }
        let after := runText fuel cleared text
        if after.flow == .next then { after with status, flow := .exiting } else after
    match s.flow with
    | .killed _ | .stuck => s
    | _ => act "EXIT".toList s.status

def catchSignal : Nat → State → State
  | 0, s => s
  | fuel + 1, s =>
    match s.flow with
    | .killed n =>
      match s.traps.lookup (Octets.ofNat n) with
      | none => s
      | some text =>
        if n == 9 then s
        else
          let after := runText fuel { s with flow := .next } text
          if after.flow == .next then { after with status := 0 } else after
    | _ => s

/-- Runs a command whose status decides what is done next. -/
def runTest : Nat → State → Command → State
  | 0, s, _ => { s with flow := .stuck }
  | fuel + 1, s, c => { run fuel { s with tested := true } c with tested := s.tested }

/-- Runs a command. -/
def run : Nat → State → Command → State
  | 0, s, _ => { s with flow := .stuck }
  | fuel + 1, s, c =>
    if !s.isRunning then s
    else
      let check (t : State) : State :=
        if !s.tested && t.hasOption 'e' && t.status != 0 && t.isRunning then
          { t with flow := .exiting }
        else t
      match c with
      | .nothing => s
      | .simple line assignments words redirections =>
        check (catchSignal fuel (runSimple fuel { s with line } assignments words redirections))
      | .sequence a b => run fuel (run fuel s a) b
      | .both a b =>
        let s := runTest fuel s a
        if s.isRunning && s.status == 0 then run fuel s b else s
      | .either a b =>
        let s := runTest fuel s a
        if s.isRunning && s.status != 0 then run fuel s b else s
      | .negated a =>
        let s := runTest fuel s a
        if s.isRunning then s.withStatus (if s.status == 0 then 1 else 0) else s
      | .background a =>
        let inner := run fuel (s.subshell.connect 0 .nowhere) a
        let after := s.afterSubshell inner
        { after with status := 0, slept := s.slept,
                     flow := match after.flow with
                       | .stuck => .next
                       | f => f }
      | .pipe a b =>
        let (index, opened) := s.newStream []
        let first := leave fuel (run fuel (opened.subshell.connect 1 (.stream index)) a)
        let middle := s.afterSubshell first
        let middle := if middle.flow == .stuck then { middle with flow := s.flow } else middle
        let second := leave fuel
          (run fuel { middle.subshell.connect 0 (.stream index) with slept := s.slept } b)
        let after := middle.afterSubshell second
        check { after with slept := max middle.slept after.slept }
      | .subshell a => check (s.afterSubshell (leave fuel (run fuel s.subshell a)))
      | .redirected a rs =>
        match s.redirect (substitute fuel) rs with
        | (.error e, s) => (s.warn e).withStatus 2
        | (.ok inner, _) => { run fuel inner a with descriptors := s.descriptors }
      | .branch test yes no =>
        let s := runTest fuel s test
        if !s.isRunning then s
        else if s.status == 0 then run fuel s yes
        else run fuel (s.withStatus 0) no
      | .loop untilSuccess test body => runLoop fuel 0 s untilSuccess test body
      | .each name words body =>
        let (values, s) := match words with
          | none => (s.arguments, s)
          | some ws => expandWords (substitute fuel) s ws
        if s.isRunning then runEach fuel (s.withStatus 0) name values body else s
      | .choice subject arms =>
        let (value, s) := expandText (substitute fuel) s subject
        if s.isRunning then runArms fuel (s.withStatus 0) value arms else s
      | .define name body =>
        { s with functions := State.assign name body s.functions, status := 0 }

/-- Runs a loop; the status is that of its last turn. -/
def runLoop : Nat → Nat → State → Bool → Command → Command → State
  | 0, _, s, _, _, _ => { s with flow := .stuck }
  | fuel + 1, status, s, untilSuccess, test, body =>
    let s := runTest fuel s test
    match s.turn with
    | (false, s) => s
    | (true, s) =>
      if (s.status == 0) == untilSuccess then s.withStatus status
      else
        let s := run fuel s body
        match s.turn with
        | (false, s) => s
        | (true, s) => runLoop fuel s.status s untilSuccess test body

/-- Runs a command for each value of a variable. -/
def runEach : Nat → State → Octets → List Octets → Command → State
  | 0, s, _, _, _ => { s with flow := .stuck }
  | _ + 1, s, _, [], _ => s
  | fuel + 1, s, name, value :: rest, body =>
    let s := run fuel (s.setVariable name value) body
    match s.turn with
    | (false, s) => s
    | (true, s) => runEach fuel s name rest body

/-- Runs the command of the first pattern that matches. -/
def runArms : Nat → State → Octets → List (List Word × Command) → State
  | 0, s, _, _ => { s with flow := .stuck }
  | _ + 1, s, _, [] => s
  | fuel + 1, s, value, (patterns, body) :: rest =>
    let (hit, s) := patterns.foldl (fun (acc : Bool × State) w =>
      if acc.1 then acc
      else
        let (p, s) := expandPattern (substitute fuel) acc.2 w
        (p.isMatch value, s)) (false, s)
    if !s.isRunning then s
    else if hit then run fuel s body
    else runArms fuel s value rest

/-- Runs a command that consists of words. -/
def runSimple : Nat → State → List (Octets × Word) → List Word → List Redirection → State
  | 0, s, _, _, _ => { s with flow := .stuck }
  | fuel + 1, s, assignments, words, redirections =>
    let (arguments, s) := expandWords (substitute fuel) { s with substituted := none } words
    if !s.isRunning then s
    else
      let assignAll (s : State) : State :=
        assignments.foldl (fun s a =>
          if !s.isRunning then s
          else
            let (value, s) := expandText (substitute fuel) s a.2
            if s.constants.contains a.1 then s.abort (a.1 ++ ": is read only".toList)
            else s.setVariable a.1 value) s
      match arguments with
      | [] =>
        let s := assignAll s
        let s := if s.isRunning then s.withStatus (s.substituted.getD 0) else s
        if !s.isRunning || redirections.isEmpty then s
        else match s.redirect (substitute fuel) redirections with
          | (.error e, s) => (s.warn e).withStatus 2
          | (.ok inner, _) => { inner with descriptors := s.descriptors }
      | name :: rest =>
        match s.redirect (substitute fuel) redirections with
        | (.error e, t) =>
          let t := { t with descriptors := s.descriptors }
          if Builtin.special.any fun c => c.toList == name then t.abort e
          else (t.warn e).withStatus 2
        | (.ok inner, _) =>
          if !inner.isRunning then inner
          else if name == "exec".toList then
            let inner := assignAll inner
            match rest with
            | [] => inner.withStatus 0
            | program :: rest =>
              if (whereIs s program).isNone then
                { notFound inner "exec: ".toList program with flow := .exiting }
              else
                let after := runNamed fuel false { inner with traps := [] } program rest
                if after.isRunning then { after with flow := .exiting } else after
          else
            let old := assignments.map fun a => (a.1, s.lookup? a.1)
            let after := runNamed fuel true (assignAll inner) name rest
            let after := { after with descriptors := s.descriptors }
            if Builtin.special.any fun c => c.toList == name then after else after.restore old

/-- Runs a command by its name: a function, a command of the shell or a program. -/
def runNamed : Nat → Bool → State → Octets → List Octets → State
  | 0, _, s, _, _ => { s with flow := .stuck }
  | fuel + 1, functions, s, name, arguments =>
    match if functions then s.functions.lookup name else none with
    | some body =>
      let inner := run fuel
        { s with arguments, locals := [] :: s.locals, status := s.status } body
      let inner := inner.restore (inner.locals.head?.getD [])
      { inner with arguments := s.arguments, locals := s.locals,
                   flow := if inner.flow == .returning then .next else inner.flow }
    | none =>
      match String.ofList name with
      | "eval" =>
        if arguments.isEmpty then s.withStatus 0
        else runLines fuel { s with status := 0 }
          (TokenScript.ofOctets ([' '].intercalate arguments))
      | "." =>
        match arguments with
        | [] => s.withStatus 0
        | path :: _ =>
          match s.fileAt path with
          | .ok text =>
            let after := runText fuel s text
            { after with flow := if after.flow == .returning then .next else after.flow }
          | .error _ => s.refuseAll ".".toList (path ++ ": not found".toList)
      | "command" =>
        match arguments with
        | [] => s.withStatus 0
        | ['-', 'v'] :: names =>
          let found := names.filterMap (whereIs s)
          (s.out (Utility.unlines found)).withStatus
            (if found.length == names.length then 0 else 127)
        | program :: rest => runNamed fuel false s program rest
      | "type" =>
        arguments.foldl (fun s program =>
          match whereIs s program with
          | none => (s.out (program ++ ": not found\n".toList)).withStatus 127
          | some path =>
            let kind := if (s.functions.lookup program).isSome then " is a shell function\n".toList
              else if path == program then " is a shell builtin\n".toList
              else " is ".toList ++ path ++ ['\n']
            s.out (program ++ kind)) (s.withStatus 0)
      | "sh" | "/bin/sh" | "dash" | "/usr/bin/sh" =>
        let inner : State := { s.subshell with functions := [], options := [], tested := false }
        let after := match arguments with
          | ['-', 'c'] :: text :: rest =>
            leave fuel (runText fuel
              { inner with name := rest.head?.getD name, arguments := rest.tail } text)
          | [] =>
            let (text, t) := inner.readAll 0
            leave fuel (runText fuel t text)
          | path :: rest =>
            match s.fileAt path with
            | .ok text =>
              leave fuel (runText fuel { inner with name := path, arguments := rest } text)
            | .error _ =>
              (inner.warn ("cannot open ".toList ++ path ++ ": No such file".toList)).withStatus 2
        let after := match after.flow with
          | .killed n => { after with status := 128 + n, flow := .exiting }
          | _ => after
        s.afterSubshell after
      | "xargs" =>
        let (text, s) := s.readAll 0
        let words := (text.map fun c => if c == '\n' || c == '\t' then ' ' else c)
        let found := (Utility.fields ' ' words).filter fun w => !w.isEmpty
        match arguments with
        | ['-', 'n', '1'] :: program :: rest =>
          found.foldl (fun s w => runNamed fuel false s program (rest ++ [w])) s
        | ['-', 'n'] :: ['1'] :: program :: rest =>
          found.foldl (fun s w => runNamed fuel false s program (rest ++ [w])) s
        | [] => s.out ([' '].intercalate found ++ ['\n'])
        | program :: rest => runNamed fuel false s program (rest ++ found)
      | _ =>
        match Builtin.find? name, Utility.find? name with
        | some action, _ => action s arguments
        | none, some action => action s arguments
        | none, none => notFound s [] name

end

/-- A bound on the depth of scripts. -/
def depth : Nat :=
  20000

/-- The variables with which a shell begins. -/
def environment (directory : Octets) : List (Octets × Octets) :=
  [("PWD".toList, directory), ("HOME".toList, "/root".toList),
    ("PATH".toList, "/usr/local/sbin:/usr/local/bin:/usr/sbin:/usr/bin:/sbin:/bin".toList)]

/-- Runs a script on files, with no input. -/
def execute (files : Files) (script : Octets) : Report :=
  let s : State :=
    { files, streams := [(0, []), (1, [])], nextStream := 2,
      descriptors := [(0, .nowhere), (1, .stream 0), (2, .stream 1)] }
  let s := { s with bindings := environment s.directory }
  let s := leave depth (runText depth s script)
  { ending := match s.flow with
      | .killed n => .killed n
      | .stuck => .running
      | _ => .exited s.status
    output := Octets.toBytes (s.stream 0)
    errors := Octets.toBytes (s.stream 1)
    milliseconds := s.slept
    files := { s.files with directory := files.directory } }

instance : ScriptRunner where
  execute files script := execute files (Octets.ofString script)

end LineCompletion.Shell

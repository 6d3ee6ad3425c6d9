import LineCompletion.Files.Basic
import LineCompletion.Shell.Script

/-!
# The state of a shell

What a running shell holds: the files, its variables, functions and arguments, and where its
descriptors lead. Output is gathered in streams, from which other commands may read.
-/

namespace LineCompletion.Shell

inductive Endpoint where
  | stream (index : Nat)
  | file (place : List String)
  | nowhere
  deriving Repr, DecidableEq, BEq, Inhabited

inductive Flow where
  | next
  | leaving (loops : Nat)
  | turning (loops : Nat)
  | returning
  | exiting
  | killed (signal : Nat)
  | stuck
  deriving Repr, DecidableEq, BEq, Inhabited

/-- A running shell. -/
structure State where
  files : Files := {}
  bindings : List (Octets × Octets) := []
  arguments : List Octets := []
  name : Octets := ['s', 'h']
  functions : List (Octets × Command) := []
  traps : List (Octets × Octets) := []
  locals : List (List (Octets × Option Octets)) := []
  status : Nat := 0
  substituted : Option Nat := none
  constants : List Octets := []
  options : List Char := []
  /-- Whether something depends on the status of the current command, so that its failure does not
  end the shell. -/
  tested : Bool := false
  line : Nat := 1
  streams : List (Nat × Octets) := []
  nextStream : Nat := 0
  descriptors : List (Nat × Endpoint) := []
  slept : Nat := 0
  flow : Flow := .next
  deriving Inhabited

namespace State

/-- An entry of a list of pairs set to a value. -/
def assign {α β : Type} [BEq α] (key : α) (value : β) (entries : List (α × β)) : List (α × β) :=
  (key, value) :: entries.filter fun e => !(e.1 == key)

def lookup? (s : State) (name : Octets) : Option Octets :=
  s.bindings.lookup name

def setVariable (s : State) (name value : Octets) : State :=
  { s with bindings := assign name value s.bindings }

def unsetVariable (s : State) (name : Octets) : State :=
  { s with bindings := s.bindings.filter fun e => e.1 != name }

def withStatus (s : State) (status : Nat) : State :=
  { s with status }

def endpoint (s : State) (descriptor : Nat) : Endpoint :=
  (s.descriptors.lookup descriptor).getD .nowhere

def stream (s : State) (index : Nat) : Octets :=
  (s.streams.lookup index).getD []

def setStream (s : State) (index : Nat) (octets : Octets) : State :=
  { s with streams := assign index octets s.streams }

/-- Opens a new stream with some octets; the first answer is its number. -/
def newStream (s : State) (octets : Octets) : Nat × State :=
  (s.nextStream, { s.setStream s.nextStream octets with nextStream := s.nextStream + 1 })

/-- Makes a descriptor lead somewhere. -/
def connect (s : State) (descriptor : Nat) (endpoint : Endpoint) : State :=
  { s with descriptors := assign descriptor endpoint s.descriptors }

def write (s : State) (descriptor : Nat) (octets : Octets) : State :=
  match s.endpoint descriptor with
  | .nowhere => s
  | .stream index => s.setStream index (s.stream index ++ octets)
  | .file place =>
    match s.files.at? place with
    | some (.file content) =>
      { s with files := s.files.put place (.file (content ++ Octets.toBytes octets)) }
    | _ => s

def out (s : State) (octets : Octets) : State :=
  s.write 1 octets

/-- Writes a text to the output for errors, as a line. -/
def complain (s : State) (text : Octets) : State :=
  s.write 2 (text ++ ['\n'])

/-- Writes what the shell itself has to say to the output for errors. -/
def warn (s : State) (text : Octets) : State :=
  s.complain (s.name ++ ": ".toList ++ Octets.ofNat s.line ++ ": ".toList ++ text)

def readAll (s : State) (descriptor : Nat) : Octets × State :=
  match s.endpoint descriptor with
  | .stream index => (s.stream index, s.setStream index [])
  | .file place =>
    match s.files.at? place with
    | some (.file content) => (Octets.ofBytes content, s)
    | _ => ([], s)
  | .nowhere => ([], s)

/-- Takes the next line from a descriptor, with its newline; none at the end. -/
def readLine (s : State) (descriptor : Nat) : Option Octets × State :=
  match s.endpoint descriptor with
  | .stream index =>
    match Octets.lines (s.stream index) with
    | [] => (none, s)
    | line :: rest => (some line, s.setStream index rest.flatten)
  | _ => (none, s)

def directory (s : State) : Octets :=
  '/' :: ['/'].intercalate (s.files.directory.map Octets.ofString)

def fileAt (s : State) (path : Octets) : Except FileError Octets :=
  (s.files.read (Octets.toText path)).map Octets.ofBytes

/-- Whether the shell goes on with the next command. -/
def isRunning (s : State) : Bool :=
  s.flow == .next

def hasOption (s : State) (option : Char) : Bool :=
  s.options.contains option

def finish (s : State) (status : Nat) : State :=
  { s with status, flow := .exiting }

/-- Ends the shell with a message of its own. -/
def abort (s : State) (text : Octets) : State :=
  (s.warn text).finish 2

end State

def fileErrorText (e : FileError) : Octets :=
  match e with
  | .notFound => "No such file or directory".toList
  | .notDirectory => "Not a directory".toList
  | .isDirectory => "Is a directory".toList
  | .nameTooLong => "File name too long".toList
  | .invalidPath => "Invalid argument".toList
  | .other message => Octets.ofString message

end LineCompletion.Shell

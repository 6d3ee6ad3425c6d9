import LineCompletion.Document.Data

/-!
# Documents as they are read

A document as a tree that may stop where its text does: a reader of the tree meets the flaws of the
text in the order in which they stand there, and only those that it comes across.
-/

namespace LineCompletion

inductive Format where
  | json
  | yaml
  deriving Repr, DecidableEq, BEq, Inhabited

/-- How deep lists and maps of a document may be nested. -/
def Format.maxDepth : Format → Nat
  | .json => 127
  | .yaml => 128

/-- A value without parts. -/
structure Scalar where
  /-- The value it stands for on its own, if it can stand alone. -/
  data : Option Data
  /-- The text it stands for where a text is wanted. -/
  text : Option String
  /-- Whether nothing is written at its place. -/
  absent : Bool := false
  deriving Repr, Inhabited

mutual

/-- A place of a document. -/
inductive Node where
  /-- A value without parts. -/
  | scalar (s : Scalar)
  /-- A list. -/
  | list (items : Items)
  /-- Pairs of keys and values. -/
  | map (members : Members)
  /-- A value that cannot be read for one reason, and perhaps not be passed over for another. -/
  | refused (read : Flaw) (skip : Option Flaw)
  deriving Inhabited

inductive Items where
  /-- The end of the list. -/
  | done
  /-- An element and what follows it. -/
  | more (item : Node) (rest : Items)
  /-- The list does not go on as a list must. -/
  | broken (f : Flaw)
  deriving Inhabited

inductive Members where
  /-- The end of the map. -/
  | done
  /-- A key, its value and what follows them. -/
  | more (key value : Node) (rest : Members)
  /-- The map does not go on as a map must. -/
  | broken (f : Flaw)
  deriving Inhabited

end

/-- A whole document. -/
structure Document where
  root : Node
  trailing : Bool := false
  deriving Inhabited

namespace Node

/-- The error for a place that holds no value of the wanted kind. -/
def mismatch (expected : String) : Node → DocumentError
  | .scalar { data := some d, .. } => .schema (.invalidType (.ofData d) expected)
  | .scalar { data := none, .. } => .flaw .malformed
  | .list _ => .schema (.invalidType .list expected)
  | .map _ => .schema (.invalidType .map expected)
  | .refused f _ => .flaw f

def text (n : Node) : Except DocumentError String :=
  match n with
  | .scalar { text := some s, .. } => .ok s
  | n => .error (n.mismatch "a string")

def bool (n : Node) : Except DocumentError Bool :=
  match n with
  | .scalar { data := some (.bool b), .. } => .ok b
  | n => .error (n.mismatch "a boolean")

end Node

/-- Reads a natural number of 64 bits. -/
def Data.word (d : Data) : Except SchemaError UInt64 :=
  match d with
  | .int n =>
    if 0 ≤ n && n < UInt64.size then .ok n.toNat.toUInt64
    else .error (.invalidValue (.int n) "u64")
  | d => .error (.invalidType (.ofData d) "u64")

namespace Node

/-- Reads a natural number of 64 bits. -/
def word (n : Node) : Except DocumentError UInt64 :=
  match n with
  | .scalar { data := some d, .. } => d.word.mapError .schema
  | n => .error (n.mismatch "u64")

def isNull : Node → Bool
  | .scalar { data := some .null, .. } => true
  | _ => false

mutual

/-- Passes over a value: only what keeps the text from going on is an error. -/
def skip : Node → Except DocumentError Unit
  | .scalar _ => .ok ()
  | .list items => skipItems items
  | .map members => skipMembers members
  | .refused _ none => .ok ()
  | .refused _ (some f) => .error (.flaw f)

/-- Passes over the elements of a list. -/
def skipItems : Items → Except DocumentError Unit
  | .done => .ok ()
  | .more item rest =>
    match skip item with
    | .error e => .error e
    | .ok () => skipItems rest
  | .broken f => .error (.flaw f)

/-- Passes over the pairs of a map. -/
def skipMembers : Members → Except DocumentError Unit
  | .done => .ok ()
  | .more key value rest =>
    match skip key with
    | .error e => .error e
    | .ok () =>
      match skip value with
      | .error e => .error e
      | .ok () => skipMembers rest
  | .broken f => .error (.flaw f)

end

/-- The depth left inside a list or a map. -/
def descend : Nat → Except DocumentError Nat
  | 0 => .error (.flaw .malformed)
  | depth + 1 => .ok depth

mutual

def data (depth : Nat) : Node → Except DocumentError Data
  | .scalar { data := some d, .. } => .ok d
  | .scalar { data := none, .. } => .error (.flaw .malformed)
  | .list items =>
    match descend depth with
    | .error e => .error e
    | .ok depth => (dataItems depth items).map Data.list
  | .map members =>
    match descend depth with
    | .error e => .error e
    | .ok depth => (dataMembers depth members).map Data.map
  | .refused f _ => .error (.flaw f)

def dataItems (depth : Nat) : Items → Except DocumentError (List Data)
  | .done => .ok []
  | .more item rest =>
    match data depth item with
    | .error e => .error e
    | .ok d => (dataItems depth rest).map (d :: ·)
  | .broken f => .error (.flaw f)

def dataMembers (depth : Nat) : Members → Except DocumentError (List (Data × Data))
  | .done => .ok []
  | .more key value rest =>
    match data depth key with
    | .error e => .error e
    | .ok k =>
      match data depth value with
      | .error e => .error e
      | .ok v => (dataMembers depth rest).map ((k, v) :: ·)
  | .broken f => .error (.flaw f)

end

end Node

namespace Items

/-- Reads every element of a list. -/
def each {α : Type} (f : Node → Except DocumentError α) : Items → Except DocumentError (List α)
  | .done => .ok []
  | .more item rest =>
    match f item with
    | .error e => .error e
    | .ok a => (each f rest).map (a :: ·)
  | .broken f => .error (.flaw f)

end Items

namespace Node

/-- Reads a list whose elements are read with the depth left inside it. -/
def listOf {α : Type} (depth : Nat) (f : Nat → Node → Except DocumentError α) (n : Node) :
    Except DocumentError (List α) :=
  match n with
  | .list items =>
    match descend depth with
    | .error e => .error e
    | .ok depth => items.each (f depth)
  | .scalar { absent := true, .. } => .ok []
  | n => .error (n.mismatch "a sequence")

def texts (depth : Nat) (n : Node) : Except DocumentError (List String) :=
  n.listOf depth fun _ item => item.text

end Node

def Document.read {α : Type} (f : Node → Except DocumentError α) (d : Document) :
    Except DocumentError α :=
  match f d.root with
  | .error e => .error e
  | .ok a => if d.trailing then .error (.flaw .malformed) else .ok a

end LineCompletion

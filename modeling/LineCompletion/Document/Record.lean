import LineCompletion.Document.Node

/-!
# Records and names in documents

A record is read into a draft, field by field in the order in which the document gives them: a field
must not be given twice, and what is no field is passed over. Where a document gives a name, it must
be one of those known.
-/

namespace LineCompletion

/-- The value that a name stands for, among the known ones. -/
def named {α : Type} (known : List α) (name : α → String) (text : String) : Except SchemaError α :=
  match known.find? fun a => name a == text with
  | some a => .ok a
  | none => .error (.unknownVariant text (known.map name))

def once {ε α : Type} (duplicate : ε) (before : Option α) (read : Except ε α) :
    Except ε (Option α) :=
  match before with
  | some _ => .error duplicate
  | none => read.map some

def duplicateField (name : String) : DocumentError :=
  .schema (.duplicateField name)

/-- How a record is read from the places of a document. -/
structure RecordReader (δ : Type) where
  /-- What messages call the record. -/
  expected : String
  /-- The names of the fields, in the order in which a list gives them. -/
  fields : List String
  /-- Reads a field with the depth left inside the record. -/
  read : Nat → String → Node → δ → Except DocumentError δ

namespace RecordReader

variable {δ : Type}

def readMembers (r : RecordReader δ) (depth : Nat) (draft : δ) : Members → Except DocumentError δ
  | .done => .ok draft
  | .broken f => .error (.flaw f)
  | .more key value rest =>
    match key.text with
    | .error e => .error e
    | .ok name =>
      if r.fields.contains name then
        match r.read depth name value draft with
        | .error e => .error e
        | .ok draft => readMembers r depth draft rest
      else
        match value.skip with
        | .error e => .error e
        | .ok () => readMembers r depth draft rest

/-- Reads the elements of a list as the fields in order; more elements are refused. -/
def readItems (r : RecordReader δ) (depth : Nat) : List String → δ → Items →
    Except DocumentError δ
  | _, draft, .done => .ok draft
  | _, _, .broken f => .error (.flaw f)
  | [], _, .more _ _ => .error (.flaw .malformed)
  | name :: names, draft, .more item rest =>
    match r.read depth name item draft with
    | .error e => .error e
    | .ok draft => readItems r depth names draft rest

/-- Reads a record; in JSON a list of its fields will do, in YAML nothing at all. -/
def readNode (r : RecordReader δ) (format : Format) (depth : Nat) (draft : δ) (n : Node) :
    Except DocumentError δ :=
  match n, format with
  | .map members, _ =>
    match Node.descend depth with
    | .error e => .error e
    | .ok depth => r.readMembers depth draft members
  | .list items, .json =>
    match Node.descend depth with
    | .error e => .error e
    | .ok depth => r.readItems depth r.fields draft items
  | .scalar { absent := true, .. }, _ => .ok draft
  | n, _ => .error (n.mismatch r.expected)

end RecordReader

namespace Node

/-- Reads the value that goes with a name which stands for all. -/
def unit (n : Node) : Except DocumentError Unit :=
  if n.isNull then .ok () else .error (n.mismatch "unit")

/-- Reads a name written as the only key of a map, with a null value. -/
def soleName {α : Type} (known : List α) (name : α → String) :
    Members → Except DocumentError α
  | .done => .error (.flaw .malformed)
  | .broken f => .error (.flaw f)
  | .more key value rest => do
    let a ← (named known name (← key.text)).mapError DocumentError.schema
    value.unit
    match rest with
    | .done => .ok a
    | .broken f => .error (.flaw f)
    | .more .. => .error (.flaw .malformed)

/-- Reads one of the known names. In JSON it may be the only key of a map. -/
def name {α : Type} (known : List α) (name : α → String) (format : Format) (depth : Nat)
    (n : Node) : Except DocumentError α :=
  match n, format with
  | .scalar { text := some s, .. }, _ => (named known name s).mapError DocumentError.schema
  | .map members, .json =>
    match descend depth with
    | .error e => .error e
    | .ok _ => soleName known name members
  | .refused f _, _ => .error (.flaw f)
  | _, _ => .error (.flaw .malformed)

end Node

namespace Data

def string (d : Data) : Except SchemaError String :=
  match d with
  | .text s => .ok s
  | d => .error (.invalidType (.ofData d) "a string")

def truth (d : Data) : Except SchemaError Bool :=
  match d with
  | .bool b => .ok b
  | d => .error (.invalidType (.ofData d) "a boolean")

/-- The place among names that a number means. -/
def index? : Data → Option Nat
  | .int n => if 0 ≤ n then some n.toNat else none
  | _ => none

def listOf {α : Type} (f : Data → Except SchemaError α) (d : Data) : Except SchemaError (List α) :=
  match d with
  | .list xs => xs.mapM f
  | d => .error (.invalidType (.ofData d) "a sequence")

/-- The field that a key of a map means, by its name or its place among the fields; nothing for a
key that means none. -/
def field? (fields : List String) (key : Data) : Except SchemaError (Option String) :=
  match key with
  | .text name => .ok (if fields.contains name then some name else none)
  | d =>
    match d.index? with
    | some i => .ok fields[i]?
    | none => .error (.invalidType (.ofData d) "field identifier")

/-- Reads the fields among the pairs of a map into a draft, in order. -/
def readEntries {δ : Type} (fields : List String) (read : String → Data → δ → Except SchemaError δ)
    (draft : δ) : List (Data × Data) → Except SchemaError δ
  | [] => .ok draft
  | (key, value) :: rest =>
    match field? fields key with
    | .error e => .error e
    | .ok none => readEntries fields read draft rest
    | .ok (some name) =>
      match read name value draft with
      | .error e => .error e
      | .ok draft => readEntries fields read draft rest

/-- Reads the elements of a list as fields in order into a draft. -/
def readElements {δ : Type} (read : String → Data → δ → Except SchemaError δ) :
    List String → δ → List Data → Except SchemaError δ
  | _, draft, [] => .ok draft
  | [], draft, _ => .ok draft
  | name :: names, draft, value :: rest =>
    match read name value draft with
    | .error e => .error e
    | .ok draft => readElements read names draft rest

/-- What messages call a list of so many elements. -/
def elements (count : Nat) : String :=
  toString count ++ " element" ++ (if count == 1 then "" else "s")

/-- The value that a name or its place among the known names stands for. -/
def variant {α : Type} (known : List α) (name : α → String) (d : Data) : Except SchemaError α :=
  match d with
  | .text s => named known name s
  | .int n =>
    match if 0 ≤ n then known[n.toNat]? else none with
    | some a => .ok a
    | none =>
      if 0 ≤ n then
        .error (.invalidValue (.int n)
          ("variant index 0 <= i < " ++ toString known.length))
      else .error (.invalidType (.int n) "variant identifier")
  | d => .error (.invalidType (.ofData d) "variant identifier")

/-- The kind that a map gives under a tag; the first bad or second tag is an error. -/
def tag {α : Type} (name : String) (read : Data → Except SchemaError α) :
    Option α → List (Data × Data) → Except SchemaError α
  | none, [] => .error (.missingField name)
  | some a, [] => .ok a
  | found, (.text s, value) :: rest =>
    if s == name then
      match once (.duplicateField name) found (read value) with
      | .error e => .error e
      | .ok found => tag name read found rest
    else tag name read found rest
  | found, _ :: rest => tag name read found rest

end Data

end LineCompletion

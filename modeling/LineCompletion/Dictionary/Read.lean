import LineCompletion.Dictionary.Basic
import LineCompletion.Document.Record

/-!
# Reading dictionaries

A dictionary from a document. What a parameter is, its source and its separator stand among the
other fields of the parameter in any order, so they are kept as values until its end; so are the
parts of a source.
-/

namespace LineCompletion

namespace CachePolicy

def fields : List String := ["by_time_secs", "by_current_working_directory"]

structure Draft where
  /-- The time to live, once given. -/
  ttlSeconds : Option (Option UInt64) := none
  /-- Whether values belong to a directory, once given. -/
  perDirectory : Option Bool := none
  deriving Repr, Inhabited

def Draft.finish (d : Draft) : CachePolicy :=
  { ttlSeconds := d.ttlSeconds.getD none, perDirectory := d.perDirectory.getD false }

def reader : RecordReader Draft :=
  { expected := "struct CachePolicy"
    fields
    read := fun _ name value d =>
      if name == "by_time_secs" then do
        let read := if value.isNull then .ok none else value.word.map some
        let ttlSeconds ← once (duplicateField name) d.ttlSeconds read
        return { d with ttlSeconds }
      else do
        let perDirectory ← once (duplicateField name) d.perDirectory value.bool
        return { d with perDirectory } }

/-- Reads a policy from a document of its own. -/
def ofNode (format : Format) (n : Node) : Except DocumentError CachePolicy :=
  (reader.readNode format format.maxDepth {} n).map Draft.finish

def readField (name : String) (value : Data) (d : Draft) : Except SchemaError Draft :=
  if name == "by_time_secs" then do
    let read := match value with
      | .null => .ok none
      | value => value.word.map some
    let ttlSeconds ← once (.duplicateField name) d.ttlSeconds read
    return { d with ttlSeconds }
  else do
    let perDirectory ← once (.duplicateField name) d.perDirectory value.truth
    return { d with perDirectory }

/-- Reads a policy from a value: a map, or a list of the fields. -/
def ofData (d : Data) : Except SchemaError CachePolicy :=
  match d with
  | .map entries => (Data.readEntries fields readField {} entries).map Draft.finish
  | .list xs => do
    let draft ← Data.readElements readField fields {} xs
    if fields.length < xs.length then
      .error (.invalidLength xs.length (Data.elements fields.length ++ " in sequence"))
    else .ok draft.finish
  | d => .error (.invalidType (.ofData d) "struct CachePolicy")

end CachePolicy

namespace Item

def fields : List String := ["name", "description"]

structure Draft where
  name : Option String := none
  description : Option String := none
  deriving Repr, Inhabited

def readField (name : String) (value : Data) (d : Draft) : Except SchemaError Draft :=
  if name == "name" then do
    let given ← once (.duplicateField name) d.name value.string
    return { d with name := given }
  else do
    let description ← once (.duplicateField name) d.description value.string
    return { d with description }

/-- The item of what was given; it needs a name. -/
def Draft.finish (missing : SchemaError) (d : Draft) : Except SchemaError Item :=
  match d.name with
  | none => .error missing
  | some name => .ok { name, description := d.description.getD "" }

/-- Reads an item from a value: a map, or a list of the fields. -/
def ofData (d : Data) : Except SchemaError Item :=
  match d with
  | .map entries => do
    (← Data.readEntries fields readField {} entries).finish (.missingField "name")
  | .list xs => do
    let draft ← Data.readElements readField fields {} xs
    let item ← draft.finish
      (.invalidLength 0 ("struct SourceItem with " ++ Data.elements fields.length))
    if fields.length < xs.length then
      .error (.invalidLength xs.length (Data.elements fields.length ++ " in sequence"))
    else .ok item
  | d => .error (.invalidType (.ofData d) "struct SourceItem")

end Item

namespace Source

/-- How documents call the two kinds of sources. -/
inductive Tag where
  /-- The source lists its values. -/
  | fixed
  /-- The source runs a command. -/
  | dynamic
  deriving Repr, DecidableEq, BEq, Inhabited

def Tag.name : Tag → String
  | .fixed => "static"
  | .dynamic => "dynamic"

/-- The kinds in the order in which documents name them. -/
def Tag.all : List Tag := [.fixed, .dynamic]

structure Draft where
  name : Option String := none
  policy : Option CachePolicy := none
  deriving Repr, Inhabited

def readField (name : String) (value : Data) (d : Draft) : Except SchemaError Draft :=
  if name == "name" then do
    let given ← once (.duplicateField name) d.name value.string
    return { d with name := given }
  else do
    let policy ← once (.duplicateField name) d.policy (CachePolicy.ofData value)
    return { d with policy }

/-- Reads how the source finds its values. -/
def providerOfEntries (entries : List (Data × Data)) : Except SchemaError Provider := do
  match ← Data.tag "kind" (Data.variant Tag.all Tag.name) none entries with
  | .fixed =>
    let items ← Data.readEntries ["items"]
      (fun name value found => once (.duplicateField name) found (value.listOf Item.ofData))
      none entries
    return .fixed (items.getD [])
  | .dynamic =>
    let command ← Data.readEntries ["command"]
      (fun name value found => once (.duplicateField name) found value.string) none entries
    match command with
    | none => .error (.missingField "command")
    | some command => return .dynamic command

/-- Reads a source from a value. The fields that every source has go by their names alone. -/
def ofData (d : Data) : Except SchemaError Source :=
  match d with
  | .map entries => do
    let named := entries.filter fun e => e.1.index?.isNone
    let draft ← Data.readEntries ["name", "cache"] readField {} named
    match draft.name with
    | none => .error (.missingField "name")
    | some name =>
      let provider ← providerOfEntries entries
      return { name, provider, policy := draft.policy.getD {} }
  | d => .error (.invalidType (.ofData d) "struct ValueSource")

end Source

namespace Separator

/-- Reads a separator from a value: its name, which may be the only key of a map. -/
def ofData (d : Data) : Except SchemaError Separator :=
  match d with
  | .text s => named all name s
  | .map [(key, value)] => do
    let separator ← Data.variant all name key
    match value with
    | .null | .map [] => return separator
    | value => .error (.invalidType (.ofData value) "unit")
  | .map _ => .error (.invalidValue .map "map with a single key")
  | d => .error (.invalidType (.ofData d) "string or map")

end Separator

namespace Parameter

/-- How documents call the kinds of parameters. -/
inductive Tag where
  | command
  | flag
  | value
  deriving Repr, DecidableEq, BEq, Inhabited

def Tag.name : Tag → String
  | .command => "command"
  | .flag => "flag"
  | .value => "value"

/-- The kinds in the order in which documents name them. -/
def Tag.all : List Tag := [.command, .flag, .value]

structure ValueDraft where
  source : Option (Option Source) := none
  separator : Option Separator := none
  deriving Repr, Inhabited

def readValueField (name : String) (value : Data) (d : ValueDraft) :
    Except SchemaError ValueDraft :=
  if name == "source" then do
    let read := match value with
      | .null => .ok none
      | value => (Source.ofData value).map some
    let source ← once (.duplicateField name) d.source read
    return { d with source }
  else do
    let separator ← once (.duplicateField name) d.separator (Separator.ofData value)
    return { d with separator }

/-- Reads what a parameter is from the fields kept until its end. -/
def kindOfEntries (entries : List (Data × Data)) : Except SchemaError (Kind Source) := do
  match ← Data.tag "type" (Data.variant Tag.all Tag.name) none entries with
  | .command => return .command
  | .flag => return .flag
  | .value =>
    let draft ← Data.readEntries ["source", "separator"] readValueField {} entries
    return .value (draft.source.getD none) (draft.separator.getD .both)

structure Draft where
  keys : Option (List String) := none
  name : Option String := none
  description : Option String := none
  recursive : Option Bool := none
  children : Option (List (Parameter Source)) := none
  others : List (Data × Data) := []
  deriving Repr, Inhabited

def Draft.finish (d : Draft) : Except DocumentError (Parameter Source) :=
  match kindOfEntries d.others with
  | .error e => .error (.schema e)
  | .ok kind =>
    .ok (node (d.keys.getD []) (d.name.getD "") (d.description.getD "") (d.recursive.getD false)
      kind (d.children.getD []))

def readField (depth : Nat) (name : String) (value : Node) (d : Draft) :
    Except DocumentError Draft :=
  if name == "keys" then do
    let keys ← once (duplicateField name) d.keys (value.texts depth)
    return { d with keys }
  else if name == "name" then do
    let given ← once (duplicateField name) d.name value.text
    return { d with name := given }
  else if name == "description" then do
    let description ← once (duplicateField name) d.description value.text
    return { d with description }
  else if name == "recursive" then do
    let given ← once (duplicateField name) d.recursive value.bool
    return { d with recursive := given }
  else do
    let value ← value.data depth
    return { d with others := d.others ++ [(.text name, value)] }

mutual

def ofNode (depth : Nat) : Node → Except DocumentError (Parameter Source)
  | .map members =>
    match Node.descend depth with
    | .error e => .error e
    | .ok depth =>
      match ofMembers depth {} members with
      | .error e => .error e
      | .ok draft => draft.finish
  | .list items => .error ((Node.list items).mismatch "struct Parameter")
  | .scalar s => .error ((Node.scalar s).mismatch "struct Parameter")
  | .refused read skip => .error ((Node.refused read skip).mismatch "struct Parameter")

def ofMembers (depth : Nat) (draft : Draft) : Members → Except DocumentError Draft
  | .done => .ok draft
  | .broken f => .error (.flaw f)
  | .more key value rest =>
    match key.text with
    | .error e => .error e
    | .ok name =>
      if name == "parameters" then
        if draft.children.isSome then .error (duplicateField name)
        else
          match listOfNode depth value with
          | .error e => .error e
          | .ok children => ofMembers depth { draft with children := some children } rest
      else
        match readField depth name value draft with
        | .error e => .error e
        | .ok draft => ofMembers depth draft rest

def listOfNode (depth : Nat) : Node → Except DocumentError (List (Parameter Source))
  | .list items =>
    match Node.descend depth with
    | .error e => .error e
    | .ok depth => ofItems depth items
  | .map members => .error ((Node.map members).mismatch "a sequence")
  | .scalar s => if s.absent then .ok [] else .error ((Node.scalar s).mismatch "a sequence")
  | .refused read skip => .error ((Node.refused read skip).mismatch "a sequence")

/-- Reads the elements of a list of parameters. -/
def ofItems (depth : Nat) : Items → Except DocumentError (List (Parameter Source))
  | .done => .ok []
  | .broken f => .error (.flaw f)
  | .more item rest =>
    match ofNode depth item with
    | .error e => .error e
    | .ok p =>
      match ofItems depth rest with
      | .error e => .error e
      | .ok ps => .ok (p :: ps)

end

end Parameter

namespace Dictionary

structure Draft where
  keys : Option (List String) := none
  platforms : Option Platforms := none
  name : Option String := none
  description : Option String := none
  parameters : Option (List (Parameter Source)) := none
  deriving Repr, Inhabited

def Draft.finish (d : Draft) : Dictionary Source :=
  { keys := d.keys.getD []
    platforms := d.platforms.getD {}
    name := d.name.getD ""
    description := d.description.getD ""
    parameters := d.parameters.getD [] }

def platformsOfNode (format : Format) (depth : Nat) (n : Node) : Except DocumentError Platforms :=
  (n.listOf depth (Node.name Platforms.Name.every Platforms.Name.text format)).map
    Platforms.ofNames

def reader (format : Format) : RecordReader Draft :=
  { expected := "struct Dictionary"
    fields := ["keys", "platforms", "name", "description", "parameters"]
    read := fun depth name value d =>
      if name == "keys" then do
        let keys ← once (duplicateField name) d.keys (value.texts depth)
        return { d with keys }
      else if name == "platforms" then do
        let platforms ← once (duplicateField name) d.platforms (platformsOfNode format depth value)
        return { d with platforms }
      else if name == "name" then do
        let given ← once (duplicateField name) d.name value.text
        return { d with name := given }
      else if name == "description" then do
        let description ← once (duplicateField name) d.description value.text
        return { d with description }
      else do
        let parameters ←
          once (duplicateField name) d.parameters (Parameter.listOfNode depth value)
        return { d with parameters } }

def ofNode (format : Format) (n : Node) : Except DocumentError (Dictionary Source) :=
  ((reader format).readNode format format.maxDepth {} n).map Draft.finish

end Dictionary

end LineCompletion

import LineCompletion.Dictionary.Platform
import LineCompletion.Source.Basic
import LineCompletion.Text.Character

/-!
# Dictionaries

The grammar of one command: a tree of parameters, each a command, a flag or a value. The sources of
values are a type parameter, so the same tree holds sources as declared and sources in use.
-/

namespace LineCompletion

/-- Which forms join the key of a value parameter with its value. -/
inductive Separator where
  | both
  | equals
  | whitespace
  deriving Repr, DecidableEq, BEq, Inhabited

namespace Separator

/-- Whether a key and its value may be joined by an equals sign. -/
def acceptsEquals : Separator → Bool
  | .whitespace => false
  | _ => true

def acceptsBlank : Separator → Bool
  | .equals => false
  | _ => true

def name : Separator → String
  | .both => "both"
  | .equals => "equals"
  | .whitespace => "whitespace"

/-- The separators in the order in which documents name them. -/
def all : List Separator := [.both, .equals, .whitespace]

end Separator

/-- What a parameter is. -/
inductive Kind (σ : Type) where
  | command
  | flag
  | value (source : Option σ) (separator : Separator)
  deriving Repr, DecidableEq, BEq, Inhabited

/-- A node of the grammar. -/
inductive Parameter (σ : Type) where
  /-- A node from its keys, its name, its description, whether it stays available below its owner,
  what it is, and its children in order. -/
  | node (keys : List String) (name description : String) (recursive : Bool) (kind : Kind σ)
      (children : List (Parameter σ))
  deriving Repr, Inhabited

namespace Parameter

variable {σ τ : Type}

def keys : Parameter σ → List String
  | node keys _ _ _ _ _ => keys

def name : Parameter σ → String
  | node _ name _ _ _ _ => name

def description : Parameter σ → String
  | node _ _ description _ _ _ => description

/-- Whether the parameter stays available at every depth below its owner. -/
def recursive : Parameter σ → Bool
  | node _ _ _ recursive _ _ => recursive

def kind : Parameter σ → Kind σ
  | node _ _ _ _ kind _ => kind

def children : Parameter σ → List (Parameter σ)
  | node _ _ _ _ _ children => children

/-- A subcommand selected by its own name. -/
def command (name : String) : Parameter σ :=
  node [name] name "" false .command []

def flag (keys : List String) (name : String) : Parameter σ :=
  node keys name "" false .flag []

/-- A value selected by any of its keys, without a source. -/
def value (keys : List String) (name : String) : Parameter σ :=
  node keys name "" false (.value none .both) []

def positional (name : String) : Parameter σ :=
  value [] name

def withKey (key : String) : Parameter σ → Parameter σ
  | node keys name description recursive kind children =>
    node (keys ++ [key]) name description recursive kind children

def withDescription (text : String) : Parameter σ → Parameter σ
  | node keys name _ recursive kind children => node keys name text recursive kind children

/-- Makes the parameter available at every depth below its owner. -/
def markRecursive : Parameter σ → Parameter σ
  | node keys name description _ kind children => node keys name description true kind children

def withParameter (child : Parameter σ) : Parameter σ → Parameter σ
  | node keys name description recursive kind children =>
    node keys name description recursive kind (children ++ [child])

/-- Sets the source of a value; other parameters have none. -/
def withSource (source : σ) : Parameter σ → Parameter σ
  | node keys name description recursive (.value _ separator) children =>
    node keys name description recursive (.value (some source) separator) children
  | p => p

/-- Sets the separator of a value; other parameters have none. -/
def withSeparator (separator : Separator) : Parameter σ → Parameter σ
  | node keys name description recursive (.value source _) children =>
    node keys name description recursive (.value source separator) children
  | p => p

def source? (p : Parameter σ) : Option σ :=
  match p.kind with
  | .value source _ => source
  | _ => none

def isValue (p : Parameter σ) : Bool :=
  match p.kind with
  | .value .. => true
  | _ => false

/-- Whether the parameter is a value without keys. -/
def isPositional (p : Parameter σ) : Bool :=
  p.isValue && p.keys.isEmpty

/-- Whether some key equals the text up to the case of ASCII letters. -/
def matchesKey (p : Parameter σ) (text : String) : Bool :=
  p.keys.any fun key => Text.equalAsciiCase key text

mutual

/-- The sources of the tree, parents before children. -/
def sources : Parameter σ → List σ
  | node _ _ _ _ kind children =>
    (match kind with
      | .value (some source) _ => [source]
      | _ => []) ++ sourcesOfList children

def sourcesOfList : List (Parameter σ) → List σ
  | [] => []
  | p :: rest => sources p ++ sourcesOfList rest

end

mutual

/-- The tree itself and all below it, parents before children. -/
def preorder : Parameter σ → List (Parameter σ)
  | node keys name description recursive kind children =>
    node keys name description recursive kind children :: preorderOfList children

def preorderOfList : List (Parameter σ) → List (Parameter σ)
  | [] => []
  | p :: rest => preorder p ++ preorderOfList rest

end

/-- Replaces the source of a value, handing on a state. -/
def Kind.mapSource {ρ : Type} (f : ρ → σ → τ × ρ) (state : ρ) : Kind σ → Kind τ × ρ
  | .command => (.command, state)
  | .flag => (.flag, state)
  | .value none separator => (.value none separator, state)
  | .value (some source) separator =>
    let r := f state source
    (.value (some r.1) separator, r.2)

mutual

/-- Replaces every source of the tree in pre-order, handing on a state. -/
def mapSources {ρ : Type} (f : ρ → σ → τ × ρ) (state : ρ) : Parameter σ → Parameter τ × ρ
  | node keys name description recursive kind children =>
    let k := Kind.mapSource f state kind
    let c := mapSourcesOfList f k.2 children
    (node keys name description recursive k.1 c.1, c.2)

def mapSourcesOfList {ρ : Type} (f : ρ → σ → τ × ρ) (state : ρ) :
    List (Parameter σ) → List (Parameter τ) × ρ
  | [] => ([], state)
  | p :: rest =>
    let r := mapSources f state p
    let rs := mapSourcesOfList f r.2 rest
    (r.1 :: rs.1, rs.2)

end

end Parameter

/-- The grammar of one command. -/
structure Dictionary (σ : Type) where
  keys : List String := []
  platforms : Platforms := {}
  name : String := ""
  description : String := ""
  parameters : List (Parameter σ) := []
  deriving Repr, Inhabited

namespace Dictionary

variable {σ τ : Type}

/-- A dictionary named and selected by a command, for every platform, without parameters. -/
def ofCommand (command : String) : Dictionary σ :=
  { keys := [command], platforms := Platforms.all, name := command }

def withParameter (d : Dictionary σ) (p : Parameter σ) : Dictionary σ :=
  { d with parameters := d.parameters ++ [p] }

def withKey (d : Dictionary σ) (key : String) : Dictionary σ :=
  { d with keys := d.keys ++ [key] }

/-- Whether some command word equals the text up to the case of ASCII letters. -/
def matchesKey (d : Dictionary σ) (command : String) : Bool :=
  d.keys.any fun key => Text.equalAsciiCase key command

def supports (d : Dictionary σ) (platforms : Platforms) : Bool :=
  d.platforms.intersects platforms

/-- Every source, in the order of declaration. -/
def sources (d : Dictionary σ) : List σ :=
  Parameter.sourcesOfList d.parameters

def allParameters (d : Dictionary σ) : List (Parameter σ) :=
  Parameter.preorderOfList d.parameters

/-- Replaces every source in the order of declaration, handing on a state. -/
def mapSources {ρ : Type} (f : ρ → σ → τ × ρ) (state : ρ) (d : Dictionary σ) : Dictionary τ × ρ :=
  let r := Parameter.mapSourcesOfList f state d.parameters
  ({ d with parameters := r.1 }, r.2)

end Dictionary

end LineCompletion

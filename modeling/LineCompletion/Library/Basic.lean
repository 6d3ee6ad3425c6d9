import LineCompletion.Dictionary.Basic

/-!
# Libraries

Dictionaries by name, and for each command word, whatever its case, the name of the dictionary that
claimed it last.
-/

namespace LineCompletion

/-- Where the dictionaries of a library come from. -/
inductive Origin where
  | memory
  | file (path : String)
  | directory (path : String)
  | firstOf (origins : List Origin)
  deriving Repr, Inhabited

/-- Dictionaries by name and by command word. -/
structure Library (σ : Type) where
  /-- The dictionaries in the order of their names. -/
  dictionaries : List (Dictionary σ) := []
  /-- The name of the dictionary that answers each lowercase command word. -/
  owners : List (String × String) := []
  /-- Where they come from. -/
  origin : Origin := .memory
  deriving Repr, Inhabited

namespace Library

variable {σ : Type}

def size (l : Library σ) : Nat :=
  l.dictionaries.length

/-- The names in order. -/
def names (l : Library σ) : List String :=
  l.dictionaries.map (·.name)

def byName? (l : Library σ) (name : String) : Option (Dictionary σ) :=
  l.dictionaries.find? fun d => d.name == name

/-- The dictionary that answers a command word. -/
def get? (l : Library σ) (command : String) : Option (Dictionary σ) :=
  (l.owners.lookup (Text.lower command)).bind l.byName?

/-- Whether some dictionary answers a command word. -/
def contains (l : Library σ) (command : String) : Bool :=
  (l.get? command).isSome

/-- Puts a dictionary among others in the order of names. -/
def place (d : Dictionary σ) : List (Dictionary σ) → List (Dictionary σ)
  | [] => [d]
  | e :: rest => if d.name < e.name then d :: e :: rest else e :: place d rest

def setOwner (word name : String) : List (String × String) → List (String × String)
  | [] => [(word, name)]
  | (w, n) :: rest => if w == word then (word, name) :: rest else (w, n) :: setOwner word name rest

/-- Takes out the dictionary of a name and all that it owns; the first answer is the dictionary. -/
def erase (l : Library σ) (name : String) : Option (Dictionary σ) × Library σ :=
  match l.byName? name with
  | none => (none, l)
  | some d =>
    (some d, { l with
      dictionaries := l.dictionaries.filter fun e => e.name != name
      owners := l.owners.filter fun o => o.2 != name })

/-- Puts in a dictionary, which takes the place of one of its name and takes over its command words;
the first answer is the dictionary replaced. -/
def insert (l : Library σ) (d : Dictionary σ) : Option (Dictionary σ) × Library σ :=
  let r := l.erase d.name
  (r.1, { r.2 with
    dictionaries := place d r.2.dictionaries
    owners := d.keys.foldl (fun o key => setOwner (Text.lower key) d.name o) r.2.owners })

/-- A library of dictionaries put in one after the other. -/
def ofList (origin : Origin) (ds : List (Dictionary σ)) : Library σ :=
  ds.foldl (fun l d => (l.insert d).2) { origin }

end Library

end LineCompletion

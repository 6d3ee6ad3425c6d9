import LineCompletion.Source.Basic

/-!
# Caches of computed values

One cache for each source. A snapshot holds an entry for each scope and counts generations; a
publication is accepted only if no other change was made since its generation was read.
-/

namespace LineCompletion

/-- A moment, by the nanoseconds from the epoch to it. -/
structure Moment where
  nanoseconds : Int
  deriving Repr, DecidableEq, BEq, Inhabited

namespace Moment

def ofMilliseconds (n : Int) : Moment :=
  ⟨n * 1000000⟩

def milliseconds (m : Moment) : Int :=
  m.nanoseconds / 1000000

def since (m earlier : Moment) : Int :=
  m.nanoseconds - earlier.nanoseconds

-- numbers that are given or printed for moments are milliseconds

instance : Coe Int Moment := ⟨ofMilliseconds⟩

instance : Coe Moment Int := ⟨milliseconds⟩

instance (n : Nat) : OfNat Moment n := ⟨ofMilliseconds n⟩

end Moment

/-- The values last computed for a scope. -/
structure Entry where
  items : List Item
  computedAt : Moment
  generation : Nat
  deriving Repr, DecidableEq, BEq, Inhabited

/-- The entries of a cache at one moment. -/
structure Snapshot where
  generation : Nat := 0
  entries : List (Scope × Entry) := []
  deriving Repr, DecidableEq, BEq, Inhabited

namespace Snapshot

def get? (s : Snapshot) (scope : Scope) : Option Entry :=
  s.entries.lookup scope

/-- Entries with that of one scope replaced or added. -/
def put (scope : Scope) (entry : Entry) : List (Scope × Entry) → List (Scope × Entry)
  | [] => [(scope, entry)]
  | (s, e) :: rest => if s == scope then (scope, entry) :: rest else (s, e) :: put scope entry rest

/-- The snapshot after values for a scope are added to it. -/
def withItems (s : Snapshot) (scope : Scope) (items : List Item) (computedAt : Moment) : Snapshot :=
  let generation := s.generation + 1
  { generation, entries := put scope { items, computedAt, generation } s.entries }

def cleared (s : Snapshot) : Snapshot :=
  { generation := s.generation + 1, entries := [] }

end Snapshot

/-- The cache of a source. -/
structure Cache where
  snapshot : Snapshot := {}
  refreshQueued : Bool := false
  deriving Repr, DecidableEq, BEq, Inhabited

namespace Cache

def generation (c : Cache) : Nat :=
  c.snapshot.generation

def get? (c : Cache) (scope : Scope) : Option Entry :=
  c.snapshot.get? scope

def size (c : Cache) : Nat :=
  c.snapshot.entries.length

/-- Adds values for a scope if the cache is still at the expected generation; the first answer is
the new generation. -/
def publish (c : Cache) (expected : Nat) (scope : Scope) (items : List Item) (computedAt : Moment) :
    Option Nat × Cache :=
  if c.generation == expected then
    (some (expected + 1), { c with snapshot := c.snapshot.withItems scope items computedAt })
  else (none, c)

def clear (c : Cache) : Cache :=
  { c with snapshot := c.snapshot.cleared }

/-- Marks a refresh as queued; the first answer is whether it was not marked before. -/
def mark (c : Cache) : Bool × Cache :=
  (!c.refreshQueued, { c with refreshQueued := true })

def unmark (c : Cache) : Cache :=
  { c with refreshQueued := false }

end Cache

/-- The number of a cache among all caches. -/
abbrev CellId := Nat

/-- All caches, each empty until it is written. -/
structure Caches where
  get : CellId → Cache := fun _ => {}

namespace Caches

instance : Inhabited Caches := ⟨{}⟩

def set (cs : Caches) (cell : CellId) (cache : Cache) : Caches :=
  { get := fun i => if i = cell then cache else cs.get i }

def modify (cs : Caches) (cell : CellId) (f : Cache → Cache) : Caches :=
  cs.set cell (f (cs.get cell))

end Caches

end LineCompletion

/-!
# Value sources

Where the candidate values of a parameter come from, and for how long computed values count as
fresh.
-/

namespace LineCompletion

structure Item where
  /-- The text put into the line. -/
  name : String
  /-- What the value is, for a reader. -/
  description : String := ""
  deriving Repr, DecidableEq, BEq, Inhabited

/-- What the cached values of a source belong to. -/
inductive Scope where
  | everywhere
  | directory (path : String)
  deriving Repr, DecidableEq, BEq, Inhabited

structure CachePolicy where
  /-- For how many seconds they are, if they expire. -/
  ttlSeconds : Option UInt64 := none
  /-- Whether they belong to the working directory they were computed in. -/
  perDirectory : Bool := false
  deriving Repr, DecidableEq, BEq, Inhabited

namespace CachePolicy

/-- Whether some rule is set; without one every refresh recomputes. -/
def isEnabled (p : CachePolicy) : Bool :=
  p.ttlSeconds.isSome || p.perDirectory

/-- The scope of a working directory. A policy for each directory has none without one. -/
def scope? (p : CachePolicy) (directory : Option String) : Option Scope :=
  if p.perDirectory then directory.map Scope.directory else some .everywhere

end CachePolicy

/-- What is done with expired values when they are read. -/
inductive Staleness where
  /-- They are served; expiry only advises a refresh. -/
  | advisory
  /-- They are withheld until refreshed. -/
  | rejectExpired
  deriving Repr, DecidableEq, BEq, Inhabited

namespace Staleness

def name : Staleness → String
  | .advisory => "advisory"
  | .rejectExpired => "reject_expired"

/-- The rules in the order in which documents name them. -/
def all : List Staleness := [.advisory, .rejectExpired]

end Staleness

inductive Provider where
  | fixed (items : List Item)
  | dynamic (command : String)
  deriving Repr, DecidableEq, BEq, Inhabited

structure Source where
  name : String
  provider : Provider
  policy : CachePolicy := {}
  deriving Repr, DecidableEq, BEq, Inhabited

namespace Source

def isDynamic (s : Source) : Bool :=
  match s.provider with
  | .fixed _ => false
  | .dynamic _ => true

end Source

end LineCompletion

import LineCompletion.Source.Cache
import LineCompletion.Dictionary.Validation

/-!
# Sources in use

A source in use has a cache and, once its dictionary is initialized, a context that runs its
command and tells the time. Copies of it share the cache.
-/

namespace LineCompletion

abbrev ContextId := Nat

/-- A source in use. -/
structure LiveSource extends Source where
  cell : CellId
  context : Option ContextId := none
  deriving Repr, DecidableEq, BEq, Inhabited

/-- What a source has to offer at one moment. -/
inductive Offer where
  | nothing
  | fixed (items : List Item)
  | cached (entry : Entry)
  deriving Repr, DecidableEq, BEq, Inhabited

def Offer.items : Offer → List Item
  | .nothing => []
  | .fixed items => items
  | .cached entry => entry.items

abbrev Clock := ContextId → Moment

namespace LiveSource

def isBound (s : LiveSource) : Bool :=
  s.context.isSome

/-- Binds a context unless one is bound already. -/
def bind (context : ContextId) (s : LiveSource) : LiveSource :=
  { s with context := s.context <|> some context }

/-- The entry cached for a working directory. -/
def cached? (s : LiveSource) (caches : Caches) (directory : Option String) : Option Entry :=
  (s.policy.scope? directory).bind (caches.get s.cell).get?

/-- Whether an entry has outlived its time; never where none is set or no context is bound, or where
the clock stands before the entry. -/
def isExpired (s : LiveSource) (clock : Clock) (entry : Entry) : Bool :=
  match s.policy.ttlSeconds, s.context with
  | some ttl, some context =>
    let age := (clock context).since entry.computedAt
    0 ≤ age && (ttl.toNat : Int) * 1000000000 ≤ age
  | _, _ => false

/-- Whether a refresh for a working directory is due. -/
def needsRefresh (s : LiveSource) (caches : Caches) (clock : Clock) (directory : Option String) :
    Bool :=
  s.isDynamic && (s.policy.scope? directory).isSome &&
    match s.cached? caches directory with
    | none => true
    | some entry => !s.policy.isEnabled || s.isExpired clock entry

def offer (s : LiveSource) (caches : Caches) (clock : Clock) (directory : Option String)
    (staleness : Staleness) : Offer :=
  match s.provider with
  | .fixed items => .fixed items
  | .dynamic _ =>
    match s.cached? caches directory with
    | none => .nothing
    | some entry =>
      if staleness == .rejectExpired && s.isExpired clock entry then .nothing else .cached entry

end LiveSource

/-- A source given the next free cache. -/
def Source.attach (next : CellId) (s : Source) : LiveSource × CellId :=
  ({ s with cell := next }, next + 1)

namespace Dictionary

/-- Gives every source a cache of its own, from the next free one on. -/
def attach (d : Dictionary Source) (next : CellId) : Dictionary LiveSource × CellId :=
  d.mapSources Source.attach next

def bindSources (d : Dictionary LiveSource) (context : ContextId) : Dictionary LiveSource :=
  (d.mapSources (fun (_ : Unit) s => (s.bind context, ())) ()).1

/-- Checks a dictionary and binds its sources; without a context or with a broken rule nothing is
bound. -/
def bindTo (d : Dictionary LiveSource) (context : Option ContextId) :
    Except ConfigurationError (Dictionary LiveSource) :=
  match context with
  | none => .error (.missingExecutionContext d.name)
  | some context =>
    match d.validate with
    | .error e => .error e
    | .ok () => .ok (d.bindSources context)

end Dictionary

end LineCompletion

/-!
# Platforms

The sets of platforms that a dictionary can apply to.
-/

namespace LineCompletion

/-- A set of platforms. -/
structure Platforms where
  windows : Bool := false
  linux : Bool := false
  macos : Bool := false
  deriving Repr, DecidableEq, BEq, Inhabited

namespace Platforms

def empty : Platforms := {}

def all : Platforms := { windows := true, linux := true, macos := true }

/-- The platform this library speaks for. -/
def current : Platforms := { linux := true }

def union (a b : Platforms) : Platforms :=
  { windows := a.windows || b.windows, linux := a.linux || b.linux, macos := a.macos || b.macos }

def isEmpty (p : Platforms) : Bool :=
  !p.windows && !p.linux && !p.macos

/-- Whether two sets share a platform. -/
def intersects (a b : Platforms) : Bool :=
  (a.windows && b.windows) || (a.linux && b.linux) || (a.macos && b.macos)

/-- Whether a set holds all of a nonempty set. The empty set is contained in none. -/
def contains (a b : Platforms) : Bool :=
  !b.isEmpty && (!b.windows || a.windows) && (!b.linux || a.linux) && (!b.macos || a.macos)

/-- The set as a number with one bit for each platform. -/
def bits (p : Platforms) : Nat :=
  (if p.windows then 1 else 0) + (if p.linux then 2 else 0) + (if p.macos then 4 else 0)

inductive Name where
  | windows
  | linux
  | macos
  | all
  deriving Repr, DecidableEq, BEq, Inhabited

def Name.text : Name → String
  | .windows => "windows"
  | .linux => "linux"
  | .macos => "macos"
  | .all => "all"

def Name.every : List Name := [.windows, .linux, .macos, .all]

def Name.platforms : Name → Platforms
  | .windows => { windows := true }
  | .linux => { linux := true }
  | .macos => { macos := true }
  | .all => Platforms.all

def ofNames (names : List Name) : Platforms :=
  names.foldl (fun p n => p.union n.platforms) empty

/-- The names of a set: one name for all platforms, else a name for each. -/
def names (p : Platforms) : List Name :=
  if p.windows && p.linux && p.macos then [.all]
  else
    (if p.windows then [.windows] else []) ++ (if p.linux then [.linux] else [])
      ++ (if p.macos then [.macos] else [])

end Platforms

end LineCompletion

import LineCompletion.Dictionary.Basic
import LineCompletion.Line.Split
import LineCompletion.Suggest.Match

/-!
# Walking a dictionary

The completed words of a line select parameters one after the other. A walk holds a stack of
frames, innermost first: selecting a command, or any parameter with children, opens a frame with
its children. A parameter is used up within its frame unless it is recursive; recursive parameters
stay available from every frame above theirs.
-/

namespace LineCompletion

variable {σ : Type}

/-- A parameter of a frame, and whether it is used up. -/
structure Slot (σ : Type) where
  parameter : Parameter σ
  used : Bool := false
  deriving Repr, Inhabited

/-- The parameters that were opened together. -/
abbrev Frame (σ : Type) := List (Slot σ)

namespace Frame

def ofParameters (parameters : List (Parameter σ)) : Frame σ :=
  parameters.map fun p => { parameter := p }

/-- The first slot with a property, and its index. -/
def find? (p : Slot σ → Bool) : Frame σ → Option (Nat × Slot σ)
  | [] => none
  | s :: rest =>
    if p s then some (0, s) else (find? p rest).map fun r => (r.1 + 1, r.2)

/-- The frame with the slot of an index used up. -/
def use : Nat → Frame σ → Frame σ
  | _, [] => []
  | 0, s :: rest => { s with used := true } :: rest
  | i + 1, s :: rest => s :: use i rest

end Frame

/-- A slot found by a search. -/
structure Hit (σ : Type) where
  /-- How many frames above the innermost one the slot is. -/
  up : Nat
  /-- The index of the slot in its frame. -/
  index : Nat
  /-- The parameter of the slot. -/
  parameter : Parameter σ
  deriving Repr, Inhabited

/-- Where the completed words of a line have led. -/
structure Walk (σ : Type) where
  /-- The open frames, innermost first. -/
  frames : List (Frame σ)
  /-- A value parameter whose key was read and whose value is the next word. -/
  pending : Option (Parameter σ) := none
  deriving Repr, Inhabited

/-- A source of suggestions. -/
inductive Candidate (σ : Type) where
  | key (parameter : Parameter σ)
  | values (parameter : Parameter σ) (assignmentKey : Option String)
  deriving Repr, Inhabited

/-- What the word under the cursor is. -/
inductive Completion (σ : Type) where
  /-- It is complete; what follows it is wanted. -/
  | consumed (walk : Walk σ)
  /-- It begins a key or a positional value. -/
  | filter (typed : Typed)
  /-- It begins a value of a parameter. -/
  | values (parameter : Parameter σ) (assignmentKey : Option String) (typed : Typed)
  deriving Repr, Inhabited

namespace Walk

def start (parameters : List (Parameter σ)) : Walk σ :=
  { frames := [Frame.ofParameters parameters] }

/-- Whether a text selects a slot: a recursive one from anywhere, any other only from the innermost
frame and only once. -/
def keyed (text : String) (innermost : Bool) (s : Slot σ) : Bool :=
  s.parameter.matchesKey text && (s.parameter.recursive || (innermost && !s.used))

/-- Searches frames for a key, the first of them standing `up` frames above the innermost. -/
def findKeyedFrom (text : String) (up : Nat) : List (Frame σ) → Option (Hit σ)
  | [] => none
  | f :: rest =>
    match f.find? (keyed text (up == 0)) with
    | some (index, s) => some { up, index, parameter := s.parameter }
    | none => findKeyedFrom text (up + 1) rest

/-- The slot that a key selects, innermost frame first. -/
def findKeyed (w : Walk σ) (text : String) : Option (Hit σ) :=
  findKeyedFrom text 0 w.frames

/-- The first positional value of the innermost frame that is not used up. -/
def findPositional (w : Walk σ) : Option (Hit σ) :=
  match w.frames with
  | [] => none
  | f :: _ =>
    (f.find? fun s => s.parameter.isPositional && !s.used).map fun r =>
      { up := 0, index := r.1, parameter := r.2.parameter }

/-- Whether a parameter is a value whose key may be joined to it by an equals sign. -/
def takesAssignment (p : Parameter σ) : Bool :=
  match p.kind with
  | .value _ separator => separator.acceptsEquals
  | _ => false

/-- The slot whose key a word assigns to, and the assignment. -/
def assignmentHit (w : Walk σ) (token : Token) : Option (Hit σ × Assignment) :=
  match token.assignment with
  | none => none
  | some a =>
    match w.findKeyed a.key with
    | none => none
    | some hit => if takesAssignment hit.parameter then some (hit, a) else none

/-- Opens a frame for a parameter that is a command or has children. -/
def enter (w : Walk σ) (p : Parameter σ) : Walk σ :=
  let opens := match p.kind with
    | .command => true
    | _ => !p.children.isEmpty
  if opens then { w with frames := Frame.ofParameters p.children :: w.frames } else w

/-- Uses up a slot unless its parameter is recursive. -/
def useUp (w : Walk σ) (hit : Hit σ) : Walk σ :=
  if hit.parameter.recursive then w
  else { w with frames := w.frames.modify hit.up (Frame.use hit.index) }

/-- Whether a selected parameter waits for its value in the next word. -/
def waitsForValue (p : Parameter σ) (valueBound : Bool) : Bool :=
  match p.kind with
  | .value _ separator => !valueBound && !p.keys.isEmpty && separator.acceptsBlank
  | _ => false

/-- Selects a slot, whose value may be bound already. -/
def select (w : Walk σ) (hit : Hit σ) (valueBound : Bool) : Walk σ :=
  let w := w.useUp hit
  if waitsForValue hit.parameter valueBound then { w with pending := some hit.parameter }
  else w.enter hit.parameter

def bindPending (w : Walk σ) (p : Parameter σ) : Walk σ :=
  { w with pending := none }.enter p

/-- The walk after a completed word. A word that selects nothing changes nothing. -/
def consume (w : Walk σ) (token : Token) : Walk σ :=
  match w.pending with
  | some p => w.bindPending p
  | none =>
    match w.assignmentHit token with
    | some (hit, _) => w.select hit true
    | none =>
      match w.findKeyed token.text with
      | some hit => w.select hit false
      | none =>
        match w.findPositional with
        | some hit => if token.isFlagLike then w else w.select hit true
        | none => w

/-- What the word under the cursor is, after the completed words. -/
def complete (w : Walk σ) (token : Token) : Completion σ :=
  let closedQuote := token.isQuoted && token.closed
  match w.pending with
  | some p =>
    if closedQuote then .consumed (w.bindPending p)
    else .values p none { text := token.text, quote := token.quote }
  | none =>
    match w.assignmentHit token with
    | some (hit, a) =>
      if a.value.quote != .bare && a.value.closed then .consumed (w.select hit true)
      else .values hit.parameter (some a.key) { text := a.value.text, quote := a.value.quote }
    | none =>
      let filter := Completion.filter
        { text := token.text, quote := token.quote, flagsOnly := token.isFlagLike }
      if !token.closed then filter
      else
        match w.findKeyed token.text with
        | some hit => .consumed (w.select hit false)
        | none =>
          if !closedQuote then filter
          else
            match w.findPositional with
            | some hit => .consumed (w.select hit true)
            | none => filter

/-- What a slot of the innermost frame offers, recursive ones apart. -/
def freeCandidate (flagsOnly : Bool) (s : Slot σ) : List (Candidate σ) :=
  if s.parameter.recursive || s.used then []
  else if s.parameter.isPositional then
    if flagsOnly then [] else [.values s.parameter none]
  else [.key s.parameter]

def recursiveCandidates (f : Frame σ) : List (Candidate σ) :=
  (f.filter fun s => s.parameter.recursive && !s.parameter.keys.isEmpty).map fun s =>
    .key s.parameter

/-- What can come next: the value a key waits for, else the unused parameters of the innermost
frame and after them the recursive ones of all frames, innermost first. -/
def enumerate (w : Walk σ) (flagsOnly : Bool) : List (Candidate σ) :=
  match w.pending with
  | some p => [.values p none]
  | none =>
    (w.frames.head?.getD []).flatMap (freeCandidate flagsOnly)
      ++ w.frames.flatMap recursiveCandidates

end Walk

end LineCompletion

import Mathlib.Data.List.Basic
import LineCompletion.Proofs.Suggest.ConsumedWord
import LineCompletion.Proofs.Suggest.OpenFrames

/-! # A walk as it is stored

The scopes of a walk stand in one list, outermost first, each with its parameters and beside them
which of them are used up, and a slot is a pair of numbers. Every access by a number and the one
subtraction are checked here, and fail where they are out of range. The steps of a stored walk are
those of the walk that it stores, so no check ever fails.
-/

namespace LineCompletion

variable {σ : Type}

/-- What a checked operation fails with. -/
inductive Fault where
  | outOfRange (index length : Nat)
  | underflow
  deriving Repr, DecidableEq

namespace Fault

def get {α : Type} (as : List α) (i : Nat) : Except Fault α :=
  match as[i]? with
  | some a => .ok a
  | none => .error (.outOfRange i as.length)

def set {α : Type} (as : List α) (i : Nat) (a : α) : Except Fault (List α) :=
  if i < as.length then .ok (as.set i a) else .error (.outOfRange i as.length)

def pred : Nat → Except Fault Nat
  | 0 => .error .underflow
  | n + 1 => .ok n

theorem get_eq_ok {α : Type} {as : List α} {i : Nat} {a : α} (found : as[i]? = some a) :
    get as i = .ok a := by
  rw [get, found]

theorem set_eq_ok {α : Type} {as : List α} {i : Nat} {old : α} (found : as[i]? = some old) (a : α) :
    set as i a = .ok (as.set i a) := by
  rw [set, if_pos (List.getElem?_eq_some_iff.mp found).1]

theorem pred_eq_ok {n : Nat} (positive : n ≠ 0) : pred n = .ok (n - 1) := by
  cases n with
  | zero => exact absurd rfl positive
  | succ n => rfl

theorem ok_bind {α β : Type} (a : α) (f : α → Except Fault β) : (Except.ok a >>= f) = f a :=
  rfl

/-- The first index, from a number on, of an element that passes a test. -/
def position {α : Type} (test : Nat → α → Except Fault Bool) :
    Nat → List α → Except Fault (Option Nat)
  | _, [] => .ok none
  | i, a :: rest => do
    if ← test i a then return some i
    else position test (i + 1) rest

end Fault

open Fault (get set pred position)

/-- The parameters of a scope, and for each whether it is used up. -/
structure Layer (σ : Type) where
  parameters : List (Parameter σ)
  consumed : List Bool
  deriving Repr

namespace Layer

def ofParameters (ps : List (Parameter σ)) : Layer σ where
  parameters := ps
  consumed := List.replicate ps.length false

/-- Whether a text selects the parameter at an index. -/
def keyed (text : String) (innermost : Bool) (l : Layer σ) (i : Nat) (p : Parameter σ) :
    Except Fault Bool :=
  -- only the last answer depends on the mark, so only there is it looked up
  if !p.matchesKey text then return false
  else if p.recursive then return true
  else if !innermost then return false
  else return !(← get l.consumed i)

/-- Whether the parameter at an index is a positional value that is not used up. -/
def positional (l : Layer σ) (i : Nat) (p : Parameter σ) : Except Fault Bool := do
  if !p.isPositional then return false
  else return !(← get l.consumed i)

/-- What the parameters offer, recursive ones apart. -/
def freeCandidates (flagsOnly : Bool) (l : Layer σ) :
    Nat → List (Parameter σ) → Except Fault (List (Candidate σ))
  | _, [] => .ok []
  | i, p :: rest => do
    let used ← if p.recursive then pure true else get l.consumed i
    let later ← freeCandidates flagsOnly l (i + 1) rest
    if used then return later
    else if p.isPositional then return if flagsOnly then later else .values p none :: later
    else return .key p :: later

def recursiveCandidates (l : Layer σ) : List (Candidate σ) :=
  (l.parameters.filter fun p => p.recursive && !p.keys.isEmpty).map .key

end Layer

/-- A walk as it is stored, its outermost scope first. -/
structure StoredWalk (σ : Type) where
  layers : List (Layer σ)
  pending : Option (Parameter σ) := none
  deriving Repr

/-- What became of the word under the cursor, but for the walk after it. -/
inductive CursorWord (σ : Type) where
  | consumed
  | filter (typed : Typed)
  | values (parameter : Parameter σ) (assignmentKey : Option String) (typed : Typed)
  deriving Repr

namespace StoredWalk

def start (ps : List (Parameter σ)) : StoredWalk σ where
  layers := [Layer.ofParameters ps]

def innermost (w : StoredWalk σ) : Except Fault Nat :=
  pred w.layers.length

def parameter (w : StoredWalk σ) (site : Site) : Except Fault (Parameter σ) := do
  let layer ← get w.layers site.depth
  get layer.parameters site.index

/-- Searches numbered scopes for a key. -/
def findKeyedIn (text : String) (innermost : Nat) :
    List (Layer σ × Nat) → Except Fault (Option Site)
  | [] => .ok none
  | (layer, depth) :: rest => do
    match ← position (layer.keyed text (depth == innermost)) 0 layer.parameters with
    | some index => return some { depth, index }
    | none => findKeyedIn text innermost rest

/-- The site that a key selects, innermost scope first. -/
def findKeyed (w : StoredWalk σ) (text : String) : Except Fault (Option Site) := do
  findKeyedIn text (← w.innermost) w.layers.zipIdx.reverse

/-- The site of the first positional value of the innermost scope that is not used up. -/
def findPositional (w : StoredWalk σ) : Except Fault (Option Site) := do
  let depth ← w.innermost
  let layer ← get w.layers depth
  return (← position layer.positional 0 layer.parameters).map fun index => { depth, index }

/-- The site whose key a word assigns to, and the assignment. -/
def assignmentHit (w : StoredWalk σ) (token : Token) : Except Fault (Option (Site × Assignment)) :=
  match token.assignment with
  | none => .ok none
  | some a => do
    match ← w.findKeyed a.key with
    | none => return none
    | some site =>
      if Walk.takesAssignment (← w.parameter site) then return some (site, a) else return none

/-- Opens a scope for a parameter that is a command or has children. -/
def enter (w : StoredWalk σ) (p : Parameter σ) : StoredWalk σ :=
  let opens := match p.kind with
    | .command => true
    | _ => !p.children.isEmpty
  if opens then { w with layers := w.layers ++ [Layer.ofParameters p.children] } else w

/-- Uses up the slot at a site unless its parameter is recursive. -/
def useUp (w : StoredWalk σ) (site : Site) : Except Fault (StoredWalk σ) := do
  if (← w.parameter site).recursive then return w
  else
    let layer ← get w.layers site.depth
    let consumed ← set layer.consumed site.index true
    return { w with layers := ← set w.layers site.depth { layer with consumed } }

/-- Selects the slot at a site, whose value may be bound already. -/
def select (w : StoredWalk σ) (site : Site) (valueBound : Bool) : Except Fault (StoredWalk σ) := do
  let p ← w.parameter site
  let w ← w.useUp site
  if Walk.waitsForValue p valueBound then return { w with pending := some p }
  else return w.enter p

def bindPending (w : StoredWalk σ) (p : Parameter σ) : StoredWalk σ :=
  { w with pending := none }.enter p

def consume (w : StoredWalk σ) (token : Token) : Except Fault (StoredWalk σ) :=
  match w.pending with
  | some p => .ok (w.bindPending p)
  | none => do
    match ← w.assignmentHit token with
    | some (site, _) => w.select site true
    | none =>
      match ← w.findKeyed token.text with
      | some site => w.select site false
      | none =>
        match ← w.findPositional with
        | some site => if token.isFlagLike then return w else w.select site true
        | none => return w

/-- What the word under the cursor is, and the stored walk after it. -/
def complete (w : StoredWalk σ) (token : Token) : Except Fault (CursorWord σ × StoredWalk σ) :=
  let closedQuote := token.isQuoted && token.closed
  match w.pending with
  | some p =>
    if closedQuote then .ok (.consumed, w.bindPending p)
    else .ok (.values p none { text := token.text, quote := token.quote }, w)
  | none => do
    match ← w.assignmentHit token with
    | some (site, a) =>
      if a.value.quote != .bare && a.value.closed then return (.consumed, ← w.select site true)
      else return (.values (← w.parameter site) (some a.key)
        { text := a.value.text, quote := a.value.quote }, w)
    | none =>
      let filter := CursorWord.filter
        { text := token.text, quote := token.quote, flagsOnly := token.isFlagLike }
      if !token.closed then return (filter, w)
      else
        match ← w.findKeyed token.text with
        | some site => return (.consumed, ← w.select site false)
        | none =>
          if !closedQuote then return (filter, w)
          else
            match ← w.findPositional with
            | some site => return (.consumed, ← w.select site true)
            | none => return (filter, w)

def enumerate (w : StoredWalk σ) (flagsOnly : Bool) : Except Fault (List (Candidate σ)) :=
  match w.pending with
  | some p => .ok [.values p none]
  | none => do
    let layer ← get w.layers (← w.innermost)
    let free ← layer.freeCandidates flagsOnly 0 layer.parameters
    return free ++ w.layers.reverse.flatMap Layer.recursiveCandidates

end StoredWalk

/-- The suggestions for a line, made with a stored walk. -/
def Dictionary.predictStored (d : Dictionary σ) (mode : MatchMode) (items : Parameter σ → List Item)
    (line : TokenLine) : Except Fault (Predictions σ) :=
  match line.tokens with
  | [] => .ok { mode }
  | command :: rest =>
    if !d.matchesKey command.text then .ok { mode }
    else do
      let (completed, current) := splitCursor rest line.trailingSpace
      let walk ← completed.foldlM StoredWalk.consume (StoredWalk.start d.parameters)
      let words := (command :: completed).map (·.raw)
      let made (words : List String) (typed : Typed) (candidates : List (Candidate σ)) :
          Predictions σ :=
        { lead := Predictions.joinWords words
          typed, mode
          choices := candidates.map (Candidate.resolve items) }
      match current with
      | none => return made words {} (← walk.enumerate false)
      | some token =>
        match ← walk.complete token with
        | (.consumed, walk) => return made (words ++ [token.raw]) {} (← walk.enumerate false)
        | (.filter typed, walk) => return made words typed (← walk.enumerate typed.flagsOnly)
        | (.values p assignmentKey typed, _) => return made words typed [.values p assignmentKey]

/-! ## The stored walk of a walk -/

def Frame.layer (f : Frame σ) : Layer σ where
  parameters := f.map Slot.parameter
  consumed := f.map Slot.used

/-- What holds of the slots of a frame with their numbers, from a number on. -/
def Frame.Numbered (holds : Nat → Slot σ → Prop) (k : Nat) (f : Frame σ) : Prop :=
  ∀ i s, f[i]? = some s → holds (k + i) s

theorem Frame.Numbered.head {holds : Nat → Slot σ → Prop} {k : Nat} {s : Slot σ} {rest : Frame σ}
    (each : Numbered holds k (s :: rest)) : holds k s :=
  each 0 s rfl

theorem Frame.Numbered.tail {holds : Nat → Slot σ → Prop} {k : Nat} {s : Slot σ} {rest : Frame σ}
    (each : Numbered holds k (s :: rest)) : Numbered holds (k + 1) rest := by
  intro i t slot
  rw [Nat.add_right_comm, Nat.add_assoc]
  exact each (i + 1) t slot

def Walk.stored (w : Walk σ) : StoredWalk σ where
  layers := (w.frames.map Frame.layer).reverse
  pending := w.pending

def Completion.word : Completion σ → CursorWord σ
  | .consumed _ => .consumed
  | .filter typed => .filter typed
  | .values p assignmentKey typed => .values p assignmentKey typed

/-- The walk after the word under the cursor, which only a complete word moves. -/
def Completion.walkFrom (w : Walk σ) : Completion σ → Walk σ
  | .consumed next => next
  | .filter _ => w
  | .values _ _ _ => w

namespace Layer

theorem ofParameters_eq (ps : List (Parameter σ)) :
    ofParameters ps = (Frame.ofParameters ps).layer := by
  simp [ofParameters, Frame.layer, Frame.ofParameters, Function.comp_def]

theorem layer_use (i : Nat) (f : Frame σ) :
    (f.use i).layer = { f.layer with consumed := f.layer.consumed.set i true } := by
  induction f generalizing i with
  | nil => cases i <;> rfl
  | cons s rest ih =>
      cases i with
      | zero => rfl
      | succ i =>
          have later := ih i
          simp only [Frame.layer, mk.injEq] at later
          simp [Frame.layer, Frame.use, later]

theorem get_consumed {f : Frame σ} {i : Nat} {s : Slot σ} (slot : f[i]? = some s) :
    get f.layer.consumed i = .ok s.used :=
  Fault.get_eq_ok (by simp [Frame.layer, slot])

theorem keyed_layer {f : Frame σ} {i : Nat} {s : Slot σ} (slot : f[i]? = some s) (text : String)
    (innermost : Bool) :
    f.layer.keyed text innermost i s.parameter = .ok (Walk.keyed text innermost s) := by
  simp only [keyed, Walk.keyed, get_consumed slot]
  cases s.parameter.matchesKey text with
  | false => rfl
  | true =>
      cases s.parameter.recursive with
      | true => rfl
      | false => cases innermost <;> rfl

theorem positional_layer {f : Frame σ} {i : Nat} {s : Slot σ} (slot : f[i]? = some s) :
    f.layer.positional i s.parameter = .ok (s.parameter.isPositional && !s.used) := by
  simp only [positional, get_consumed slot]
  cases s.parameter.isPositional <;> rfl

theorem position_frame {test : Nat → Parameter σ → Except Fault Bool} {holds : Slot σ → Bool}
    {k : Nat} {f : Frame σ} (agree : f.Numbered (fun i s => test i s.parameter = .ok (holds s)) k) :
    position test k (f.map Slot.parameter) = .ok ((f.find? holds).map fun r => k + r.1) := by
  induction f generalizing k with
  | nil => rfl
  | cons s rest ih =>
      have later := ih agree.tail
      rw [List.map_cons, position, agree.head, Fault.ok_bind, Frame.find?]
      cases holds s with
      | true => rfl
      | false =>
          simpa [Option.map_map, Function.comp_def, Nat.add_comm, Nat.add_left_comm] using later

theorem position_layer {test : Nat → Parameter σ → Except Fault Bool} {holds : Slot σ → Bool}
    {f : Frame σ} (agree : ∀ i s, f[i]? = some s → test i s.parameter = .ok (holds s)) :
    position test 0 f.layer.parameters = .ok ((f.find? holds).map Prod.fst) := by
  have numbered : f.Numbered (fun i s => test i s.parameter = .ok (holds s)) 0 := by
    intro i s slot
    rw [Nat.zero_add]
    exact agree i s slot
  have found := position_frame numbered
  simp only [Nat.zero_add] at found
  exact found

theorem freeCandidates_frame {l : Layer σ} {k : Nat} {f : Frame σ} (flagsOnly : Bool)
    (agree : f.Numbered (fun i s => get l.consumed i = .ok s.used) k) :
    l.freeCandidates flagsOnly k (f.map Slot.parameter) =
      .ok (f.flatMap (Walk.freeCandidate flagsOnly)) := by
  induction f generalizing k with
  | nil => rfl
  | cons s rest ih =>
      rw [List.map_cons, freeCandidates, ih agree.tail, agree.head, List.flatMap_cons,
        Walk.freeCandidate]
      cases s.parameter.recursive with
      | true => rfl
      | false =>
          cases s.used with
          | true => rfl
          | false =>
              cases s.parameter.isPositional with
              | true => cases flagsOnly <;> rfl
              | false => rfl

theorem recursiveCandidates_layer (f : Frame σ) :
    f.layer.recursiveCandidates = Walk.recursiveCandidates f := by
  simp [recursiveCandidates, Walk.recursiveCandidates, Frame.layer, List.filter_map,
    Function.comp_def]

end Layer

namespace StoredWalk

variable {w : Walk σ} {hit : Hit σ} {s : Slot σ}

@[simp]
theorem pending_stored (w : Walk σ) : w.stored.pending = w.pending := rfl

@[simp]
theorem length_layers_stored (w : Walk σ) : w.stored.layers.length = w.frames.length := by
  simp [Walk.stored]

theorem start_eq_stored (ps : List (Parameter σ)) : start ps = (Walk.start ps).stored := by
  simp [start, Walk.start, Walk.stored, Layer.ofParameters_eq]

/-! ## Searches -/

theorem layers_stored {up : Nat} {f : Frame σ} (frame : w.frames[up]? = some f) :
    w.stored.layers[w.frames.length - 1 - up]? = some f.layer := by
  have mapped : (w.frames.map Frame.layer)[up]? = some f.layer := by simp [frame]
  have found := Walk.getElem?_reverse_up mapped
  rwa [List.length_map] at found

theorem parameter_site (place : w.At hit s) :
    w.stored.parameter (w.site hit) = .ok hit.parameter := by
  obtain ⟨f, frame, slot, same⟩ := place
  have layer : get w.stored.layers (w.site hit).depth = .ok f.layer :=
    Fault.get_eq_ok (layers_stored frame)
  have inside : get f.layer.parameters (w.site hit).index = .ok s.parameter :=
    Fault.get_eq_ok (by simp [Frame.layer, Walk.site, slot])
  rw [parameter, layer, same, ← inside]
  rfl

theorem innermost_stored (nonempty : w.frames ≠ []) :
    w.stored.innermost = .ok (w.frames.length - 1) := by
  rw [innermost, length_layers_stored]
  exact Fault.pred_eq_ok (by simpa using nonempty)

theorem numbered_cons (f : Frame σ) (rest : List (Frame σ)) :
    ((f :: rest).map Frame.layer).reverse.zipIdx.reverse =
      (f.layer, rest.length) :: (rest.map Frame.layer).reverse.zipIdx.reverse := by
  simp [List.zipIdx_append]

theorem innermost_layer {f : Frame σ} {rest : List (Frame σ)} (frames : w.frames = f :: rest) :
    get w.stored.layers (w.frames.length - 1) = .ok f.layer := by
  have first : w.frames[0]? = some f := by rw [frames]; rfl
  exact Fault.get_eq_ok (layers_stored first)

/-- The checked search goes through the numbered scopes as the search goes through the frames, the
first of which is `up` frames above the innermost. -/
theorem findKeyedIn_frames (text : String) {innermost up : Nat} {frames : List (Frame σ)}
    (numbered : up + frames.length = innermost + 1) :
    findKeyedIn text innermost (frames.map Frame.layer).reverse.zipIdx.reverse =
      .ok ((Walk.findKeyedFrom text up frames).map fun hit =>
        { depth := innermost - hit.up, index := hit.index }) := by
  induction frames generalizing up with
  | nil => rfl
  | cons f rest ih =>
      rw [List.length_cons] at numbered
      have later := @ih (up + 1) (by omega)
      -- numbers count from the outermost scope, and `up` counts from the innermost
      have depth : rest.length = innermost - up := by omega
      have first : (rest.length == innermost) = (up == 0) := by
        rw [Bool.eq_iff_iff, beq_iff_eq, beq_iff_eq]
        omega
      have search := Layer.position_layer fun i s (slot : f[i]? = some s) =>
        Layer.keyed_layer slot text (up == 0)
      rw [numbered_cons, findKeyedIn, first, search, Fault.ok_bind, Walk.findKeyedFrom]
      cases f.find? (Walk.keyed text (up == 0)) with
      | none => exact later
      | some found =>
          rw [depth]
          rfl

theorem findKeyed_stored (nonempty : w.frames ≠ []) (text : String) :
    w.stored.findKeyed text = .ok ((w.findKeyed text).map w.site) := by
  have positive := List.length_pos_iff.mpr nonempty
  rw [findKeyed, innermost_stored nonempty, Fault.ok_bind]
  exact findKeyedIn_frames text (by omega)

theorem findPositional_stored (nonempty : w.frames ≠ []) :
    w.stored.findPositional = .ok (w.findPositional.map w.site) := by
  cases frames : w.frames with
  | nil => exact absurd frames nonempty
  | cons f rest =>
      have search := Layer.position_layer fun i s (slot : f[i]? = some s) =>
        Layer.positional_layer slot
      have positional : w.findPositional =
          (f.find? fun s => s.parameter.isPositional && !s.used).map fun r =>
            { up := 0, index := r.1, parameter := r.2.parameter } := by
        rw [Walk.findPositional, frames]
      rw [findPositional, innermost_stored nonempty, Fault.ok_bind, innermost_layer frames,
        Fault.ok_bind, search, Fault.ok_bind, positional, Option.map_map, Option.map_map]
      rfl

theorem assignmentHit_stored (nonempty : w.frames ≠ []) (token : Token) :
    w.stored.assignmentHit token =
      .ok ((w.assignmentHit token).map fun found => (w.site found.1, found.2)) := by
  unfold assignmentHit Walk.assignmentHit
  cases token.assignment with
  | none => rfl
  | some a =>
      simp only [findKeyed_stored nonempty, Fault.ok_bind]
      cases keyed : w.findKeyed a.key with
      | none => rfl
      | some hit =>
          obtain ⟨s, place, _⟩ := Walk.findKeyed_located keyed
          simp only [Option.map_some, parameter_site place, Fault.ok_bind]
          cases Walk.takesAssignment hit.parameter <;> rfl

/-! ## Steps -/

theorem enter_stored (w : Walk σ) (p : Parameter σ) : w.stored.enter p = (w.enter p).stored := by
  have opened : ({ w with frames := Frame.ofParameters p.children :: w.frames } : Walk σ).stored =
      { w.stored with layers := w.stored.layers ++ [Layer.ofParameters p.children] } := by
    simp [Walk.stored, Layer.ofParameters_eq]
  unfold enter Walk.enter
  cases p.kind with
  | command => exact opened.symm
  | flag | value =>
      cases p.children.isEmpty with
      | true => rfl
      | false => exact opened.symm

theorem useUp_stored (place : w.At hit s) :
    w.stored.useUp (w.site hit) = .ok (w.useUp hit).stored := by
  have own := parameter_site place
  obtain ⟨f, frame, slot, _⟩ := place
  rw [useUp, own, Fault.ok_bind, Walk.useUp]
  cases hit.parameter.recursive with
  | true => rfl
  | false =>
      have layer := layers_stored frame
      have consumed : f.layer.consumed[hit.index]? = some s.used := by simp [Frame.layer, slot]
      -- the frame of the slot stands between those further in and those further out
      obtain ⟨inner, g, outer, frames, depth, modified⟩ :=
        List.exists_of_modify (Frame.use hit.index) (List.getElem?_eq_some_iff.mp frame).1
      obtain rfl : g = f := by
        rw [frames, ← depth, List.getElem?_append_right (Nat.le_refl _), Nat.sub_self] at frame
        exact Option.some.inj frame
      have stands : w.frames.length - 1 - hit.up = (outer.map Frame.layer).reverse.length := by
        simp only [frames, List.length_append, List.length_cons, List.length_reverse,
          List.length_map, ← depth]
        omega
      have replaced : w.stored.layers.set (w.frames.length - 1 - hit.up) (g.use hit.index).layer =
          ((w.frames.modify hit.up (Frame.use hit.index)).map Frame.layer).reverse := by
        rw [stands, modified]
        simp [Walk.stored, frames]
      simp only [Walk.site, Fault.get_eq_ok layer, Fault.set_eq_ok consumed, Fault.set_eq_ok layer,
        Fault.ok_bind, ← Layer.layer_use, replaced]
      rfl

theorem select_stored (place : w.At hit s) (bound : Bool) :
    w.stored.select (w.site hit) bound = .ok (w.select hit bound).stored := by
  rw [select, parameter_site place, Fault.ok_bind, useUp_stored place, Fault.ok_bind, Walk.select]
  cases Walk.waitsForValue hit.parameter bound with
  | true => rfl
  | false => exact congrArg Except.ok (enter_stored _ _)

theorem bindPending_stored (w : Walk σ) (p : Parameter σ) :
    w.stored.bindPending p = (w.bindPending p).stored :=
  enter_stored { w with pending := none } p

theorem consume_stored (nonempty : w.frames ≠ []) (token : Token) :
    w.stored.consume token = .ok (w.consume token).stored := by
  cases pending : w.pending with
  | some p =>
      simp only [consume, Walk.consume, pending_stored, pending]
      exact congrArg Except.ok (bindPending_stored w p)
  | none =>
      simp only [consume, Walk.consume, pending_stored, pending, assignmentHit_stored nonempty,
        Fault.ok_bind]
      cases assigned : w.assignmentHit token with
      | some found =>
          obtain ⟨s, place⟩ := Walk.assignmentHit_at assigned
          exact select_stored place true
      | none =>
          simp only [Option.map_none, findKeyed_stored nonempty, Fault.ok_bind]
          cases keyed : w.findKeyed token.text with
          | some hit =>
              obtain ⟨s, place, _⟩ := Walk.findKeyed_located keyed
              exact select_stored place false
          | none =>
              simp only [Option.map_none, findPositional_stored nonempty, Fault.ok_bind]
              cases positional : w.findPositional with
              | none => rfl
              | some hit =>
                  obtain ⟨s, place, _⟩ := Walk.findPositional_located positional
                  cases flag : token.isFlagLike with
                  | true => rfl
                  | false => exact select_stored place true

theorem complete_stored (nonempty : w.frames ≠ []) (token : Token) :
    w.stored.complete token =
      .ok ((w.complete token).word, ((w.complete token).walkFrom w).stored) := by
  cases pending : w.pending with
  | some p =>
      simp only [complete, Walk.complete, pending_stored, pending]
      cases token.isQuoted && token.closed with
      | true =>
          rw [bindPending_stored]
          rfl
      | false => rfl
  | none =>
      simp only [complete, Walk.complete, pending_stored, pending, assignmentHit_stored nonempty,
        Fault.ok_bind]
      cases assigned : w.assignmentHit token with
      | some found =>
          obtain ⟨hit, a⟩ := found
          obtain ⟨s, place⟩ := Walk.assignmentHit_at assigned
          simp only [Option.map_some, select_stored place, parameter_site place, Fault.ok_bind]
          cases a.value.quote != .bare && a.value.closed <;> rfl
      | none =>
          simp only [Option.map_none, findKeyed_stored nonempty, Fault.ok_bind]
          cases token.closed with
          | false => rfl
          | true =>
              cases keyed : w.findKeyed token.text with
              | some hit =>
                  obtain ⟨s, place, _⟩ := Walk.findKeyed_located keyed
                  simp only [Option.map_some, select_stored place, Fault.ok_bind]
                  rfl
              | none =>
                  cases token.isQuoted with
                  | false => rfl
                  | true =>
                      simp only [findPositional_stored nonempty, Fault.ok_bind]
                      cases positional : w.findPositional with
                      | none => rfl
                      | some hit =>
                          obtain ⟨s, place, _⟩ := Walk.findPositional_located positional
                          simp only [Option.map_some, select_stored place, Fault.ok_bind]
                          rfl

theorem enumerate_stored (nonempty : w.frames ≠ []) (flagsOnly : Bool) :
    w.stored.enumerate flagsOnly = .ok (w.enumerate flagsOnly) := by
  cases pending : w.pending with
  | some p => simp [enumerate, Walk.enumerate, pending]
  | none =>
      cases frames : w.frames with
      | nil => exact absurd frames nonempty
      | cons f rest =>
          have numbered : f.Numbered (fun i s => get f.layer.consumed i = .ok s.used) 0 := by
            intro i s slot
            rw [Nat.zero_add]
            exact Layer.get_consumed slot
          have free : f.layer.freeCandidates flagsOnly 0 f.layer.parameters =
              .ok (f.flatMap (Walk.freeCandidate flagsOnly)) :=
            Layer.freeCandidates_frame flagsOnly numbered
          have recursive : w.stored.layers.reverse.flatMap Layer.recursiveCandidates =
              w.frames.flatMap Walk.recursiveCandidates := by
            simp [Walk.stored, List.flatMap_map, Layer.recursiveCandidates_layer]
          simp only [enumerate, Walk.enumerate, pending_stored, pending, innermost_stored nonempty,
            Fault.ok_bind, innermost_layer frames, free, recursive]
          simp only [frames]
          rfl

end StoredWalk

end LineCompletion

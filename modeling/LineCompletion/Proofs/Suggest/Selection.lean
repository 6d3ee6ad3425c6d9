import Mathlib.Data.List.Basic
import LineCompletion.Suggest.Walk
import LineCompletion.Proofs.Dictionary.DistinctKeys

/-! # What a completed word selects

A completed word selects at most one slot: by assignment, by a key, or as a positional value. The
searches only answer with slots that are there, and every open frame holds the parameters of a
scope of the dictionary.
-/

namespace LineCompletion

variable {σ : Type}

namespace Frame

theorem find?_located {p : Slot σ → Bool} {f : Frame σ} {index : Nat} {s : Slot σ}
    (found : f.find? p = some (index, s)) : f[index]? = some s ∧ p s = true := by
  induction f generalizing index with
  | nil => simp [find?] at found
  | cons first rest ih =>
      simp only [find?] at found
      split at found
      · rename_i holds
        obtain ⟨rfl, rfl⟩ := Prod.mk.inj (Option.some.inj found)
        exact ⟨rfl, holds⟩
      · obtain ⟨⟨before, slot⟩, inner, parts⟩ := Option.map_eq_some_iff.mp found
        obtain ⟨rfl, rfl⟩ := Prod.mk.inj parts
        exact ih inner

theorem find?_slot (p : Slot σ → Bool) (f : Frame σ) :
    (f.find? p).map Prod.snd = List.find? p f := by
  induction f with
  | nil => rfl
  | cons first rest ih =>
      simp only [find?, List.find?_cons]
      cases p first with
      | true => rfl
      | false => simpa [Function.comp_def] using ih

theorem parameters_use (i : Nat) (f : Frame σ) :
    (use i f).map Slot.parameter = f.map Slot.parameter := by
  induction f generalizing i with
  | nil => cases i <;> rfl
  | cons s rest ih =>
      cases i with
      | zero => rfl
      | succ i => simp [use, ih]

theorem parameters_ofParameters (ps : List (Parameter σ)) :
    (ofParameters ps).map Slot.parameter = ps := by
  simp [ofParameters, Function.comp_def]

end Frame

namespace Walk

def At (w : Walk σ) (hit : Hit σ) (s : Slot σ) : Prop :=
  ∃ f, w.frames[hit.up]? = some f ∧ f[hit.index]? = some s ∧ hit.parameter = s.parameter

theorem findKeyedFrom_located {text : String} {up : Nat} {frames : List (Frame σ)} {hit : Hit σ}
    (found : findKeyedFrom text up frames = some hit) :
    ∃ below f s, hit.up = up + below ∧ frames[below]? = some f ∧ f[hit.index]? = some s ∧
      hit.parameter = s.parameter ∧ keyed text (hit.up == 0) s = true := by
  induction frames generalizing up with
  | nil => simp [findKeyedFrom] at found
  | cons f rest ih =>
      simp only [findKeyedFrom] at found
      split at found
      · rename_i index s inner
        obtain ⟨slot, selects⟩ := Frame.find?_located inner
        obtain rfl := Option.some.inj found
        exact ⟨0, f, s, rfl, rfl, slot, rfl, selects⟩
      · obtain ⟨below, g, s, depth, frame, slot, same, selects⟩ := ih found
        exact ⟨below + 1, g, s, by omega, frame, slot, same, selects⟩

theorem findKeyed_located {w : Walk σ} {text : String} {hit : Hit σ}
    (found : w.findKeyed text = some hit) :
    ∃ s, w.At hit s ∧ keyed text (hit.up == 0) s = true := by
  obtain ⟨below, f, s, depth, frame, slot, same, selects⟩ := findKeyedFrom_located found
  obtain rfl : hit.up = below := by omega
  exact ⟨s, ⟨f, frame, slot, same⟩, selects⟩

theorem findPositional_located {w : Walk σ} {hit : Hit σ} (found : w.findPositional = some hit) :
    ∃ s, w.At hit s ∧ hit.up = 0 ∧ s.parameter.isPositional = true ∧ s.used = false := by
  unfold findPositional at found
  split at found
  · simp at found
  · rename_i f rest frames
    obtain ⟨⟨index, s⟩, inner, rfl⟩ := Option.map_eq_some_iff.mp found
    obtain ⟨slot, free⟩ := Frame.find?_located inner
    rw [Bool.and_eq_true, Bool.not_eq_true'] at free
    exact ⟨s, ⟨f, by simp [frames], slot, rfl⟩, rfl, free⟩

theorem assignmentHit_located {w : Walk σ} {token : Token} {hit : Hit σ} {a : Assignment}
    (found : w.assignmentHit token = some (hit, a)) :
    token.assignment = some a ∧ w.findKeyed a.key = some hit ∧
      takesAssignment hit.parameter = true := by
  unfold assignmentHit at found
  split at found
  · simp at found
  · rename_i b assigned
    split at found
    · simp at found
    · rename_i other keyed
      split at found
      · rename_i takes
        obtain ⟨rfl, rfl⟩ := Prod.mk.inj (Option.some.inj found)
        exact ⟨assigned, keyed, takes⟩
      · simp at found

theorem assignmentHit_at {w : Walk σ} {token : Token} {hit : Hit σ} {a : Assignment}
    (found : w.assignmentHit token = some (hit, a)) : ∃ s, w.At hit s := by
  obtain ⟨_, keyed, _⟩ := assignmentHit_located found
  obtain ⟨s, place, _⟩ := findKeyed_located keyed
  exact ⟨s, place⟩

/-- What a completed word selects when no value is pending, and whether its value is bound. -/
def selection? (w : Walk σ) (token : Token) : Option (Hit σ × Bool) :=
  match w.assignmentHit token with
  | some (hit, _) => some (hit, true)
  | none =>
    match w.findKeyed token.text with
    | some hit => some (hit, false)
    | none => if token.isFlagLike then none else w.findPositional.map (·, true)

theorem consume_eq_select {w : Walk σ} (free : w.pending = none) (token : Token) :
    w.consume token =
      match w.selection? token with
      | none => w
      | some (hit, bound) => w.select hit bound := by
  simp only [consume, free, selection?]
  cases w.assignmentHit token with
  | some found => rfl
  | none =>
      cases w.findKeyed token.text with
      | some hit => rfl
      | none =>
          cases w.findPositional with
          | none => simp
          | some hit =>
              by_cases flag : token.isFlagLike = true
              · simp [flag]
              · simp [flag]

/-- The ways in which a word selects a slot, in the order in which they are tried. -/
theorem selection?_cases {w : Walk σ} {token : Token} {hit : Hit σ} {bound : Bool}
    (selected : w.selection? token = some (hit, bound)) :
    (∃ a, w.assignmentHit token = some (hit, a)) ∧ bound = true ∨
      w.assignmentHit token = none ∧ w.findKeyed token.text = some hit ∧ bound = false ∨
      w.assignmentHit token = none ∧ w.findKeyed token.text = none ∧ token.isFlagLike = false ∧
        w.findPositional = some hit ∧ bound = true := by
  unfold selection? at selected
  split at selected
  · rename_i other a assigned
    obtain ⟨rfl, rfl⟩ := Prod.mk.inj (Option.some.inj selected)
    exact .inl ⟨⟨a, assigned⟩, rfl⟩
  · rename_i unassigned
    split at selected
    · rename_i other keyed
      obtain ⟨rfl, rfl⟩ := Prod.mk.inj (Option.some.inj selected)
      exact .inr (.inl ⟨unassigned, keyed, rfl⟩)
    · rename_i unkeyed
      split at selected
      · simp at selected
      · rename_i flag
        obtain ⟨other, positional, parts⟩ := Option.map_eq_some_iff.mp selected
        obtain ⟨rfl, rfl⟩ := Prod.mk.inj parts
        exact .inr (.inr ⟨unassigned, unkeyed, by simpa using flag, positional, rfl⟩)

theorem selection?_located {w : Walk σ} {token : Token} {hit : Hit σ} {bound : Bool}
    (selected : w.selection? token = some (hit, bound)) : ∃ s, w.At hit s := by
  rcases selection?_cases selected with
    ⟨⟨a, assigned⟩, _⟩ | ⟨_, keyed, _⟩ | ⟨_, _, _, positional, _⟩
  · exact assignmentHit_at assigned
  · obtain ⟨s, place, _⟩ := findKeyed_located keyed
    exact ⟨s, place⟩
  · obtain ⟨s, place, _⟩ := findPositional_located positional
    exact ⟨s, place⟩

theorem eq_false_of_waitsForValue {p : Parameter σ} {bound : Bool}
    (waits : waitsForValue p bound = true) : bound = false := by
  unfold waitsForValue at waits
  split at waits
  · simp only [Bool.and_eq_true, Bool.not_eq_true'] at waits
    exact waits.1.1
  · simp at waits

/-! ## The scopes of a walk -/

/-- The parameters of each open frame, innermost first. -/
def scopes (w : Walk σ) : List (List (Parameter σ)) :=
  w.frames.map fun f => f.map Slot.parameter

theorem mem_scope_of_at {w : Walk σ} {hit : Hit σ} {s : Slot σ} (place : w.At hit s) :
    ∃ ps ∈ w.scopes, hit.parameter ∈ ps := by
  obtain ⟨f, frame, slot, same⟩ := place
  refine ⟨f.map Slot.parameter, List.mem_map_of_mem (List.mem_of_getElem? frame), ?_⟩
  rw [same]
  exact List.mem_map_of_mem (List.mem_of_getElem? slot)

@[simp]
theorem scopes_start (ps : List (Parameter σ)) : (start ps).scopes = [ps] := by
  simp [scopes, start, Frame.parameters_ofParameters]

@[simp]
theorem scopes_useUp (w : Walk σ) (hit : Hit σ) : (w.useUp hit).scopes = w.scopes := by
  unfold useUp
  split
  · rfl
  · simp only [scopes]
    refine List.ext_getElem? fun i => ?_
    rw [List.getElem?_map, List.getElem?_map, List.getElem?_modify]
    cases w.frames[i]? with
    | none => rfl
    | some f =>
        by_cases same : hit.up = i
        · simp [same, Frame.parameters_use]
        · simp [same]

@[simp]
theorem pending_useUp (w : Walk σ) (hit : Hit σ) : (w.useUp hit).pending = w.pending := by
  unfold useUp
  split <;> rfl

theorem enter_eq (w : Walk σ) (p : Parameter σ) :
    w.enter p = w ∨ w.enter p = { w with frames := Frame.ofParameters p.children :: w.frames } := by
  unfold enter
  cases p.kind with
  | command => exact .inr rfl
  | flag | value =>
      cases p.children.isEmpty with
      | true => exact .inl rfl
      | false => exact .inr rfl

@[simp]
theorem pending_enter (w : Walk σ) (p : Parameter σ) : (w.enter p).pending = w.pending := by
  rcases enter_eq w p with same | opened
  · rw [same]
  · rw [opened]

/-- Every open scope, and the one below a pending value, is free of ambiguous keys. -/
structure Clear (w : Walk σ) : Prop where
  scopes : ∀ ps ∈ w.scopes, Validation.Unambiguous ps
  pending : ∀ p, w.pending = some p → Validation.Unambiguous p.children

theorem Clear.start {ps : List (Parameter σ)} (clear : Validation.Unambiguous ps) :
    (Walk.start ps).Clear := by
  refine ⟨?_, ?_⟩
  · simpa using clear
  · intro p pending
    simp [Walk.start] at pending

theorem Clear.enter {w : Walk σ} (clear : w.Clear) {p : Parameter σ}
    (below : Validation.Unambiguous p.children) : (w.enter p).Clear := by
  rcases enter_eq w p with same | pushed
  · rw [same]
    exact clear
  · rw [pushed]
    refine ⟨?_, clear.pending⟩
    intro ps member
    simp only [Walk.scopes, List.map_cons, Frame.parameters_ofParameters] at member
    rcases List.mem_cons.mp member with rfl | member
    · exact below
    · exact clear.scopes ps member

theorem Clear.select {w : Walk σ} (clear : w.Clear) {hit : Hit σ} {s : Slot σ}
    (place : w.At hit s) (bound : Bool) : (w.select hit bound).Clear := by
  obtain ⟨ps, scope, member⟩ := mem_scope_of_at place
  have below := (clear.scopes ps scope).children member
  have used : (w.useUp hit).Clear :=
    ⟨by simpa using clear.scopes, by simpa using clear.pending⟩
  simp only [Walk.select]
  split
  · refine ⟨used.scopes, ?_⟩
    intro p pending
    obtain rfl := Option.some.inj pending
    exact below
  · exact used.enter below

theorem Clear.consume {w : Walk σ} (clear : w.Clear) (token : Token) : (w.consume token).Clear := by
  cases pending : w.pending with
  | some p =>
      have freed : ({ w with pending := none } : Walk σ).Clear := ⟨clear.scopes, by simp⟩
      simpa [Walk.consume, pending, bindPending] using freed.enter (clear.pending p pending)
  | none =>
      rw [consume_eq_select pending]
      cases selected : w.selection? token with
      | none => exact clear
      | some found =>
          obtain ⟨s, place⟩ := selection?_located selected
          exact clear.select place found.2

end Walk

namespace Dictionary

/-- The walk after completed words. -/
def walk (d : Dictionary σ) (tokens : List Token) : Walk σ :=
  tokens.foldl Walk.consume (Walk.start d.parameters)

theorem walk_append (d : Dictionary σ) (before after : List Token) :
    d.walk (before ++ after) = after.foldl Walk.consume (d.walk before) :=
  List.foldl_append

theorem walk_clear {d : Dictionary σ} (valid : d.validate = .ok ()) (tokens : List Token) :
    (d.walk tokens).Clear := by
  have run (w : Walk σ) (clear : w.Clear) : (tokens.foldl Walk.consume w).Clear := by
    induction tokens generalizing w with
    | nil => exact clear
    | cons token rest ih => exact ih _ (clear.consume token)
  exact run _ (.start (Validation.unambiguous_of_validate valid))

end Dictionary

end LineCompletion

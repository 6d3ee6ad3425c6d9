import Mathlib.Data.List.Basic
import LineCompletion.Proofs.Suggest.Selection

/-! # Keys that are offered and keys that are accepted

The search for a key goes through the innermost frame once and then through the frames above it.
The candidates list the free parameters of the innermost frame first and the recursive ones of all
frames after them. In a checked dictionary both come to the same parameter first.
-/

namespace LineCompletion

variable {σ : Type}

/-- Whether a candidate offers a parameter that a text selects by one of its keys. -/
def Candidate.hasKey (text : String) : Candidate σ → Bool
  | .key p => p.matchesKey text
  | .values _ _ => false

theorem Parameter.keys_ne_nil_of_matchesKey {p : Parameter σ} {text : String}
    (selects : p.matchesKey text = true) : p.keys ≠ [] := by
  intro empty
  simp [Parameter.matchesKey, empty] at selects

namespace Walk

theorem find?_or {α : Type} (property : α → Bool) {left right : α → Bool}
    (isLeft : ∀ a, left a = true → property a = true)
    (isRight : ∀ a, right a = true → property a = true) {as : List α}
    (single : as.Pairwise fun a b => ¬ (property a = true ∧ property b = true)) :
    as.find? (fun a => left a || right a) = (as.find? left).or (as.find? right) := by
  induction as with
  | nil => rfl
  | cons a rest ih =>
      obtain ⟨alone, single⟩ := List.pairwise_cons.mp single
      by_cases first : left a = true
      · simp [List.find?_cons, first]
      · by_cases second : right a = true
        · have none : rest.find? left = none := by
            rw [List.find?_eq_none]
            intro b member other
            exact alone b member ⟨isRight a second, isLeft b other⟩
          simp [first, second, none]
        · simpa [List.find?_cons, first, second] using ih single

/-- A key that selects a free, not recursive parameter. -/
def freeKeyed (text : String) (s : Slot σ) : Bool :=
  s.parameter.matchesKey text && (!s.parameter.recursive && !s.used)

/-- In the innermost frame a key selects a recursive parameter or a free one. -/
theorem keyed_innermost (text : String) (s : Slot σ) :
    keyed text true s = (freeKeyed text s || keyed text false s) := by
  simp only [keyed, freeKeyed]
  cases s.parameter.matchesKey text <;> cases s.parameter.recursive <;> cases s.used <;> rfl

theorem find?_freeCandidate (text : String) (s : Slot σ) :
    (freeCandidate false s).find? (Candidate.hasKey text) =
      if freeKeyed text s then some (.key s.parameter) else none := by
  by_cases selects : s.parameter.matchesKey text = true
  · have keys := Parameter.keys_ne_nil_of_matchesKey selects
    simp only [freeCandidate, freeKeyed, selects, Parameter.isPositional]
    cases s.parameter.recursive <;> cases s.used <;> simp [Candidate.hasKey, keys, selects]
  · simp only [freeCandidate, freeKeyed, selects]
    split
    · simp
    · split <;> simp [Candidate.hasKey, selects]

theorem find?_freeCandidates (text : String) (f : Frame σ) :
    (f.flatMap (freeCandidate false)).find? (Candidate.hasKey text) =
      (List.find? (freeKeyed text) f).map fun s => .key s.parameter := by
  induction f with
  | nil => rfl
  | cons s rest ih =>
      rw [List.flatMap_cons, List.find?_append, find?_freeCandidate, ih, List.find?_cons]
      cases freeKeyed text s with
      | true => simp
      | false => simp

theorem find?_recursiveCandidates (text : String) (f : Frame σ) :
    (recursiveCandidates f).find? (Candidate.hasKey text) =
      (List.find? (keyed text false) f).map fun s => .key s.parameter := by
  rw [recursiveCandidates, List.find?_map, List.find?_filter]
  congr 2
  funext s
  by_cases selects : s.parameter.matchesKey text = true
  · have keys := Parameter.keys_ne_nil_of_matchesKey selects
    simp [keyed, Candidate.hasKey, selects, keys]
  · simp [keyed, Candidate.hasKey, selects]

theorem findKeyedFrom_eq_find? (text : String) (up : Nat) (frames : List (Frame σ)) :
    (findKeyedFrom text (up + 1) frames).map (fun hit => Candidate.key hit.parameter) =
      (frames.flatMap recursiveCandidates).find? (Candidate.hasKey text) := by
  induction frames generalizing up with
  | nil => rfl
  | cons f rest ih =>
      have outer : (up + 1 == 0) = false := rfl
      rw [List.flatMap_cons, List.find?_append, find?_recursiveCandidates, ← ih (up + 1),
        ← Frame.find?_slot, findKeyedFrom, outer]
      cases f.find? (keyed text false) with
      | none => rfl
      | some found => rfl

/-- The parameter that a key selects is the first that is offered with this key. -/
theorem findKeyed_eq_find? {w : Walk σ} (clear : w.Clear) (free : w.pending = none)
    (text : String) :
    (w.findKeyed text).map (fun hit => Candidate.key hit.parameter) =
      (w.enumerate false).find? (Candidate.hasKey text) := by
  cases frames : w.frames with
  | nil => simp [findKeyed, findKeyedFrom, enumerate, free, frames]
  | cons f rest =>
      have distinct : f.Pairwise fun s t =>
          ¬ (s.parameter.matchesKey text = true ∧ t.parameter.matchesKey text = true) := by
        have scope : f.map Slot.parameter ∈ w.scopes := by simp [scopes, frames]
        exact List.pairwise_map.mp ((clear.scopes _ scope).here.pairwise text)
      -- the candidates list the free parameters of the frame before its recursive ones, the search
      -- takes them as they come: with distinct keys only one of them can have this key
      have innermost : List.find? (keyed text true) f =
          (List.find? (freeKeyed text) f).or (List.find? (keyed text false) f) := by
        rw [funext (keyed_innermost text)]
        refine find?_or (fun s => s.parameter.matchesKey text) ?_ ?_ distinct
        · intro s selects
          exact (Bool.and_eq_true _ _ |>.mp selects).1
        · intro s selects
          exact (Bool.and_eq_true _ _ |>.mp selects).1
      have offered : (w.enumerate false).find? (Candidate.hasKey text) =
          ((List.find? (keyed text true) f).map fun s => Candidate.key s.parameter).or
            ((rest.flatMap recursiveCandidates).find? (Candidate.hasKey text)) := by
        simp only [enumerate, free, frames, List.head?_cons, Option.getD_some, List.flatMap_cons,
          List.find?_append, find?_freeCandidates, find?_recursiveCandidates, innermost]
        cases List.find? (freeKeyed text) f <;> simp
      rw [offered, ← findKeyedFrom_eq_find? text 0, ← Frame.find?_slot, findKeyed, frames,
        findKeyedFrom]
      have inner : (0 == 0) = true := rfl
      rw [inner]
      cases f.find? (keyed text true) with
      | none => rfl
      | some found => rfl

/-- A selection is of a keyed parameter where the search for its key found it. -/
theorem selection?_keyed_iff {w : Walk σ} {token : Token}
    (unassigned : w.assignmentHit token = none)
    {hit : Hit σ} {bound : Bool} :
    (w.selection? token = some (hit, bound) ∧ hit.parameter.keys ≠ []) ↔
      w.findKeyed token.text = some hit ∧ bound = false := by
  simp only [selection?, unassigned]
  cases keyed : w.findKeyed token.text with
  | some found =>
      obtain ⟨s, ⟨f, _, _, same⟩, selects⟩ := findKeyed_located keyed
      have keys : found.parameter.keys ≠ [] :=
        same ▸ Parameter.keys_ne_nil_of_matchesKey (Bool.and_eq_true _ _ |>.mp selects).1
      constructor
      · rintro ⟨selected, _⟩
        obtain ⟨rfl, rfl⟩ := Prod.mk.inj (Option.some.inj selected)
        exact ⟨rfl, rfl⟩
      · rintro ⟨selected, rfl⟩
        obtain rfl := Option.some.inj selected
        exact ⟨rfl, keys⟩
  | none =>
      refine iff_of_false ?_ (by simp)
      rintro ⟨selected, keys⟩
      by_cases flag : token.isFlagLike = true
      · simp [flag] at selected
      · simp only [flag] at selected
        obtain ⟨found, positional, parts⟩ := Option.map_eq_some_iff.mp selected
        obtain ⟨rfl, rfl⟩ := Prod.mk.inj parts
        obtain ⟨s, ⟨f, _, _, same⟩, _, noKeys, _⟩ := findPositional_located positional
        rw [← same, Parameter.isPositional, Bool.and_eq_true, List.isEmpty_iff] at noKeys
        exact keys noKeys.2

end Walk

/-- In a checked dictionary, a word that assigns nothing selects a keyed parameter exactly where one
is offered with that key, and then the first that is offered. -/
theorem Dictionary.keyed_selection_iff_offered {d : Dictionary σ} (valid : d.validate = .ok ())
    (tokens : List Token) (free : (d.walk tokens).pending = none) (token : Token)
    (unassigned : (d.walk tokens).assignmentHit token = none) :
    let w := d.walk tokens
    (w.consume token =
        match w.selection? token with
        | none => w
        | some (hit, bound) => w.select hit bound) ∧
      ((∃ hit bound, w.selection? token = some (hit, bound) ∧ hit.parameter.keys ≠ []) ↔
        ∃ p, .key p ∈ w.enumerate false ∧ p.matchesKey token.text = true) ∧
      ∀ hit bound, w.selection? token = some (hit, bound) → hit.parameter.keys ≠ [] →
        (w.enumerate false).find? (Candidate.hasKey token.text) = some (.key hit.parameter) := by
  intro w
  have first := Walk.findKeyed_eq_find? (walk_clear valid tokens) free token.text
  refine ⟨Walk.consume_eq_select free token, ?_, ?_⟩
  · constructor
    · rintro ⟨hit, bound, selected⟩
      obtain ⟨keyed, _⟩ := (Walk.selection?_keyed_iff unassigned).mp selected
      rw [keyed, Option.map_some] at first
      exact ⟨hit.parameter, List.mem_of_find?_eq_some first.symm,
        by simpa [Candidate.hasKey] using List.find?_some first.symm⟩
    · rintro ⟨p, offered, selects⟩
      cases keyed : w.findKeyed token.text with
      | some hit => exact ⟨hit, false, (Walk.selection?_keyed_iff unassigned).mpr ⟨keyed, rfl⟩⟩
      | none =>
          have none := List.find?_eq_none.mp (first.symm.trans (congrArg _ keyed)) _ offered
          exact absurd selects none
  · intro hit bound selected keys
    obtain ⟨keyed, _⟩ := (Walk.selection?_keyed_iff unassigned).mp ⟨selected, keys⟩
    rw [← first, keyed, Option.map_some]

/-- A command with a help flag that stays available below its subcommand. -/
def Dictionary.withHelp : Dictionary Unit :=
  ((ofCommand "git").withParameter (Parameter.command "commit")).withParameter
    (Parameter.flag ["--help"] "Help").markRecursive

theorem Dictionary.keyed_selection_iff_offered_help :
    let w := withHelp.walk [Token.parse "commit"]
    withHelp.validate = .ok () ∧ w.pending = none ∧ w.assignmentHit (Token.parse "--HELP") = none ∧
      ∃ p, .key p ∈ w.enumerate false ∧ p.matchesKey "--HELP" = true := by
  have valid : withHelp.validate = .ok () := by rfl
  refine ⟨valid, by rfl, by rfl, ?_⟩
  obtain ⟨_, offered, _⟩ := keyed_selection_iff_offered valid [Token.parse "commit"] (by rfl)
    (Token.parse "--HELP") (by rfl)
  exact offered.mp ⟨_, _, by rfl, by decide⟩

end LineCompletion

import Mathlib.Data.List.Forall2
import LineCompletion.Suggest.Predictions

/-! # One suggestion after the other

A call looks at choices until one has a suggestion, and keeps what else that choice has for the
calls after it. Here each look is a step of its own, and a call leaves a state also when it has
nothing to give. Every call gives the next suggestion of the list of all of them, and none once the
list is at its end.
-/

namespace LineCompletion

variable {σ : Type}

namespace Predictions

/-- How a look at what is at hand ends. -/
inductive Look (σ : Type) where
  | found (s : Suggestion) (rest : Predictions σ)
  | passed (rest : Predictions σ)
  | nothing (rest : Predictions σ)

/-- Takes a suggestion of a choice that was looked at, or else looks at the next choice. -/
def look (p : Predictions σ) : Look σ :=
  match p.buffered, p.choices with
  | s :: more, _ => .found s { p with buffered := more }
  | [], [] => .nothing p
  | [], .key parameter :: later =>
    match p.keySuggestion parameter with
    | some s => .found s { p with choices := later }
    | none => .passed { p with choices := later }
  | [], .values items assignmentKey :: later =>
    .passed { p with choices := later, buffered := p.valueSuggestions items assignmentKey }

theorem length_choices_look {p rest : Predictions σ} (passed : p.look = .passed rest) :
    rest.choices.length < p.choices.length := by
  revert passed
  fun_cases look p with
  | case1 | case2 | case3 => simp
  | case4 parameter later choices buffered missed =>
      intro passed
      obtain rfl := Look.passed.inj passed
      simp [choices]
  | case5 items assignmentKey later choices buffered =>
      intro passed
      obtain rfl := Look.passed.inj passed
      simp [choices]

/-- A call: it looks until there is a suggestion or nothing is left. With its answer it gives what
is left for the next call. -/
def next (p : Predictions σ) : Option Suggestion × Predictions σ :=
  match _passed : p.look with
  | .found s rest => (some s, rest)
  | .passed rest => rest.next
  | .nothing rest => (none, rest)
termination_by p.choices.length
decreasing_by exact length_choices_look _passed

def after : Nat → Predictions σ → Predictions σ
  | 0, p => p
  | n + 1, p => after n p.next.2

/-! ## Calls and the list -/

theorem ofChoice_at (p : Predictions σ) (choices : List (Choice σ)) (buffered : List Suggestion) :
    ofChoice { p with choices, buffered } = p.ofChoice := by
  funext choice
  cases choice <;> rfl

theorem toList_look (p : Predictions σ) :
    match p.look with
    | .found s rest => p.toList = s :: rest.toList
    | .passed rest => p.toList = rest.toList
    | .nothing rest => p.toList = [] ∧ rest.toList = [] := by
  fun_cases look p with
  | case1 s more buffered => simp [toList, buffered, ofChoice_at p]
  | case2 choices buffered => simp [toList, choices, buffered]
  | case3 parameter later choices buffered s found =>
      simp [toList, choices, buffered, ofChoice_at p, ofChoice, found]
  | case4 parameter later choices buffered missed =>
      simp [toList, choices, buffered, ofChoice_at p, ofChoice, missed]
  | case5 items assignmentKey later choices buffered =>
      simp [toList, choices, buffered, ofChoice_at p, ofChoice]

theorem toList_next (p : Predictions σ) :
    p.next.1 = p.toList.head? ∧ p.next.2.toList = p.toList.tail := by
  have looked := toList_look p
  fun_induction next p with
  | case1 p s rest found =>
      simp only [found] at looked
      simp [looked]
  | case2 p rest passed ih =>
      simp only [passed] at looked
      rw [looked]
      exact ih (toList_look rest)
  | case3 p rest nothing =>
      simp only [nothing] at looked
      simp [looked]

theorem toList_after (n : Nat) (p : Predictions σ) : (p.after n).toList = p.toList.drop n := by
  induction n generalizing p with
  | zero => rfl
  | succ n ih => rw [after, ih, (toList_next p).2, List.drop_tail]

theorem advance_at (p : Predictions σ) (choices : List (Choice σ)) (buffered : List Suggestion)
    (later : List (Choice σ)) : advance { p with choices, buffered } later = p.advance later := by
  induction later with
  | nil => rfl
  | cons choice later ih => cases choice <;> simp only [advance, ih] <;> rfl

theorem next?_look (p : Predictions σ) :
    p.next? = match p.look with
      | .found s rest => some (s, rest)
      | .passed rest => rest.next?
      | .nothing _ => none := by
  fun_cases look p with
  | case1 s more buffered => simp [next?, buffered]
  | case2 choices buffered => simp [next?, choices, buffered, advance]
  | case3 parameter later choices buffered s found =>
      simp [next?, choices, buffered, advance, found]
  | case4 parameter later choices buffered missed =>
      simp [next?, choices, buffered, advance, missed, advance_at p]
  | case5 items assignmentKey later choices buffered =>
      simp only [next?, choices, buffered, advance, advance_at p]

theorem next?_eq_next (p : Predictions σ) : p.next? = p.next.1.map fun s => (s, p.next.2) := by
  have looked := next?_look p
  fun_induction next p with
  | case1 p s rest found => simpa only [found, Option.map_some] using looked
  | case2 p rest passed ih =>
      simp only [passed] at looked
      rw [looked]
      exact ih (next?_look rest)
  | case3 p rest nothing => simpa only [nothing, Option.map_none] using looked

theorem take_eq (n : Nat) (p : Predictions σ) : take n p = p.toList.take n := by
  induction n generalizing p with
  | zero => simp [take]
  | succ n ih =>
      obtain ⟨first, rest⟩ := toList_next p
      rw [take, next?_eq_next]
      cases list : p.toList with
      | nil => simp [first, list]
      | cons s more => simp [first, list, ih, rest]

/-! ## What each choice gives -/

/-- Whether a key is wanted: it matches what is typed, and begins with a dash where only such keys
are wanted. -/
structure Wants (p : Predictions σ) (key : String) : Prop where
  matching : p.mode.admits key p.typed.text = true
  dashed : p.typed.flagsOnly = true → key.toList.head? = some '-'

theorem admitsKey_iff {p : Predictions σ} {key : String} :
    p.admitsKey key = true ↔ p.Wants key := by
  rw [admitsKey, Bool.and_eq_true, Bool.or_eq_true, Bool.not_eq_true', beq_iff_eq]
  constructor
  · rintro ⟨dashed, matching⟩
    refine ⟨matching, fun only => dashed.resolve_left ?_⟩
    simp [only]
  · rintro ⟨matching, dashed⟩
    refine ⟨?_, matching⟩
    cases only : p.typed.flagsOnly with
    | true => exact .inr (dashed only)
    | false => exact .inl rfl

def suggestionOf (p : Predictions σ) (parameter : Parameter σ) (key : String) : Suggestion where
  text := p.lead ++ " " ++ Literal.write key p.typed.quote
  description := nonempty parameter.description
  kind := match parameter.kind with
    | .command => .command
    | _ => .flag

/-- The suggestions that a choice gives: for a parameter the one of its first wanted key, and for
values one for each item that matches, in their order. -/
inductive Gives (p : Predictions σ) : Choice σ → List Suggestion → Prop where
  | key {parameter : Parameter σ} {key : String} {before later : List String}
      (keys : parameter.keys = before ++ key :: later) (wanted : p.Wants key)
      (first : ∀ other ∈ before, ¬ p.Wants other) :
      Gives p (.key parameter) [p.suggestionOf parameter key]
  | noKey {parameter : Parameter σ} (unwanted : ∀ key ∈ parameter.keys, ¬ p.Wants key) :
      Gives p (.key parameter) []
  | values {items : List Item} {assignmentKey : Option String} :
      Gives p (.values items assignmentKey)
        ((items.filter fun item => p.mode.admits item.name p.typed.text).map
          (p.valueSuggestion assignmentKey))

theorem gives_ofChoice (p : Predictions σ) (choice : Choice σ) :
    p.Gives choice (p.ofChoice choice) := by
  cases choice with
  | values items assignmentKey => exact .values
  | key parameter =>
      rw [ofChoice, keySuggestion]
      cases found : parameter.keys.find? p.admitsKey with
      | none =>
          refine .noKey fun key member wanted => ?_
          exact List.find?_eq_none.mp found key member (admitsKey_iff.mpr wanted)
      | some key =>
          obtain ⟨wanted, before, later, keys, unwanted⟩ := List.find?_eq_some_iff_append.mp found
          refine .key keys (admitsKey_iff.mp wanted) fun other member wants => ?_
          have missed := unwanted other member
          rw [admitsKey_iff.mpr wants] at missed
          exact Bool.noConfusion missed

/-- The calls give, one after the other, the suggestions at hand and then those of the choices in
their order, and every further call gives none. The first suggestions are the first of that list. -/
theorem calls_give_listed (p : Predictions σ) :
    ∃ parts, List.Forall₂ p.Gives p.choices parts ∧
      p.toList = p.buffered ++ parts.flatten ∧
      (∀ n, (p.after n).next.1 = (p.buffered ++ parts.flatten)[n]?) ∧
      ∀ n, take n p = (p.buffered ++ parts.flatten).take n := by
  have listed : p.toList = p.buffered ++ (p.choices.map p.ofChoice).flatten := by
    rw [toList, List.flatMap_def]
  refine ⟨p.choices.map p.ofChoice, ?_, listed, fun n => ?_, fun n => ?_⟩
  · rw [List.forall₂_map_right_iff, List.forall₂_same]
    exact fun choice _ => gives_ofChoice p choice
  · rw [(toList_next _).1, toList_after, List.head?_drop, listed]
  · rw [take_eq, listed]

end Predictions

end LineCompletion

import Mathlib.Data.List.Nodup
import LineCompletion.Proofs.Line.Literals
import LineCompletion.Proofs.Suggest.ConsumedWord
import LineCompletion.Proofs.Suggest.Selection

/-! # How often a key is offered

Each open scope of a checked dictionary offers a key at most once. The innermost scope offers its
free parameters and its recursive ones, every other scope its recursive ones only, and nobody
compares what two scopes offer. So a key is offered once for each scope that offers it, and twice
where a recursive parameter has a key that a scope further in offers as well.
-/

namespace LineCompletion

variable {σ : Type}

/-! ## The suggestions of keys -/

theorem Literal.write_injective (quote : Quote) :
    Function.Injective fun text => write text quote := by
  intro a b same
  calc a = (Token.parse (write a quote)).text := (parse_write a quote).1.symm
    _ = (Token.parse (write b quote)).text := congrArg (fun word => (Token.parse word).text) same
    _ = b := (parse_write b quote).1

def Suggestion.isOfKey (s : Suggestion) : Bool :=
  match s.kind with
  | .command | .flag => true
  | .value => false

def Candidate.keyed? : Candidate σ → Option (Parameter σ)
  | .key p => some p
  | .values _ _ => none

def Choice.keyed? : Choice σ → Option (Parameter σ)
  | .key p => some p
  | .values _ _ => none

theorem Choice.keyed?_resolve (items : Parameter σ → List Item) (c : Candidate σ) :
    (c.resolve items).keyed? = c.keyed? := by
  cases c with
  | key p => rfl
  | values p key => rfl

namespace Predictions

variable (p : Predictions σ)

def wantedKey? (q : Parameter σ) : Option String :=
  q.keys.find? p.admitsKey

def lineOf (key : String) : String :=
  p.lead ++ " " ++ Literal.write key p.typed.quote

def keyTexts : List String :=
  (p.toList.filter Suggestion.isOfKey).map (·.text)

theorem lineOf_injective : Function.Injective p.lineOf := by
  intro a b same
  apply Literal.write_injective p.typed.quote
  have tails := congrArg String.toList same
  simp only [lineOf, String.toList_append, List.append_cancel_left_eq] at tails
  exact String.toList_injective tails

theorem disjoint_texts_iff {p : Predictions σ} {inner outer : List (Parameter σ)} :
    List.Disjoint (inner.filterMap fun q => (p.wantedKey? q).map p.lineOf)
        (outer.filterMap fun q => (p.wantedKey? q).map p.lineOf) ↔
      ∀ a ∈ inner, ∀ b ∈ outer,
        ∀ key, p.wantedKey? a = some key → p.wantedKey? b ≠ some key := by
  constructor
  · intro disjoint a left b right key own other
    apply disjoint (a := p.lineOf key)
    · exact List.mem_filterMap.mpr ⟨a, left, by simp [own]⟩
    · exact List.mem_filterMap.mpr ⟨b, right, by simp [other]⟩
  · intro differ text left right
    obtain ⟨a, inside, own⟩ := List.mem_filterMap.mp left
    obtain ⟨b, outside, other⟩ := List.mem_filterMap.mp right
    obtain ⟨key, wanted, rfl⟩ := Option.map_eq_some_iff.mp own
    obtain ⟨key', wanted', same⟩ := Option.map_eq_some_iff.mp other
    obtain rfl := p.lineOf_injective same
    exact differ a inside b outside key' wanted wanted'

theorem keyTexts_ofChoice (choice : Choice σ) :
    ((p.ofChoice choice).filter Suggestion.isOfKey).map (·.text) =
      ((choice.keyed?.bind p.wantedKey?).map p.lineOf).toList := by
  cases choice with
  | values items key =>
      have others : ∀ s ∈ p.valueSuggestions items key, ¬ s.isOfKey = true := by
        intro s member
        obtain ⟨item, _, rfl⟩ := List.mem_map.mp member
        exact Bool.false_ne_true
      rw [ofChoice, List.filter_eq_nil_iff.mpr others]
      rfl
  | key q =>
      simp only [ofChoice, keySuggestion, Choice.keyed?, Option.bind_some, wantedKey?]
      cases q.keys.find? p.admitsKey with
      | none => rfl
      | some key =>
          cases kind : q.kind with
          | command | flag | value => rfl

theorem keyTexts_eq {p : Predictions σ} (fresh : p.buffered = []) :
    p.keyTexts = p.choices.filterMap fun c => (c.keyed?.bind p.wantedKey?).map p.lineOf := by
  rw [keyTexts, toList, fresh, List.nil_append]
  induction p.choices with
  | nil => rfl
  | cons c rest ih =>
      rw [List.flatMap_cons, List.filter_append, List.map_append, keyTexts_ofChoice, ih,
        List.filterMap_cons]
      cases (c.keyed?.bind p.wantedKey?).map p.lineOf with
      | none => rfl
      | some text => rfl

end Predictions

/-! ## What each scope offers -/

namespace Frame

/-- The parameters that are offered only while the frame is the innermost one. -/
def free (f : Frame σ) : List (Parameter σ) :=
  (f.filter fun s => !s.parameter.recursive && !s.used).map Slot.parameter

/-- The parameters that are offered from every frame above. -/
def lasting (f : Frame σ) : List (Parameter σ) :=
  (f.filter fun s => s.parameter.recursive).map Slot.parameter

end Frame

namespace Walk

/-- The parameters that each open frame offers, innermost first; none while a key waits for its
value. -/
def offeredScopes (w : Walk σ) : List (List (Parameter σ)) :=
  match w.pending, w.frames with
  | none, f :: rest => (f.free ++ f.lasting) :: rest.map Frame.lasting
  | _, _ => []

section Wanted

variable {β : Type} {wanted : Parameter σ → Option β} (keyless : ∀ q, q.keys = [] → wanted q = none)

include keyless

theorem wanted_freeCandidates (flagsOnly : Bool) (f : Frame σ) :
    (f.flatMap (freeCandidate flagsOnly)).filterMap (fun c => c.keyed?.bind wanted) =
      f.free.filterMap wanted := by
  induction f with
  | nil => rfl
  | cons s rest ih =>
      have one : (freeCandidate flagsOnly s).filterMap (fun c => c.keyed?.bind wanted) =
          ([s].filter fun s => !s.parameter.recursive && !s.used).filterMap
            fun s => wanted s.parameter := by
        unfold freeCandidate
        cases recursive : s.parameter.recursive with
        | true => simp [recursive]
        | false =>
            cases used : s.used with
            | true => simp [recursive, used]
            | false =>
                cases positional : s.parameter.isPositional with
                | false => simp [recursive, used, List.filterMap_cons, Candidate.keyed?]
                | true =>
                    have empty : s.parameter.keys = [] := by
                      rw [Parameter.isPositional, Bool.and_eq_true] at positional
                      exact List.isEmpty_iff.mp positional.2
                    cases flagsOnly <;> simp [recursive, used, Candidate.keyed?, keyless _ empty]
      rw [List.flatMap_cons, List.filterMap_append, one, ih, Frame.free, Frame.free,
        List.filterMap_map, List.filterMap_map, ← List.singleton_append (l := rest),
        List.filter_append, List.filterMap_append]
      rfl

theorem wanted_recursiveCandidates (f : Frame σ) :
    (recursiveCandidates f).filterMap (fun c => c.keyed?.bind wanted) =
      f.lasting.filterMap wanted := by
  induction f with
  | nil => rfl
  | cons s rest ih =>
      simp only [recursiveCandidates, Frame.lasting, List.filter_cons] at ih ⊢
      cases recursive : s.parameter.recursive with
      | false => simpa [recursive] using ih
      | true =>
          cases keys : s.parameter.keys with
          | nil => simpa [keyless _ keys] using ih
          | cons key more =>
              have own : (Candidate.key s.parameter).keyed?.bind wanted = wanted s.parameter := rfl
              simp only [List.isEmpty_cons, Bool.not_false, Bool.and_self, if_true, List.map_cons,
                List.filterMap_cons, own, ih]

/-- The candidates list scope by scope what is offered by keys. -/
theorem wanted_enumerate (w : Walk σ) (flagsOnly : Bool) :
    (w.enumerate flagsOnly).filterMap (fun c => c.keyed?.bind wanted) =
      w.offeredScopes.flatten.filterMap wanted := by
  unfold enumerate offeredScopes
  cases w.pending with
  | some p => rfl
  | none =>
      cases w.frames with
      | nil => rfl
      | cons f rest =>
          have outer :
              (rest.flatMap recursiveCandidates).filterMap (fun c => c.keyed?.bind wanted) =
                (rest.map Frame.lasting).flatten.filterMap wanted := by
            induction rest with
            | nil => rfl
            | cons g rest ih =>
                rw [List.flatMap_cons, List.filterMap_append, wanted_recursiveCandidates keyless,
                  ih, List.map_cons, List.flatten_cons, List.filterMap_append]
          simp only [List.head?_cons, Option.getD_some, List.flatMap_cons, List.filterMap_append,
            wanted_freeCandidates keyless, wanted_recursiveCandidates keyless, outer,
            List.flatten_cons, List.append_assoc]

end Wanted

theorem nodup_wanted (wanted : String → Bool) {ps : List (Parameter σ)}
    (distinct : Validation.DistinctKeys ps) :
    (ps.filterMap fun q => q.keys.find? wanted).Nodup := by
  have keys : (ps.flatMap Parameter.keys).Nodup := List.Nodup.of_map _ distinct
  apply List.Nodup.sublist ?_ keys
  clear distinct keys
  induction ps with
  | nil => exact List.Sublist.refl _
  | cons q rest ih =>
      rw [List.filterMap_cons, List.flatMap_cons]
      cases found : q.keys.find? wanted with
      | none => exact ih.trans (List.sublist_append_right _ _)
      | some key =>
          have own : [key].Sublist q.keys :=
            List.singleton_sublist.mpr (List.mem_of_find?_eq_some found)
          exact own.append ih

theorem nodup_wanted_frame (wanted : String → Bool) {f : Frame σ}
    (distinct : Validation.DistinctKeys (f.map Slot.parameter)) :
    ((f.free ++ f.lasting).filterMap fun q => q.keys.find? wanted).Nodup := by
  have whole := nodup_wanted wanted distinct
  rw [List.filterMap_map] at whole
  rw [Frame.free, Frame.lasting, ← List.map_append, List.filterMap_map]
  -- the free slots are some of those that are not recursive, and the recursive ones are the others
  have parts : (f.filter (fun s => !s.parameter.recursive) ++
      f.filter (fun s => s.parameter.recursive)).Perm f := by
    have split := List.filter_append_perm (fun s : Slot σ => s.parameter.recursive) f
    exact List.perm_append_comm.trans split
  have fewer : (f.filter fun s => !s.parameter.recursive && !s.used).Sublist
      (f.filter fun s => !s.parameter.recursive) := by
    apply List.monotone_filter_right
    intro s free
    exact (Bool.and_eq_true _ _ |>.mp free).1
  have all := (parts.filterMap _).nodup_iff.mpr whole
  exact List.Nodup.sublist ((fewer.append (List.Sublist.refl _)).filterMap _) all

theorem Clear.nodup_offered {w : Walk σ} (clear : w.Clear) (wanted : String → Bool) :
    ∀ ps ∈ w.offeredScopes, (ps.filterMap fun q => q.keys.find? wanted).Nodup := by
  have distinct : ∀ f ∈ w.frames, Validation.DistinctKeys (f.map Slot.parameter) := by
    intro f member
    exact (clear.scopes _ (List.mem_map_of_mem member)).here
  intro ps member
  unfold offeredScopes at member
  split at member
  · rename_i f rest _ frames
    rw [frames] at distinct
    rcases List.mem_cons.mp member with rfl | outer
    · exact nodup_wanted_frame wanted (distinct f (by simp))
    · obtain ⟨g, inside, rfl⟩ := List.mem_map.mp outer
      have all := nodup_wanted_frame wanted (distinct g (List.mem_cons_of_mem f inside))
      rw [List.filterMap_append] at all
      exact (List.nodup_append.mp all).2.1
  · simp at member

theorem recursive_of_mem_tail (w : Walk σ) :
    ∀ ps ∈ w.offeredScopes.tail, ∀ q ∈ ps, q.recursive = true := by
  intro ps outer q member
  unfold offeredScopes at outer
  split at outer
  · obtain ⟨f, _, rfl⟩ := List.mem_map.mp outer
    obtain ⟨s, slot, rfl⟩ := List.mem_map.mp member
    exact (List.mem_filter.mp slot).2
  · simp at outer

end Walk

/-! ## Suggestions for a line -/

namespace Dictionary

/-- The parameters that each open scope offers for the word under the cursor, innermost first. -/
def offeredScopes (d : Dictionary σ) (line : TokenLine) : List (List (Parameter σ)) :=
  match line.tokens with
  | [] => []
  | command :: rest =>
    if d.matchesKey command.text then
      match splitCursor rest line.trailingSpace with
      | (completed, none) => (d.walk completed).offeredScopes
      | (completed, some token) =>
        match (d.walk completed).complete token with
        | .consumed w => w.offeredScopes
        | .filter _ => (d.walk completed).offeredScopes
        | .values .. => []
    else []

theorem nodup_offeredScopes {d : Dictionary σ} (valid : d.validate = .ok ()) (line : TokenLine)
    (wanted : String → Bool) :
    ∀ ps ∈ d.offeredScopes line, (ps.filterMap fun q => q.keys.find? wanted).Nodup := by
  unfold offeredScopes
  split
  · simp
  · split
    · split
      · rename_i completed _
        exact (walk_clear valid completed).nodup_offered wanted
      · rename_i completed token _
        have clear := walk_clear valid completed
        split
        · rename_i w complete
          have next := clear.consume token
          rw [Walk.consume_of_complete complete] at next
          exact next.nodup_offered wanted
        · exact clear.nodup_offered wanted
        · simp
    · simp

/-- The suggestions for a line come from the candidates of a walk, or none of them is a key. -/
theorem choices_predictWith (d : Dictionary σ) (mode : MatchMode) (items : Parameter σ → List Item)
    (line : TokenLine) :
    let p := d.predictWith mode items line
    p.buffered = [] ∧
      ((p.choices.filterMap Choice.keyed? = [] ∧ d.offeredScopes line = []) ∨
        ∃ w : Walk σ, ∃ flagsOnly,
          p.choices = (w.enumerate flagsOnly).map (Candidate.resolve items) ∧
            d.offeredScopes line = w.offeredScopes) := by
  obtain ⟨tokens, trailing⟩ := line
  cases tokens with
  | nil => exact ⟨rfl, .inl ⟨rfl, rfl⟩⟩
  | cons command rest =>
      by_cases handles : d.matchesKey command.text = true
      · cases cursor : splitCursor rest trailing with
        | mk completed current =>
            cases current with
            | none =>
                simp only [predictWith, offeredScopes, handles, cursor]
                exact ⟨rfl, .inr ⟨_, _, rfl, rfl⟩⟩
            | some token =>
                cases complete : (completed.foldl Walk.consume (Walk.start d.parameters)).complete
                    token with
                | consumed w =>
                    simp only [predictWith, offeredScopes, walk, handles, cursor, complete]
                    exact ⟨rfl, .inr ⟨_, _, rfl, rfl⟩⟩
                | filter typed =>
                    simp only [predictWith, offeredScopes, walk, handles, cursor, complete]
                    exact ⟨rfl, .inr ⟨_, _, rfl, rfl⟩⟩
                | values q key typed =>
                    simp only [predictWith, offeredScopes, walk, handles, cursor, complete]
                    exact ⟨rfl, .inl ⟨rfl, rfl⟩⟩
      · simp only [predictWith, offeredScopes, handles]
        exact ⟨rfl, .inl ⟨rfl, rfl⟩⟩

/-- The keys that are suggested for a line are those that its open scopes offer. -/
theorem keyTexts_predictWith (d : Dictionary σ) (mode : MatchMode) (items : Parameter σ → List Item)
    (line : TokenLine) :
    let p := d.predictWith mode items line
    p.keyTexts =
      (d.offeredScopes line).flatten.filterMap fun q => (p.wantedKey? q).map p.lineOf := by
  intro p
  obtain ⟨fresh, from?⟩ := choices_predictWith d mode items line
  have keyless : ∀ q : Parameter σ, q.keys = [] → (p.wantedKey? q).map p.lineOf = none := by
    intro q empty
    simp [Predictions.wantedKey?, empty]
  have moved (k : Option (Parameter σ)) :
      (k.bind p.wantedKey?).map p.lineOf = k.bind fun q => (p.wantedKey? q).map p.lineOf := by
    cases k <;> rfl
  rw [Predictions.keyTexts_eq fresh]
  rcases from? with ⟨nothing, closed⟩ | ⟨w, flagsOnly, choices, open?⟩
  · rw [closed]
    have none : ∀ c ∈ p.choices, c.keyed? = none := List.filterMap_eq_nil_iff.mp nothing
    apply List.filterMap_eq_nil_iff.mpr
    intro c member
    rw [none c member]
    rfl
  · rw [open?, ← Walk.wanted_enumerate keyless w flagsOnly, choices, List.filterMap_map]
    congr 1
    funext c
    rw [Function.comp_apply, Choice.keyed?_resolve, moved]

end Dictionary

theorem count_flatten_of_nodup {α : Type} [DecidableEq α] {ls : List (List α)}
    (each : ∀ l ∈ ls, l.Nodup) (a : α) :
    ls.flatten.count a = ls.countP fun l => decide (a ∈ l) := by
  induction ls with
  | nil => rfl
  | cons l rest ih =>
      have later := ih fun l member => each l (List.mem_cons_of_mem _ member)
      rw [List.flatten_cons, List.count_append, later, List.countP_cons,
        List.Nodup.count (each l (by simp)), Nat.add_comm]
      simp

namespace Suggestor

/-- In a checked dictionary a key is suggested once for each open scope that offers it, and every
scope but the innermost offers recursive parameters only. So no two suggestions of keys are alike
exactly where no two scopes offer one key. -/
theorem keys_offered_once_each_scope (s : Suggestor) (valid : s.dictionary.validate = .ok ())
    (caches : Caches) (clock : Clock) (request : Request) :
    let p := s.predict caches clock request
    let scopes := s.dictionary.offeredScopes request.line
    (∀ text, p.keyTexts.count text =
        scopes.countP fun ps => ps.any fun q => (p.wantedKey? q).map p.lineOf == some text) ∧
      (∀ ps ∈ scopes.tail, ∀ q ∈ ps, q.recursive = true) ∧
      (p.keyTexts.Nodup ↔ scopes.Pairwise fun inner outer => ∀ a ∈ inner, ∀ b ∈ outer,
        ∀ key, p.wantedKey? a = some key → p.wantedKey? b ≠ some key) := by
  intro p scopes
  have texts : p.keyTexts =
      (scopes.map fun ps => ps.filterMap fun q => (p.wantedKey? q).map p.lineOf).flatten := by
    rw [← List.filterMap_flatten]
    exact Dictionary.keyTexts_predictWith s.dictionary s.options.mode _ request.line
  have each : ∀ l ∈ scopes.map fun ps => ps.filterMap fun q => (p.wantedKey? q).map p.lineOf,
      l.Nodup := by
    intro l member
    obtain ⟨ps, inside, rfl⟩ := List.mem_map.mp member
    have keys := Dictionary.nodup_offeredScopes valid request.line p.admitsKey ps inside
    rw [← List.map_filterMap]
    exact keys.map p.lineOf_injective
  refine ⟨?_, ?_, ?_⟩
  · intro text
    rw [texts, count_flatten_of_nodup each, List.countP_map]
    congr 1
    funext ps
    rw [Function.comp_apply, Bool.eq_iff_iff, decide_eq_true_iff, List.mem_filterMap,
      List.any_eq_true]
    simp only [beq_iff_eq]
  · obtain ⟨_, ⟨_, closed⟩ | ⟨w, _, _, opened⟩⟩ := s.dictionary.choices_predictWith s.options.mode
      (s.itemsOf caches clock request.directory) request.line
    · simp [scopes, closed]
    · intro ps outer
      exact w.recursive_of_mem_tail ps (opened ▸ outer)
  · simp only [texts, List.nodup_flatten, List.pairwise_map, Predictions.disjoint_texts_iff]
    exact and_iff_right each

/-- A command with a help flag for every depth, and a subcommand with one of its own. -/
def withOwnHelp : Suggestor where
  dictionary :=
    ((Dictionary.ofCommand "git").withParameter
      (.withParameter (.flag ["--help"] "Help") (.command "commit"))).withParameter
        (Parameter.flag ["--help"] "Help").markRecursive

def commitLine : TokenLine where
  tokens := [.parse "git", .parse "commit"]
  trailingSpace := true

theorem keys_offered_once_each_scope_ownHelp :
    withOwnHelp.dictionary.validate = .ok () ∧
      (withOwnHelp.predict {} (fun _ => 0) { line := commitLine }).keyTexts.count
        "git commit --help" = 2 := by
  have valid : withOwnHelp.dictionary.validate = .ok () := by rfl
  obtain ⟨counted, _, _⟩ := keys_offered_once_each_scope withOwnHelp valid {} (fun _ => 0)
    { line := commitLine }
  refine ⟨valid, ?_⟩
  rw [counted]
  rfl

/-- Both help flags are offered below the subcommand, as the same line. -/
theorem key_offered_twice :
    ¬ ∀ s : Suggestor, s.dictionary.validate = .ok () → ∀ caches clock request,
      (s.predict caches clock request).keyTexts.Nodup := by
  intro every
  have distinct := every withOwnHelp (by rfl) {} (fun _ => 0) { line := commitLine }
  have both : (withOwnHelp.predict {} (fun _ => 0) { line := commitLine }).keyTexts =
      ["git commit --help", "git commit --help"] := by rfl
  rw [both] at distinct
  simp at distinct

end Suggestor

end LineCompletion

import Mathlib.Data.List.Induction
import LineCompletion.Proofs.Source.Refreshing

/-! # The last results of a source

A source is refreshed again and again, for one working directory and another, and its command gives
values or fails. Where nobody else writes to its cache, what is read for a directory is what the
last refresh of the same scope gave that gave anything.
-/

namespace LineCompletion

namespace LiveSource

/-- A refresh for a working directory, with how the command ends and when. -/
structure Call where
  directory : Option String
  outcome : Outcome
  clock : Clock

/-- What a refresh adds to the cache, and for which scope. -/
def Call.gives? (policy : CachePolicy) (c : Call) : Option (Scope × List Item) :=
  match policy.scope? c.directory, c.outcome with
  | some scope, .items items => some (scope, items)
  | _, _ => none

/-- How many refreshes add something. -/
def publications (policy : CachePolicy) (calls : List Call) : Nat :=
  calls.countP fun c => (c.gives? policy).isSome

/-- The caches after a refresh while nobody else writes to them. -/
def refreshAlone (s : LiveSource) (caches : Caches) (c : Call) : Caches :=
  (s.refresh caches c.directory { outcome := c.outcome, changes := [], clock := c.clock }).2

def refreshAll (s : LiveSource) (caches : Caches) (calls : List Call) : Caches :=
  calls.foldl s.refreshAlone caches

/-- The entry that the last refresh brings which adds something for a scope. -/
def Latest (policy : CachePolicy) (context : ContextId) (scope : Scope) (calls : List Call)
    (e : Entry) : Prop :=
  ∃ early c late items, calls = early ++ c :: late ∧ c.gives? policy = some (scope, items) ∧
    (∀ d ∈ late, ∀ others, d.gives? policy ≠ some (scope, others)) ∧
    e = ⟨items, c.clock context, publications policy (early ++ [c])⟩

section Latest

variable {policy : CachePolicy} {context : ContextId} {scope : Scope} {calls : List Call}
  {c : Call} {e : Entry}

theorem publications_concat (calls : List Call) (c : Call) :
    publications policy (calls ++ [c]) =
      publications policy calls + if (c.gives? policy).isSome then 1 else 0 := by
  simp only [publications, List.countP_append, List.countP_singleton]

theorem publications_le_length (calls : List Call) :
    publications policy calls ≤ calls.length :=
  List.countP_le_length

theorem Latest.generation_le (latest : Latest policy context scope calls e) :
    e.generation ≤ calls.length := by
  obtain ⟨early, c, late, items, rfl, -, -, rfl⟩ := latest
  calc publications policy (early ++ [c])
      ≤ (early ++ [c]).length := publications_le_length _
    _ ≤ (early ++ c :: late).length := by simp

theorem not_latest_nil : ¬ Latest policy context scope [] e := by
  rintro ⟨early, c, late, items, split, -⟩
  simp at split

theorem latest_concat :
    Latest policy context scope (calls ++ [c]) e ↔
      (∃ items, c.gives? policy = some (scope, items) ∧
          e = ⟨items, c.clock context, publications policy (calls ++ [c])⟩) ∨
        (∀ others, c.gives? policy ≠ some (scope, others)) ∧
          Latest policy context scope calls e := by
  constructor
  · rintro ⟨early, d, late, items, split, gave, last, entry⟩
    cases late using List.reverseRecOn with
    | nil =>
        obtain ⟨rfl, same⟩ := List.append_inj' split rfl
        obtain rfl : c = d := by simpa using same
        exact .inl ⟨items, gave, entry⟩
    | append_singleton late final =>
        have parts : calls ++ [c] = (early ++ d :: late) ++ [final] := by simp [split]
        obtain ⟨before, same⟩ := List.append_inj' parts rfl
        obtain rfl : c = final := by simpa using same
        exact .inr ⟨last c (by simp), early, d, late, items, before, gave,
          fun other member => last other (List.mem_append_left _ member), entry⟩
  · rintro (⟨items, gave, entry⟩ | ⟨other, early, d, late, items, split, gave, last, entry⟩)
    · exact ⟨calls, c, [], items, rfl, gave, by simp, entry⟩
    · refine ⟨early, d, late ++ [c], items, by simp [split], gave, ?_, entry⟩
      intro later member
      rcases List.mem_append.mp member with before | final
      · exact last later before
      · obtain rfl := List.mem_singleton.mp final
        exact other

theorem exists_latest_iff :
    (∃ e, Latest policy context scope calls e) ↔
      ∃ c ∈ calls, ∃ items, c.gives? policy = some (scope, items) := by
  induction calls using List.reverseRecOn with
  | nil => simp [not_latest_nil]
  | append_singleton calls c ih =>
      simp only [latest_concat, List.mem_append, List.mem_singleton]
      constructor
      · rintro ⟨e, ⟨items, gave, -⟩ | ⟨-, latest⟩⟩
        · exact ⟨c, .inr rfl, items, gave⟩
        · obtain ⟨d, member, gave⟩ := ih.mp ⟨e, latest⟩
          exact ⟨d, .inl member, gave⟩
      · rintro ⟨d, member, items, gave⟩
        by_cases here : ∃ others, c.gives? policy = some (scope, others)
        · obtain ⟨others, gives⟩ := here
          exact ⟨_, .inl ⟨others, gives, rfl⟩⟩
        · have other : ∀ others, c.gives? policy ≠ some (scope, others) := not_exists.mp here
          rcases member with before | rfl
          · obtain ⟨e, latest⟩ := ih.mpr ⟨d, before, items, gave⟩
            exact ⟨e, .inr ⟨other, latest⟩⟩
          · exact absurd gave (other items)

end Latest

section Refreshes

variable {s : LiveSource} {context : ContextId} {caches : Caches} {c : Call}

theorem met_of_alone {directory : Option String} {x : CommandRun} (alone : x.changes = []) :
    s.met caches directory x = caches := by
  unfold met
  split
  · exact Caches.modify_eq_self (by rw [alone]; rfl)
  · rfl

theorem refreshAlone_of_gives?_eq_none (nothing : c.gives? s.policy = none) :
    s.refreshAlone caches c = caches := by
  rcases refresh_cases s caches c.directory ⟨c.outcome, [], c.clock⟩ with
    ⟨-, same⟩ | ⟨_, scope, items, done, -⟩
  · exact same.trans (met_of_alone rfl)
  · simp [Call.gives?, done.belongs, show c.outcome = .items items from done.gave] at nothing

theorem publishes_refreshAlone (dynamic : s.isDynamic = true) (bound : s.context = some context)
    {scope : Scope} {items : List Item} (gives : c.gives? s.policy = some (scope, items)) :
    (caches.get s.cell).Publishes ((s.refreshAlone caches c).get s.cell) scope items
      (c.clock context) := by
  have parts : s.policy.scope? c.directory = some scope ∧ c.outcome = .items items := by
    unfold Call.gives? at gives
    split at gives
    · rename_i own values belongs gave
      obtain ⟨rfl, rfl⟩ := Prod.mk.inj (Option.some.inj gives)
      exact ⟨belongs, gave⟩
    · simp at gives
  obtain ⟨belongs, gave⟩ := parts
  have completes : s.Completes caches c.directory ⟨c.outcome, [], c.clock⟩ context scope items :=
    ⟨dynamic, bound, belongs, gave, rfl⟩
  rcases refresh_cases s caches c.directory ⟨c.outcome, [], c.clock⟩ with
    ⟨never, -⟩ | ⟨own, other, values, done, -, published⟩
  · exact absurd completes (never context scope items)
  · obtain rfl := Option.some.inj (bound.symm.trans done.bound)
    obtain rfl := Option.some.inj (belongs.symm.trans done.belongs)
    obtain rfl := Outcome.items.inj (gave.symm.trans done.gave)
    rwa [met_of_alone rfl] at published

/-- What a cache holds that was empty before some refreshes of its source. -/
structure Remembers (policy : CachePolicy) (context : ContextId) (calls : List Call)
    (cache : Cache) : Prop where
  generation : cache.generation = publications policy calls
  entries : ∀ scope e, cache.get? scope = some e ↔ Latest policy context scope calls e

theorem Remembers.step {calls : List Call} (dynamic : s.isDynamic = true)
    (bound : s.context = some context)
    (before : Remembers s.policy context calls (caches.get s.cell)) (c : Call) :
    Remembers s.policy context (calls ++ [c]) ((s.refreshAlone caches c).get s.cell) := by
  cases gives : c.gives? s.policy with
  | none =>
      rw [refreshAlone_of_gives?_eq_none gives]
      refine ⟨by simp [publications_concat, gives, before.generation], fun scope e => ?_⟩
      simp [latest_concat, gives, before.entries]
  | some given =>
      obtain ⟨own, items⟩ := given
      have published : (caches.get s.cell).Publishes ((s.refreshAlone caches c).get s.cell) own
          items (c.clock context) := publishes_refreshAlone dynamic bound gives
      have count : publications s.policy (calls ++ [c]) = (caches.get s.cell).generation + 1 := by
        simp [publications_concat, gives, before.generation]
      refine ⟨published.generation.trans count.symm, fun scope e => ?_⟩
      rw [published.entries, latest_concat, count, gives]
      by_cases here : scope = own
      · subst here
        simp [eq_comm]
      · simp [here, Ne.symm here, before.entries]

theorem remembers_refreshAll (dynamic : s.isDynamic = true) (bound : s.context = some context)
    (empty : (caches.get s.cell).snapshot = {}) (calls : List Call) :
    Remembers s.policy context calls ((s.refreshAll caches calls).get s.cell) := by
  -- from the end: a refresh goes on with what the refreshes before it left
  induction calls using List.reverseRecOn with
  | nil =>
      refine ⟨by simp [refreshAll, Cache.generation, empty, publications], fun scope e => ?_⟩
      simp [refreshAll, Cache.get?, Snapshot.get?, empty, not_latest_nil]
  | append_singleton calls c ih =>
      simp only [refreshAll, List.foldl_append, List.foldl_cons, List.foldl_nil] at ih ⊢
      exact ih.step dynamic bound c

theorem cached?_of_other_directory (each : s.policy.perDirectory = true)
    {directory : Option String} (other : c.directory ≠ directory) :
    s.cached? (s.refreshAlone caches c) directory = s.cached? caches directory := by
  rcases refresh_cases s caches c.directory ⟨c.outcome, [], c.clock⟩ with
    ⟨-, same⟩ | ⟨_, scope, items, done, -, published⟩
  · rw [refreshAlone, same, met_of_alone rfl]
  · rw [met_of_alone rfl] at published
    cases directory with
    | none => simp [cached?, CachePolicy.scope?, each]
    | some path =>
        have belongs := done.belongs
        have apart : Scope.directory path ≠ scope := by
          rintro rfl
          simp [CachePolicy.scope?, each] at belongs
          exact other belongs
        simp [cached?, CachePolicy.scope?, each, refreshAlone, published.entries, apart]

end Refreshes

/-- What is read for a working directory is what the last refresh gave that gave values for the same
scope, with the time of that refresh and the number of publications up to it; nothing is read where
there is none or the directory has no scope. Where values belong to directories, no refresh for
another directory changes what is read. Each generation is at most the number of refreshes, so it
takes more than 64 bits only after as many refreshes. -/
theorem cached?_eq_last_result {s : LiveSource} {context : ContextId} {caches : Caches}
    (dynamic : s.isDynamic = true) (bound : s.context = some context)
    (empty : (caches.get s.cell).snapshot = {}) (calls : List Call) (directory : Option String) :
    let after := s.refreshAll caches calls
    (∀ e, s.cached? after directory = some e ↔
        ∃ scope, s.policy.scope? directory = some scope ∧
          Latest s.policy context scope calls e) ∧
      (s.cached? after directory = none ↔
        ∀ scope, s.policy.scope? directory = some scope →
          ∀ c ∈ calls, ∀ items, c.gives? s.policy ≠ some (scope, items)) ∧
      (after.get s.cell).generation = publications s.policy calls ∧
      (s.policy.perDirectory = true → ∀ (caches : Caches) (c : Call), c.directory ≠ directory →
        s.cached? (s.refreshAlone caches c) directory = s.cached? caches directory) ∧
      (calls.length < UInt64.size → (after.get s.cell).generation < UInt64.size ∧
        ∀ e, s.cached? after directory = some e → e.generation < UInt64.size) := by
  intro after
  have remembers := remembers_refreshAll dynamic bound empty calls
  have read : ∀ e, s.cached? after directory = some e ↔
      ∃ scope, s.policy.scope? directory = some scope ∧
        Latest s.policy context scope calls e := by
    intro e
    simp only [cached?, Option.bind_eq_some_iff]
    exact exists_congr fun scope => and_congr_right fun _ => remembers.entries scope e
  refine ⟨read, ?_, remembers.generation,
    fun each _ _ other => cached?_of_other_directory each other, fun few => ⟨?_, ?_⟩⟩
  · rw [Option.eq_none_iff_forall_ne_some]
    constructor
    · intro none scope belongs c member items gave
      obtain ⟨e, latest⟩ := exists_latest_iff.mpr ⟨c, member, items, gave⟩
      exact none e ((read e).mpr ⟨scope, belongs, latest⟩)
    · intro never e found
      obtain ⟨scope, belongs, latest⟩ := (read e).mp found
      obtain ⟨c, member, items, gave⟩ := exists_latest_iff.mp ⟨e, latest⟩
      exact never scope belongs c member items gave
  · rw [remembers.generation]
    exact Nat.lt_of_le_of_lt (publications_le_length calls) few
  · intro e found
    obtain ⟨scope, -, latest⟩ := (read e).mp found
    exact Nat.lt_of_le_of_lt latest.generation_le few

/-- A source that lists the files of a directory, in use. -/
def ofFiles : LiveSource :=
  { name := "Files", provider := .dynamic "ls", policy := { perDirectory := true }, cell := 0,
    context := some 0 }

/-- It is refreshed in one directory, then in another, without one, and in the first one again,
where its command fails. -/
def fileCalls : List Call :=
  [⟨some "/a", .items [{ name := "x" }], fun _ => 1⟩,
    ⟨some "/b", .items [{ name := "y" }], fun _ => 2⟩,
    ⟨none, .items [{ name := "z" }], fun _ => 3⟩, ⟨some "/a", .failed "exit 1", fun _ => 4⟩]

theorem cached?_eq_last_result_files :
    ofFiles.isDynamic = true ∧ ofFiles.context = some 0 ∧
      (({} : Caches).get ofFiles.cell).snapshot = {} ∧
      ofFiles.cached? (ofFiles.refreshAll {} fileCalls) (some "/b") =
        some ⟨[{ name := "y" }], 2, 2⟩ ∧
      ofFiles.cached? (ofFiles.refreshAll {} fileCalls) none = none := by
  have here := @cached?_eq_last_result ofFiles 0 {} rfl rfl rfl fileCalls (some "/b")
  have nowhere := @cached?_eq_last_result ofFiles 0 {} rfl rfl rfl fileCalls none
  refine ⟨rfl, rfl, rfl, (here.1 _).mpr ⟨.directory "/b", rfl, fileCalls.take 1, _,
    fileCalls.drop 2, _, rfl, rfl, ?_, rfl⟩, nowhere.2.1.mpr ?_⟩
  · intro later member
    simp [fileCalls] at member
    rcases member with rfl | rfl <;> simp [Call.gives?, ofFiles, CachePolicy.scope?]
  · intro scope belongs
    simp [ofFiles, CachePolicy.scope?] at belongs

end LiveSource

end LineCompletion

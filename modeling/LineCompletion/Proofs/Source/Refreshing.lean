import LineCompletion.Proofs.Engine.Moves
import LineCompletion.Proofs.Source.Publications

/-! # Refreshes while others write

The command of a source may run for long, and others publish in the cache of the source or drop its
entries meanwhile. Each of these changes raises the generation, so the values of the command are
published exactly where none of them was made.
-/

namespace LineCompletion

namespace Cache

/-- What others try to do to a cache. -/
inductive Change where
  | publish (p : Publication)
  | clear

def change (c : Cache) : Change → Bool × Cache
  | .publish p =>
    let r := c.publish p.expected p.scope p.items p.computedAt
    (r.1.isSome, r.2)
  | .clear => (true, c.clear)

def changeAll (c : Cache) (changes : List Change) : Cache :=
  changes.foldl (fun c x => (c.change x).2) c

def made : Cache → List Change → Nat
  | _, [] => 0
  | c, x :: rest => (if (c.change x).1 then 1 else 0) + (c.change x).2.made rest

theorem generation_change (c : Cache) (x : Change) :
    (c.change x).2.generation = c.generation + if (c.change x).1 then 1 else 0 := by
  cases x with
  | publish p =>
      by_cases current : c.generation = p.expected
      · have done : c.publish p.expected p.scope p.items p.computedAt =
            (some (p.expected + 1),
              { c with snapshot := c.snapshot.withItems p.scope p.items p.computedAt }) := by
          simp [publish, current]
        simp only [change, done]
        rfl
      · simp [change, publish, current]
  | clear => rfl

theorem generation_changeAll (c : Cache) (changes : List Change) :
    (c.changeAll changes).generation = c.generation + c.made changes := by
  induction changes generalizing c with
  | nil => rfl
  | cons x rest ih =>
      have first := generation_change c x
      have later := ih (c.change x).2
      simp only [changeAll, List.foldl_cons, made] at later ⊢
      omega

/-- The second cache is the first one after values were published for a scope. -/
structure Publishes (before after : Cache) (scope : Scope) (items : List Item) (time : Moment) :
    Prop where
  generation : after.generation = before.generation + 1
  entries : ∀ other, after.get? other =
    if other = scope then some ⟨items, time, before.generation + 1⟩ else before.get? other

theorem Publishes.same {before after : Cache} {scope : Scope} {items others : List Item}
    {time other : Moment} (first : before.Publishes after scope items time)
    (second : before.Publishes after scope others other) : items = others ∧ time = other := by
  have entry := (first.entries scope).symm.trans (second.entries scope)
  simpa using entry

theorem Publishes.ne {before after : Cache} {scope : Scope} {items : List Item} {time : Moment}
    (published : before.Publishes after scope items time) : after ≠ before := by
  rintro rfl
  have := published.generation
  omega

theorem publishes_of_made_eq_zero {c : Cache} {changes : List Change}
    (none : c.made changes = 0) (scope : Scope) (items : List Item) (time : Moment) :
    (c.changeAll changes).Publishes
      ((c.changeAll changes).publish c.generation scope items time).2 scope items time := by
  have current : (c.changeAll changes).generation = c.generation := by
    rw [generation_changeAll, none, Nat.add_zero]
  have published : ((c.changeAll changes).publish c.generation scope items time).2 =
      { c.changeAll changes with
        snapshot := (c.changeAll changes).snapshot.withItems scope items time } := by
    simp [publish, current]
  rw [published]
  refine ⟨rfl, fun other => ?_⟩
  simp only [get?, Snapshot.get?, Snapshot.withItems, Snapshot.lookup_put]
  rfl

theorem publish_of_made_ne_zero {c : Cache} {changes : List Change}
    (some : c.made changes ≠ 0) (scope : Scope) (items : List Item) (time : Moment) :
    ((c.changeAll changes).publish c.generation scope items time).2 = c.changeAll changes := by
  have late : (c.changeAll changes).generation ≠ c.generation := by
    rw [generation_changeAll]
    omega
  simp [publish, late]

end Cache

theorem Caches.modify_eq_self {caches : Caches} {cell : CellId} {f : Cache → Cache}
    (same : f (caches.get cell) = caches.get cell) : caches.modify cell f = caches := by
  obtain ⟨get⟩ := caches
  simp only [modify, set, mk.injEq]
  funext i
  split
  · rename_i here
    rw [here, same]
  · rfl

structure CommandRun where
  /-- How it ended. -/
  outcome : Outcome
  /-- What others tried to do to the cache of the source meanwhile. -/
  changes : List Cache.Change
  /-- The time when it had ended. -/
  clock : Clock

inductive RefreshEnd where
  | returned (result : Except SourceError Unit)
  | panicked (payload : Payload)

namespace LiveSource

variable {s : LiveSource} {caches : Caches} {directory : Option String} {x : CommandRun}

/-- The caches as a refresh finds them when its command has ended; without a command no time
passes. -/
def met (s : LiveSource) (caches : Caches) (directory : Option String) (x : CommandRun) : Caches :=
  match s.startRefresh caches directory with
  | .running r => caches.modify r.cell (·.changeAll x.changes)
  | _ => caches

def refresh (s : LiveSource) (caches : Caches) (directory : Option String) (x : CommandRun) :
    RefreshEnd × Caches :=
  match s.startRefresh caches directory with
  | .done => (.returned (.ok ()), caches)
  | .failed cause => (.returned (.error cause), caches)
  | .running r =>
    let caches := s.met caches directory x
    match x.outcome with
    | .items items => (.returned (.ok ()), r.publish caches items (x.clock r.context))
    | .failed message => (.returned (.error (.failed r.command message)), caches)
    | .panicked payload => (.panicked payload, caches)

/-- Whether there is nothing to run: no command, nothing to run it, or no place for its values. -/
def Idle (s : LiveSource) (directory : Option String) : Prop :=
  s.isDynamic = false ∨ s.context = none ∨ s.policy.scope? directory = none

theorem Idle.unchanged (idle : s.Idle directory) :
    s.met caches directory x = caches ∧ (s.refresh caches directory x).2 = caches := by
  cases start : s.startRefresh caches directory with
  | done | failed cause => simp [met, refresh, start]
  | running r =>
      obtain ⟨command, context, scope, provider, bound, belongs, -⟩ :=
        startRefresh_eq_running_iff.mp start
      simp [Idle, Source.isDynamic, provider, bound, belongs] at idle

/-- A refresh whose command gives values while nobody changes the cache. -/
structure Completes (s : LiveSource) (caches : Caches) (directory : Option String) (x : CommandRun)
    (context : ContextId) (scope : Scope) (items : List Item) : Prop where
  dynamic : s.isDynamic = true
  bound : s.context = some context
  belongs : s.policy.scope? directory = some scope
  gave : x.outcome = .items items
  alone : (caches.get s.cell).made x.changes = 0

/-- A refresh that does not complete changes nothing, and one that does publishes its values. -/
theorem refresh_cases (s : LiveSource) (caches : Caches) (directory : Option String)
    (x : CommandRun) :
    ((∀ context scope items, ¬ s.Completes caches directory x context scope items) ∧
        (s.refresh caches directory x).2 = s.met caches directory x) ∨
      ∃ context scope items, s.Completes caches directory x context scope items ∧
        (s.refresh caches directory x).1 = .returned (.ok ()) ∧
        ((s.met caches directory x).get s.cell).Publishes
          ((s.refresh caches directory x).2.get s.cell) scope items (x.clock context) := by
  by_cases idle : s.Idle directory
  · refine .inl ⟨fun context scope items done => ?_, idle.unchanged.2.trans idle.unchanged.1.symm⟩
    simp [Idle, done.dynamic, done.bound, done.belongs] at idle
  · simp only [Idle, Bool.not_eq_false, not_or, ← ne_eq, Option.ne_none_iff_exists'] at idle
    obtain ⟨dynamic, ⟨context, bound⟩, scope, belongs⟩ := idle
    obtain ⟨command, provider⟩ : ∃ command, s.provider = .dynamic command := by
      unfold Source.isDynamic at dynamic
      split at dynamic
      · simp at dynamic
      · exact ⟨_, ‹_›⟩
    have start : s.startRefresh caches directory = .running
        ⟨s.cell, context, command, directory, scope, (caches.get s.cell).generation⟩ :=
      startRefresh_eq_running_iff.mpr ⟨command, context, scope, provider, bound, belongs, rfl⟩
    have found : s.met caches directory x = caches.modify s.cell (·.changeAll x.changes) := by
      simp [met, start]
    cases ended : x.outcome with
    | failed | panicked =>
        refine .inl ⟨fun _ _ _ done => ?_, by simp [refresh, start, ended]⟩
        exact absurd (ended.symm.trans done.gave) (by simp)
    | items items =>
        have result : s.refresh caches directory x = (.returned (.ok ()),
            (s.met caches directory x).modify s.cell fun c =>
              (c.publish (caches.get s.cell).generation scope items (x.clock context)).2) := by
          simp [refresh, start, ended, Refresh.publish]
        have mine : (s.met caches directory x).get s.cell =
            (caches.get s.cell).changeAll x.changes := by
          simp [found, Caches.get_modify]
        by_cases alone : (caches.get s.cell).made x.changes = 0
        · refine .inr ⟨context, scope, items, ⟨dynamic, bound, belongs, ended, alone⟩,
            by rw [result], ?_⟩
          rw [result, Caches.get_modify, if_pos rfl, mine]
          exact Cache.publishes_of_made_eq_zero alone scope items (x.clock context)
        · refine .inl ⟨fun _ _ _ done => alone done.alone, ?_⟩
          have same := Cache.publish_of_made_ne_zero alone scope items (x.clock context)
          rw [← mine] at same
          rw [result]
          exact Caches.modify_eq_self
            (f := fun c => (c.publish (caches.get s.cell).generation scope items
              (x.clock context)).2) same

theorem get_met_of_ne {cell : CellId} (other : cell ≠ s.cell) :
    (s.met caches directory x).get cell = caches.get cell := by
  unfold met
  split
  · rename_i r start
    obtain ⟨_, _, _, _, _, _, rfl⟩ := startRefresh_eq_running_iff.mp start
    simp [Caches.get_modify, other]
  · rfl

theorem get_refresh_of_ne {cell : CellId} (other : cell ≠ s.cell) :
    (s.refresh caches directory x).2.get cell = caches.get cell := by
  have found : (s.met caches directory x).get cell = caches.get cell := get_met_of_ne other
  unfold refresh
  split
  · rfl
  · rfl
  · rename_i r start
    obtain ⟨_, _, _, _, _, _, rfl⟩ := startRefresh_eq_running_iff.mp start
    cases x.outcome with
    | failed | panicked => exact found
    | items items => simp only [Refresh.publish, Caches.get_modify, other, if_false, found]

theorem caches_ran_beginRefresh (e : Engine) (rest : List LiveSource) {r : Refresh}
    (start : s.startRefresh (e.caches.modify s.cell Cache.unmark) directory = .running r) :
    let begun := e.beginRefresh s directory rest
    let met : Engine := { begun with caches := s.met begun.caches directory x }
    (met.ran r rest (x.clock r.context) x.outcome).caches =
      (s.refresh begun.caches directory x).2 := by
  intro begun met
  have caches : begun.caches = e.caches.modify s.cell Cache.unmark := Engine.caches_beginRefresh ..
  simp only [met, refresh, caches, start]
  cases x.outcome with
  | items items | failed | panicked => rfl

/-- A refresh publishes the values of its command, as of the time when that had ended, exactly where
the command gave values and no change was made to the cache meanwhile. In every other case, and so
when it fails, without the directory it needs, or without a command, it changes nothing. -/
theorem refresh_publishes_iff (s : LiveSource) (caches : Caches) (directory : Option String)
    (x : CommandRun) :
    let before := s.met caches directory x
    let after := (s.refresh caches directory x).2
    (∀ scope items time, s.policy.scope? directory = some scope →
      ((before.get s.cell).Publishes (after.get s.cell) scope items time ↔
        ∃ context, s.Completes caches directory x context scope items ∧ time = x.clock context)) ∧
      ((∀ context scope items, ¬ s.Completes caches directory x context scope items) →
        after = before) ∧
      (∀ cause, (s.refresh caches directory x).1 = .returned (.error cause) → after = before) ∧
      (s.policy.perDirectory = true → directory = none → after = caches) ∧
      (s.isDynamic = false → after = caches) ∧
      ∀ cell, cell ≠ s.cell → after.get cell = caches.get cell := by
  intro before after
  refine ⟨?_, ?_, ?_, ?_, ?_, fun cell => get_refresh_of_ne⟩
  · intro scope items time belongs
    rcases refresh_cases s caches directory x with
      ⟨never, same⟩ | ⟨context, own, values, done, -, published⟩
    · constructor
      · intro published
        exact absurd (congrArg (·.get s.cell) same) published.ne
      · rintro ⟨context, done, -⟩
        exact absurd done (never context scope items)
    · obtain rfl := Option.some.inj (belongs.symm.trans done.belongs)
      constructor
      · intro again
        obtain ⟨rfl, rfl⟩ := published.same again
        exact ⟨context, done, rfl⟩
      · rintro ⟨other, again, rfl⟩
        obtain rfl := Option.some.inj (done.bound.symm.trans again.bound)
        obtain rfl := Outcome.items.inj (done.gave.symm.trans again.gave)
        exact published
  · intro never
    rcases refresh_cases s caches directory x with ⟨-, same⟩ | ⟨context, scope, items, done, -⟩
    · exact same
    · exact absurd done (never context scope items)
  · intro cause failed
    rcases refresh_cases s caches directory x with ⟨-, same⟩ | ⟨_, _, _, -, returned, -⟩
    · exact same
    · simp [returned] at failed
  · intro each none
    have idle : s.Idle directory := .inr (.inr (by simp [CachePolicy.scope?, each, none]))
    exact idle.unchanged.2
  · intro fixed
    have idle : s.Idle directory := .inl fixed
    exact idle.unchanged.2

def ofBranches : LiveSource :=
  { name := "Branches", provider := .dynamic "git branch", cell := 0, context := some 0 }

/-- Its command gives one branch while others do something to its cache. -/
def CommandRun.givingMain (changes : List Cache.Change) : CommandRun :=
  { outcome := .items [{ name := "main" }], changes, clock := fun _ => 9 }

/-- A publication that comes too late does not keep the values back, and a clear does. -/
theorem refresh_publishes_iff_rivals :
    let late := CommandRun.givingMain [.publish { SharedCache.tags with expected := 5 }]
    let cleared := CommandRun.givingMain [.clear]
    ofBranches.policy.scope? none = some .everywhere ∧
      ((ofBranches.met {} none late).get 0).Publishes ((ofBranches.refresh {} none late).2.get 0)
        .everywhere [{ name := "main" }] 9 ∧
      ¬ ((ofBranches.met {} none cleared).get 0).Publishes
          ((ofBranches.refresh {} none cleared).2.get 0) .everywhere [{ name := "main" }] 9 := by
  intro late cleared
  have belongs : ofBranches.policy.scope? none = some .everywhere := rfl
  obtain ⟨first, -⟩ := refresh_publishes_iff ofBranches {} none late
  obtain ⟨second, -⟩ := refresh_publishes_iff ofBranches {} none cleared
  refine ⟨belongs, (first _ _ 9 belongs).mpr ⟨0, ⟨rfl, rfl, rfl, rfl, rfl⟩, rfl⟩, ?_⟩
  intro published
  obtain ⟨context, done, -⟩ := (second _ _ 9 belongs).mp published
  exact absurd done.alone (by decide)

end LiveSource

end LineCompletion

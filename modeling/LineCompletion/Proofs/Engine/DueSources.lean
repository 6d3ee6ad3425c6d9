import Mathlib.Data.List.Forall2
import LineCompletion.Proofs.Engine.Completion
import LineCompletion.Proofs.Source.Renewal

/-! # What is due after a dictionary was refreshed

A worker that refreshes a dictionary looks at its sources one after the other and has a command run
for those that are due. Callers go on meanwhile, but they do not write to the caches of the
dictionary, and the time stands still. After the worker has completed its task no source whose
values last is due, and it had commands run for sources that were due when it took the task, in
their order and for each once. Only where sources share a cache under different policies may one of
them come to be due meanwhile, as `LiveSource.ComesDue` says.
-/

namespace LineCompletion

/-- Whether a command runs for a source and a directory. -/
structure Refresh.RunsFor (directory : Option String) (s : LiveSource) (r : Refresh) : Prop where
  command : s.provider = .dynamic r.command
  context : s.context = some r.context
  cell : r.cell = s.cell
  directory : r.directory = directory

theorem LiveSource.runsFor_of_startRefresh {s : LiveSource} {caches : Caches}
    {directory : Option String} {r : Refresh}
    (begun : s.startRefresh caches directory = .running r) : r.RunsFor directory s := by
  obtain ⟨command, context, scope, provider, bound, -, rfl⟩ :=
    startRefresh_eq_running_iff.mp begun
  exact ⟨provider, bound, rfl, rfl⟩

namespace Engine

/-- The refresh for whose command the worker waits. -/
def refreshing? (e : Engine) : Option Refresh :=
  match e.activity? with
  | some (.refreshing refresh _) => some refresh
  | _ => none

section Passed

variable (start : Engine) (d : Dictionary LiveSource) (context : ContextId) (clock : Clock)
  (directory : Option String)

/-- What has come of the sources that a worker has passed, for some of which commands ran. -/
structure Passed (e : Engine) (done refreshed : List LiveSource) (executed : List Refresh) :
    Prop where
  order : refreshed.Sublist done
  commands : List.Forall₂ (Refresh.RunsFor directory) refreshed executed
  renewed : LiveSource.Renewed d.sources start.caches context clock directory refreshed e.caches
  fresh : ∀ x ∈ done, x.policy.isEnabled = true → x.policy.ttlSeconds ≠ some 0 →
    x.needsRefresh e.caches clock directory = false

/-- How far a worker has come with the sources of a dictionary. -/
inductive Underway (e : Engine) : List Refresh → Prop where
  | held (holds : e.activity? = some (.holding (.refreshDictionary d directory)))
      (passed : Passed start d context clock directory e [] [] []) : Underway e []
  | checks {done rest refreshed : List LiveSource} {executed : List Refresh}
      (parts : d.sources = done ++ rest) (checks : e.activity? = some (.checking rest directory))
      (passed : Passed start d context clock directory e done refreshed executed) :
      Underway e executed
  | refreshes {done rest refreshed : List LiveSource} {executed : List Refresh} {s : LiveSource}
      {r : Refresh} (parts : d.sources = done ++ s :: rest)
      (refreshes : e.activity? = some (.refreshing r rest))
      (due : s.needsRefresh e.caches clock directory = true)
      (begun : s.startRefresh e.caches directory = .running r)
      (passed : Passed start d context clock directory e done refreshed executed) :
      Underway e (executed ++ [r])

end Passed

section Underway

variable {start e next : Engine} {d : Dictionary LiveSource} {context : ContextId} {clock : Clock}
  {directory : Option String} {done rest refreshed : List LiveSource} {executed : List Refresh}
  {s : LiveSource} {r : Refresh}

namespace Passed

theorem refl (e : Engine) (d : Dictionary LiveSource) (context : ContextId) (clock : Clock)
    (directory : Option String) : Passed e d context clock directory e [] [] [] :=
  ⟨.slnil, .nil, .refl .., by simp⟩

theorem congr (passed : Passed start d context clock directory e done refreshed executed)
    (bound : ∀ x ∈ d.sources, x.context = some context) (part : done ⊆ d.sources)
    (same : ∀ x ∈ d.sources, next.snapshotOf x.cell = e.snapshotOf x.cell) :
    Passed start d context clock directory next done refreshed executed := by
  refine ⟨passed.order, passed.commands, passed.renewed.congr same, ?_⟩
  intro x member enabled lasting
  have cached := LiveSource.cached?_congr (same x (part member)) directory
  rw [LiveSource.needsRefresh_congr (bound x (part member)) cached rfl]
  exact passed.fresh x member enabled lasting

theorem skip (passed : Passed start d context clock directory e done refreshed executed)
    (fresh : s.needsRefresh e.caches clock directory = false) :
    Passed start d context clock directory e (done ++ [s]) refreshed executed := by
  refine ⟨passed.order.trans (List.sublist_append_left ..), passed.commands, passed.renewed, ?_⟩
  intro x member enabled lasting
  rcases List.mem_append.mp member with earlier | here
  · exact passed.fresh x earlier enabled lasting
  · rwa [List.mem_singleton.mp here]

/-- A source is passed that was refreshed. -/
theorem publish (passed : Passed start d context clock directory e done refreshed executed)
    (bound : ∀ x ∈ d.sources, x.context = some context) (parts : d.sources = done ++ s :: rest)
    (due : s.needsRefresh e.caches clock directory = true)
    (begun : s.startRefresh e.caches directory = .running r) {items : List Item}
    (caches : next.caches = r.publish e.caches items (clock context)) :
    Passed start d context clock directory next (done ++ [s]) (refreshed ++ [s])
      (executed ++ [r]) := by
  have part : done ⊆ d.sources := by simp [parts]
  have listed : s ∈ d.sources := by simp [parts]
  have own : ∀ x ∈ refreshed, x ∈ d.sources := fun x member => part (passed.order.subset member)
  refine ⟨passed.order.append (.refl _), ?_, ?_, ?_⟩
  · exact List.rel_append passed.commands (.cons (LiveSource.runsFor_of_startRefresh begun) .nil)
  · rw [caches]
    exact passed.renewed.publish bound own listed due begun items
  · intro x member enabled lasting
    rw [caches]
    rcases List.mem_append.mp member with earlier | here
    · exact LiveSource.needsRefresh_publish begun items (bound x (part earlier)) enabled lasting
        (.inr (passed.fresh x earlier enabled lasting))
    · have same := List.mem_singleton.mp here
      exact LiveSource.needsRefresh_publish begun items (same ▸ bound s listed) enabled lasting
        (.inl same)

end Passed

theorem Underway.not_idle
    (underway : Underway start d context clock directory e executed) : e.isIdle = false := by
  cases underway with
  | held does | checks _ does | refreshes _ does => simp [isIdle, does, Activity.isTask]

theorem Underway.congr (underway : Underway start d context clock directory e executed)
    (bound : ∀ x ∈ d.sources, x.context = some context) (stands : next.activity? = e.activity?)
    (same : ∀ x ∈ d.sources, next.snapshotOf x.cell = e.snapshotOf x.cell) :
    Underway start d context clock directory next executed := by
  cases underway with
  | held holds passed => exact .held (stands.trans holds) (passed.congr bound (by simp) same)
  | checks parts checks passed =>
      exact .checks parts (stands.trans checks) (passed.congr bound (by simp [parts]) same)
  | @refreshes done rest _ _ s r parts refreshes due begun passed =>
      have listed : s ∈ d.sources := by simp [parts]
      refine .refreshes parts (stands.trans refreshes) ?_ ?_
        (passed.congr bound (by simp [parts]) same)
      · rwa [LiveSource.needsRefresh_congr (bound s listed)
          (LiveSource.cached?_congr (same s listed) directory) rfl]
      · rwa [LiveSource.startRefresh_congr (same s listed) directory]

/-- What becomes of the refresh of a dictionary. -/
inductive Turned (start : Engine) (d : Dictionary LiveSource) (context : ContextId) (clock : Clock)
    (directory : Option String) (e : Engine) (executed : List Refresh) : Prop where
  | goesOn (underway : Underway start d context clock directory e executed)
  | completes {refreshed : List LiveSource} (waits : e.activity? = some .waiting)
      (passed : Passed start d context clock directory e d.sources refreshed executed)
  | fails {cause : EngineError} (fails : e.activity? = some (.failing cause))

/-- The worker has a command run for the next source that is due. -/
theorem Underway.step (underway : Underway start d context clock directory e executed)
    (bound : ∀ x ∈ d.sources, x.context = some context) {own : Clock}
    (time : own context = clock context) (stepped : e.step own = some next) :
    Turned start d context clock directory next (executed ++ next.refreshing?.toList) := by
  have entries : ∀ x ∈ d.sources, next.snapshotOf x.cell = e.snapshotOf x.cell :=
    fun x _ => (Keeps.step stepped).entries x.cell
  have nothing {a : Activity} (does : next.activity? = some a)
      (other : ∀ r rest, a ≠ .refreshing r rest) :
      executed ++ next.refreshing?.toList = executed := by
    cases a with
    | refreshing r rest => exact absurd rfl (other r rest)
    | _ => simp [refreshing?, does]
  unfold Engine.step at stepped
  cases underway with
  | held holds passed =>
      obtain ⟨stop, found⟩ := worker_of_activity? holds
      obtain rfl : e.become (.checking d.sources directory) = next := by
        simpa [found, begin] using stepped
      have checks : (e.become (.checking d.sources directory)).activity? =
          some (.checking d.sources directory) := by simp [holds]
      have parts : d.sources = [] ++ d.sources := rfl
      rw [nothing checks (by simp)]
      exact .goesOn (.checks parts checks (passed.congr bound (by simp) entries))
  | @checks done rest _ _ parts checks passed =>
      obtain ⟨stop, found⟩ := worker_of_activity? checks
      have passed := passed.congr bound (by simp [parts]) entries
      cases rest with
      | nil =>
          obtain rfl : e.become .waiting = next := by simpa [found] using stepped
          have waits : (e.become .waiting).activity? = some .waiting := by simp [checks]
          have all : d.sources = done := by simpa using parts
          rw [nothing waits (by simp)]
          exact .completes waits (all ▸ passed)
      | cons x rest =>
          have listed : x ∈ d.sources := by simp [parts]
          have same : x.needsRefresh e.caches own directory =
              x.needsRefresh e.caches clock directory :=
            LiveSource.needsRefresh_congr (bound x listed) rfl time
          cases due : x.needsRefresh e.caches clock directory with
          | false =>
              obtain rfl : e.become (.checking rest directory) = next := by
                simpa [found, same, due] using stepped
              have checks : (e.become (.checking rest directory)).activity? =
                  some (.checking rest directory) := by simp [checks]
              rw [nothing checks (by simp)]
              exact .goesOn (.checks (by simp [parts]) checks (passed.skip due))
          | true =>
              obtain rfl : e.beginRefresh x directory rest = next := by
                simpa [found, same, due] using stepped
              have after := activity?_beginRefresh checks x directory rest
              have still := LiveSource.cached?_congr (entries x listed) directory
              have begins := LiveSource.startRefresh_congr (entries x listed) directory
              cases started : x.startRefresh e.caches directory with
              | done => exact absurd started (LiveSource.startRefresh_ne_done due)
              | failed cause =>
                  obtain ⟨-, free, -⟩ := LiveSource.startRefresh_eq_failed_iff.mp started
                  simp [bound x listed] at free
              | running r =>
                  rw [started] at after begins
                  have waits : (e.beginRefresh x directory rest).refreshing? = some r := by
                    simp [refreshing?, after, afterStart]
                  rw [waits]
                  refine .goesOn (.refreshes parts after ?_ begins passed)
                  rwa [LiveSource.needsRefresh_congr (bound x listed) still rfl]
  | refreshes parts refreshes due begun passed =>
      obtain ⟨stop, found⟩ := worker_of_activity? refreshes
      simp [found] at stepped

theorem Underway.ran (underway : Underway start d context clock directory e executed)
    (bound : ∀ x ∈ d.sources, x.context = some context)
    (refreshes : e.activity? = some (.refreshing r rest)) (outcome : Outcome) :
    Turned start d context clock directory (e.ran r rest (clock context) outcome) executed := by
  cases underway with
  | held holds => simp [holds] at refreshes
  | checks _ checks => simp [checks] at refreshes
  | @refreshes done own refreshed before s q parts waits due begun passed =>
      obtain ⟨rfl, rfl⟩ : q = r ∧ own = rest := by simpa [waits] using refreshes
      obtain ⟨stop, found⟩ := worker_of_activity? waits
      cases outcome with
      | items items =>
          have directs : q.directory = directory :=
            (LiveSource.runsFor_of_startRefresh begun).directory
          have checks : (e.ran q own (clock context) (.items items)).activity? =
              some (.checking own directory) := by
            simp [Engine.ran, activity?, found, directs]
          exact .goesOn (.checks (by simp [parts]) checks
            (passed.publish bound parts due begun rfl))
      | failed | panicked => exact .fails (by simp [Engine.ran, waits]; rfl)

end Underway

end Engine

namespace Session

open Engine

/-- The command that the worker has the context execute with a move. -/
def executes (s : Session) : Move → List Refresh
  | .work clock => ((s.engine.step clock).bind Engine.refreshing?).toList
  | _ => []

/-- The commands that the worker has the context execute with some moves, in order. -/
def executed : Session → List Move → List Refresh
  | _, [] => []
  | s, m :: moves => s.executes m ++ (s.act m).executed moves

theorem executed_concat (s : Session) (moves : List Move) (m : Move) :
    s.executed (moves ++ [m]) = s.executed moves ++ (s.run moves).executes m := by
  induction moves generalizing s with
  | nil => simp [executed]
  | cons first moves ih =>
      simp only [List.cons_append, executed, ih, run_cons, List.append_assoc]

/-- Whether a move leaves the time of a context where it is, and the caches of some sources to the
worker. -/
def Move.Calm (context : ContextId) (now : Moment) (sources : List LiveSource) : Move → Prop
  | .work clock => clock context = now
  | .commandEnded time _ => time = now
  | .writeCache cell _ => ∀ x ∈ sources, x.cell ≠ cell
  | _ => True

section Run

variable {start : Engine} {d : Dictionary LiveSource} {context : ContextId} {clock : Clock}
  {directory : Option String} {s : Session} {executed : List Refresh} {m : Move}

/-- One move of the worker, of a caller or of what the worker waits for. -/
theorem turned_act (underway : Underway start d context clock directory s.engine executed)
    (bound : ∀ x ∈ d.sources, x.context = some context)
    (calm : m.Calm context (clock context) d.sources) :
    Turned start d context clock directory (s.act m).engine (executed ++ s.executes m) := by
  have busy := underway.not_idle
  by_cases callers : m.isCallers = true
  · have nothing : s.executes m = [] := by
      cases m with
      | work => simp [Move.isCallers] at callers
      | _ => rfl
    have entries : ∀ x ∈ d.sources,
        (s.act m).engine.snapshotOf x.cell = s.engine.snapshotOf x.cell := by
      intro x listed
      refine snapshotOf_of_unwritten ?_ ?_
      · intro snapshot wrote
        obtain rfl := List.mem_singleton.mp wrote
        exact calm x listed rfl
      · rintro _ _ _ _ now items rfl
        simp [Move.isCallers] at callers
    rw [nothing, List.append_nil]
    cases called_act s callers with
    | apart stands _ | wrote stands _ =>
        exact .goesOn (underway.congr bound stands.activity entries)
    | started none | dismissed none => simp [isIdle, none, Activity.isTask] at busy
  · cases m with
    | work own =>
        cases stepped : s.engine.step own with
        | none => simpa [act, executes, stepped] using Turned.goesOn underway
        | some next => simpa [act, executes, stepped] using underway.step bound calm stepped
    | filesRead result =>
        obtain ⟨-, still⟩ | ⟨path, loads, -⟩ := filesRead_cases s result
        · rw [still]
          exact .goesOn (by simpa [executes] using underway)
        · cases underway with
          | held does | checks _ does | refreshes _ does => simp [does] at loads
    | commandEnded time outcome =>
        obtain still | ⟨r, rest, refreshes, ended⟩ := commandEnded_cases s time outcome
        · rw [still]
          exact .goesOn (by simpa [executes] using underway)
        · obtain rfl : time = clock context := calm
          rw [ended]
          simpa [executes] using underway.ran bound refreshes outcome
    | _ => simp [Move.isCallers] at callers

/-- Until the worker takes another task, it is under way with the dictionary or does no task. -/
theorem underway_run (clock : Clock) {doing : List Move}
    (holds : s.engine.held? = some (.refreshDictionary d directory))
    (bound : ∀ x ∈ d.sources, x.context = some context) (one : s.taken doing = [])
    (calm : ∀ m ∈ doing, m.Calm context (clock context) d.sources) :
    (s.run doing).engine.isIdle = true ∨
      Underway s.engine d context clock directory (s.run doing).engine (s.executed doing) := by
  -- from the end: a move goes on with what the moves before it left
  induction doing using List.reverseRecOn with
  | nil => exact .inr (.held (activity?_of_held? holds) (.refl ..))
  | append_singleton doing m ih =>
      rw [taken_append] at one
      obtain ⟨before, now⟩ := List.append_eq_nil_iff.mp one
      have free : (s.run doing).takes m = [] := by simpa [taken] using now
      have last : s.run (doing ++ [m]) = (s.run doing).act m := by simp
      rw [last, executed_concat]
      obtain idle | underway := ih before fun m member => calm m (by simp [member])
      · exact .inl (idle_act idle free)
      · cases turned_act underway bound (calm m (by simp)) with
        | goesOn underway => exact .inr underway
        | completes waits => exact .inl (by simp [isIdle, waits, Activity.isTask])
        | fails fails => exact .inl (by simp [isIdle, fails, Activity.isTask])

theorem passed_of_completes (clock : Clock) {doing : List Move} {last : Move}
    (holds : s.engine.held? = some (.refreshDictionary d directory))
    (bound : ∀ x ∈ d.sources, x.context = some context) (one : s.taken doing = [])
    (calm : ∀ m ∈ doing ++ [last], m.Calm context (clock context) d.sources)
    (completes : (s.run doing).completes last = true) :
    ∃ refreshed, Passed s.engine d context clock directory (s.run (doing ++ [last])).engine
      d.sources refreshed (s.executed (doing ++ [last])) := by
  obtain ⟨busy, waits⟩ := Bool.and_eq_true_iff.mp completes
  have ends : s.run (doing ++ [last]) = (s.run doing).act last := by simp
  rw [ends, executed_concat]
  obtain idle | underway := underway_run clock holds bound one
    fun m member => calm m (by simp [member])
  · simp [idle] at busy
  · cases turned_act underway bound (calm last (by simp)) with
    | goesOn underway =>
        have does := isWaiting_iff.mp waits
        exact absurd underway.not_idle (by simp [isIdle, does, Activity.isTask])
    | completes _ passed => exact ⟨_, passed⟩
    | fails fails => simp [isWaiting_iff, fails] at waits

end Run

/-- After a worker has refreshed a dictionary for a directory, while the time stood still and nobody
else wrote to its caches, no source is due whose values last. Commands ran for sources that were due
when the worker took the task, in their order and for each once. Where sources share a cache under
different policies, a command may also run for one that only came to be due, because a source before
it brought values of the same moment that have no time to live. -/
theorem nothing_due_after_refresh {s : Session} {d : Dictionary LiveSource}
    {directory : Option String} {context : ContextId} (clock : Clock) {doing : List Move}
    {last : Move} (holds : s.engine.held? = some (.refreshDictionary d directory))
    (bound : ∀ x ∈ d.sources, x.context = some context) (one : s.taken doing = [])
    (calm : ∀ m ∈ doing ++ [last], m.Calm context (clock context) d.sources)
    (completes : (s.run doing).completes last = true) :
    (∀ x ∈ d.sources, x.policy.isEnabled = true → x.policy.ttlSeconds ≠ some 0 →
      x.needsRefresh (s.run (doing ++ [last])).engine.caches clock directory = false) ∧
      ∃ refreshed, refreshed.Sublist d.sources ∧
        List.Forall₂ (Refresh.RunsFor directory) refreshed (s.executed (doing ++ [last])) ∧
        ((∀ x ∈ d.sources, ∀ y ∈ d.sources, x.cell = y.cell → x.policy = y.policy) →
          ∀ x ∈ refreshed, x.needsRefresh s.engine.caches clock directory = true) ∧
        ∀ before x later, refreshed = before ++ x :: later →
          x.needsRefresh s.engine.caches clock directory = true ∨
            x.ComesDue s.engine.caches clock directory before := by
  obtain ⟨refreshed, passed⟩ := passed_of_completes clock holds bound one calm completes
  refine ⟨passed.fresh, refreshed, passed.order, passed.commands, ?_, passed.renewed.owed⟩
  intro copies x member
  obtain ⟨before, later, rfl⟩ := List.append_of_mem member
  obtain due | comes := passed.renewed.owed before x later rfl
  · exact due
  · obtain ⟨y, earlier, cell, policy, -⟩ := comes.shared
    have listed : y ∈ d.sources := passed.order.subset (by simp [earlier])
    exact absurd (copies y listed x (passed.order.subset member) cell) policy

/-- A dictionary in use with sources of given caches and policies. -/
def ofPolicies (sources : List (String × CellId × CachePolicy)) : Dictionary LiveSource :=
  sources.foldl (fun d (command, cell, policy) =>
    d.withParameter ((Parameter.positional command).withSource
      { name := command, provider := .dynamic command, policy, cell, context := some 0 }))
    (Dictionary.ofCommand "git")

/-- A worker has taken the refresh of a dictionary; the second cache has values of the sixth
second. -/
def refreshPolicies (sources : List (String × CellId × CachePolicy)) : Session :=
  let dated : Cache :=
    { snapshot := { generation := 1, entries := [(.everywhere, ⟨[], 6000, 1⟩)] } }
  let idle : Session := { engine := { caches := ({} : Caches).set 1 dated } }
  idle.run [.start, .work fun _ => 0, .refreshDictionary (ofPolicies sources) none,
    .work fun _ => 0]

def apart : List (String × CellId × CachePolicy) :=
  [("git branch", 0, { ttlSeconds := some 15 }), ("git tag", 1, { ttlSeconds := some 15 }),
    ("git stash", 2, {})]

/-- In the ninth second the worker refreshes the first source, passes the second and refreshes the
third, while a caller asks for a file. -/
def goOver : List Move :=
  [.work fun _ => 9000, .work fun _ => 9000, .commandEnded 9000 (.items [{ name := "main" }]),
    .requestLoad "git.json", .work fun _ => 9000, .work fun _ => 9000,
    .commandEnded 9000 (.items [])]

theorem nothing_due_after_refresh_apart :
    (refreshPolicies apart).engine.held? = some (.refreshDictionary (ofPolicies apart) none) ∧
      (refreshPolicies apart).taken goOver = [] ∧
      ((refreshPolicies apart).run goOver).completes (.work fun _ => 9000) = true ∧
      ((refreshPolicies apart).executed (goOver ++ [.work fun _ => 9000])).map (·.command) =
        ["git branch", "git stash"] ∧
      (∃ refreshed, refreshed.Sublist (ofPolicies apart).sources ∧
        List.Forall₂ (Refresh.RunsFor none) refreshed
          ((refreshPolicies apart).executed (goOver ++ [.work fun _ => 9000])) ∧
        ∀ x ∈ refreshed,
          x.needsRefresh (refreshPolicies apart).engine.caches (fun _ => 9000) none = true) ∧
      ∀ x ∈ (ofPolicies apart).sources, x.policy.isEnabled = true →
        x.needsRefresh ((refreshPolicies apart).run (goOver ++ [.work fun _ => 9000])).engine.caches
          (fun _ => 9000) none = false := by
  have holds : (refreshPolicies apart).engine.held? =
      some (.refreshDictionary (ofPolicies apart) none) := by rfl
  have one : (refreshPolicies apart).taken goOver = [] := by rfl
  have completes : ((refreshPolicies apart).run goOver).completes (.work fun _ => 9000) = true := by
    rfl
  have bound : ∀ x ∈ (ofPolicies apart).sources, x.context = some 0 := by decide
  have lasting : ∀ x ∈ (ofPolicies apart).sources, x.policy.ttlSeconds ≠ some 0 := by decide
  have calm : ∀ m ∈ goOver ++ [.work fun _ => 9000],
      m.Calm 0 9000 (ofPolicies apart).sources := by
    simp [goOver, Move.Calm]
  have copies : ∀ x ∈ (ofPolicies apart).sources, ∀ y ∈ (ofPolicies apart).sources,
      x.cell = y.cell → x.policy = y.policy := by decide
  obtain ⟨fresh, refreshed, order, commands, due, -⟩ :=
    nothing_due_after_refresh (fun _ => 9000) holds bound one calm completes
  exact ⟨holds, one, completes, by rfl, ⟨refreshed, order, commands, due copies⟩,
    fun x listed enabled => fresh x listed enabled (lasting x listed)⟩

/-- Sources that share a cache under different policies. -/
def together : List (String × CellId × CachePolicy) :=
  [("git log", 1, {}), ("git tag", 1, { ttlSeconds := some 0 })]

/-- In the third second the worker refreshes both sources. -/
def renewBoth : List Move :=
  [.work fun _ => 3000, .work fun _ => 3000, .commandEnded 3000 (.items []),
    .work fun _ => 3000, .commandEnded 3000 (.items [])]

/-- A command may run for a source that was not due when the worker took the task. In the third
second the values of the sixth are ahead of time, so only the first source is due; what it brings is
as old as the clock and has no time to live for the second. -/
theorem refreshed_without_being_due :
    (refreshPolicies together).engine.held? = some (.refreshDictionary (ofPolicies together) none) ∧
      (∀ x ∈ (ofPolicies together).sources, x.context = some 0) ∧
      (refreshPolicies together).taken renewBoth = [] ∧
      (∀ m ∈ renewBoth ++ [.work fun _ => 3000], m.Calm 0 3000 (ofPolicies together).sources) ∧
      ((refreshPolicies together).run renewBoth).completes (.work fun _ => 3000) = true ∧
      ∃ r ∈ (refreshPolicies together).executed (renewBoth ++ [.work fun _ => 3000]),
        (∃ x ∈ (ofPolicies together).sources, r.RunsFor none x) ∧
          ∀ x ∈ (ofPolicies together).sources, r.RunsFor none x →
            x.needsRefresh (refreshPolicies together).engine.caches (fun _ => 3000) none =
              false := by
  have declared : (ofPolicies together).sources =
      [{ name := "git log", provider := .dynamic "git log", policy := {}, cell := 1,
         context := some 0 },
       { name := "git tag", provider := .dynamic "git tag", policy := { ttlSeconds := some 0 },
         cell := 1, context := some 0 }] := rfl
  have ran : (refreshPolicies together).executed (renewBoth ++ [.work fun _ => 3000]) =
      [{ cell := 1, scope := .everywhere, generation := 1, context := 0, command := "git log",
         directory := none },
       { cell := 1, scope := .everywhere, generation := 2, context := 0, command := "git tag",
         directory := none }] := rfl
  refine ⟨rfl, by simp [declared], rfl, by simp [renewBoth, Move.Calm], rfl, ?_⟩
  rw [ran, declared]
  refine ⟨_, List.mem_cons_of_mem _ (List.mem_singleton_self _),
    ⟨_, List.mem_cons_of_mem _ (List.mem_singleton_self _), ⟨rfl, rfl, rfl, rfl⟩⟩, ?_⟩
  intro x listed runs
  obtain rfl | rfl : x = _ ∨ x = _ := by simpa using listed
  · simpa using runs.command
  · rfl

end Session

end LineCompletion

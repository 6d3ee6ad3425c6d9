import Mathlib.Data.List.Induction
import LineCompletion.Proofs.Engine.Moves

/-! # How far a task has come

A worker that has taken a task reaches its sources one after the other. The sources before the one
it is at may have other entries, no other source has, and nothing is published before the task ends.
-/

namespace LineCompletion

def Task.sources : Task → List LiveSource
  | .refreshSource source _ _ => [source]
  | .refreshDictionary dictionary _ => dictionary.sources
  | .load _ | .barrier _ => []

def Activity.isTask : Activity → Bool
  | .holding _ | .loading _ | .checking .. | .refreshing .. => true
  | _ => false

namespace Engine

open Session (Move)

/-- The worker is about to look at the first of some sources, with which a task goes on. -/
inductive Faces (e : Engine) (t : Task) : List LiveSource → Prop where
  | held (holds : e.activity? = some (.holding t)) : Faces e t t.sources
  | checked {rest : List LiveSource} {directory : Option String}
      (checks : e.activity? = some (.checking rest directory)) : Faces e t rest

/-- The worker is at the first of some sources, with which a task goes on. -/
inductive Ahead (e : Engine) (t : Task) : List LiveSource → Prop where
  | faces {rest : List LiveSource} (faces : Faces e t rest) : Ahead e t rest
  | refreshed {source : LiveSource} {refresh : Refresh} {rest : List LiveSource}
      (refreshes : e.activity? = some (.refreshing refresh rest))
      (cell : refresh.cell = source.cell)
      (command : source.provider = .dynamic refresh.command) : Ahead e t (source :: rest)
  | loaded {path : String} (load : t = .load path) (loads : e.activity? = some (.loading path)) :
      Ahead e t []

def isIdle (e : Engine) : Bool :=
  !e.activity?.any Activity.isTask

section Ahead

variable {e next : Engine} {t : Task} {rest : List LiveSource}

theorem Ahead.not_idle (ahead : Ahead e t rest) : e.isIdle = false := by
  cases ahead with
  | faces faces => cases faces with
    | held holds => simp [isIdle, holds, Activity.isTask]
    | checked checks => simp [isIdle, checks, Activity.isTask]
  | refreshed refreshes => simp [isIdle, refreshes, Activity.isTask]
  | loaded _ loads => simp [isIdle, loads, Activity.isTask]

theorem Ahead.of_stands (ahead : Ahead e t rest) (stands : Stands e next) :
    Ahead next t rest := by
  have same := stands.activity
  cases ahead with
  | faces faces => cases faces with
    | held holds => exact .faces (.held (same.trans holds))
    | checked checks => exact .faces (.checked (same.trans checks))
  | refreshed refreshes cell command => exact .refreshed (same.trans refreshes) cell command
  | loaded load loads => exact .loaded load (same.trans loads)

end Ahead

/-- What the worker does after it has begun a refresh. -/
def afterStart (rest : List LiveSource) (directory : Option String) : RefreshStart → Activity
  | .done => .checking rest directory
  | .failed cause => .failing (.source cause)
  | .running refresh => .refreshing refresh rest

theorem activity?_beginRefresh {e : Engine} {a : Activity} (doing : e.activity? = some a)
    (s : LiveSource) (directory : Option String) (rest : List LiveSource) :
    (e.beginRefresh s directory rest).activity? =
      some (afterStart rest directory (s.startRefresh e.caches directory)) := by
  have unmarked := LiveSource.startRefresh_congr (e.caches.snapshot_unmark s.cell s.cell) directory
  obtain ⟨stop, found⟩ := worker_of_activity? doing
  simp only [beginRefresh, unmarked]
  cases s.startRefresh e.caches directory <;> simp [activity?, found, afterStart]

end Engine

namespace Session

open Engine

/-- No caller writes to a cache with some moves. -/
def Unwritten (cell : CellId) (moves : List Move) : Prop :=
  ∀ snapshot, .writeCache cell snapshot ∉ moves

theorem unwritten_append {cell : CellId} {early late : List Move} :
    Unwritten cell (early ++ late) ↔ Unwritten cell early ∧ Unwritten cell late := by
  simp only [Unwritten, List.mem_append, not_or, forall_and]

theorem snapshotOf_of_unwritten {s : Session} {m : Move} {cell : CellId}
    (unwritten : Unwritten cell [m])
    (quiet : ∀ refresh rest, s.engine.activity? = some (.refreshing refresh rest) →
      refresh.cell = cell → ∀ now items, m ≠ .commandEnded now (.items items)) :
    (s.act m).engine.snapshotOf cell = s.engine.snapshotOf cell := by
  obtain same | ⟨snapshot, rfl⟩ | ⟨refresh, rest, refreshes, here, now, items, gave⟩ :=
    snapshotOf_act s m cell
  · exact same
  · exact absurd (List.mem_singleton_self _) (unwritten snapshot)
  · exact absurd gave (quiet refresh rest refreshes here now items)

section Doing

variable {s : Session} {t : Task} {rest : List LiveSource}

/-- What a move makes of the sources with which a task goes on. -/
inductive Goes (s : Session) (t : Task) (m : Move) : List LiveSource → Prop where
  | stays {rest : List LiveSource} (ahead : Ahead (s.act m).engine t rest)
      (published : (s.act m).engine.suggestors = s.engine.suggestors)
      (entries : ∀ cell, Unwritten cell [m] →
        (s.act m).engine.snapshotOf cell = s.engine.snapshotOf cell) : Goes s t m rest
  | passes {source : LiveSource} {rest : List LiveSource} (faces : Faces (s.act m).engine t rest)
      (published : (s.act m).engine.suggestors = s.engine.suggestors)
      (entries : ∀ cell, cell ≠ source.cell → Unwritten cell [m] →
        (s.act m).engine.snapshotOf cell = s.engine.snapshotOf cell) :
      Goes s t m (source :: rest)
  | ends {rest : List LiveSource} (idle : (s.act m).engine.isIdle = true) : Goes s t m rest

theorem Goes.still {m : Move} (still : s.act m = s) (ahead : Ahead s.engine t rest) :
    Goes s t m rest :=
  .stays (still.symm ▸ ahead) (by rw [still]) fun _ _ => by rw [still]

/-- A worker that begins a refresh stays at the source, or passes it, or fails. -/
theorem goes_beginRefresh {clock : Clock} {source : LiveSource} {directory : Option String}
    {a : Activity} (doing : s.engine.activity? = some a)
    (begins : s.act (.work clock) =
      { s with engine := s.engine.beginRefresh source directory rest }) :
    Goes s t (.work clock) (source :: rest) := by
  have keeps := keeps_work s clock
  have after := activity?_beginRefresh doing source directory rest
  have same : (s.act (.work clock)).engine.activity? =
      (s.engine.beginRefresh source directory rest).activity? := by rw [begins]
  cases start : source.startRefresh s.engine.caches directory with
  | done =>
      rw [start] at after
      exact .passes (.checked (same.trans after)) keeps.published
        fun cell _ _ => keeps.entries cell
  | failed cause =>
      rw [start] at after
      exact .ends (by rw [isIdle, same, after]; rfl)
  | running refresh =>
      rw [start] at after
      obtain ⟨command, context, scope, provider, _, _, rfl⟩ :=
        LiveSource.startRefresh_eq_running_iff.mp start
      exact .stays (.refreshed (same.trans after) rfl provider) keeps.published
        fun cell _ => keeps.entries cell

theorem goes_work (ahead : Ahead s.engine t rest) (clock : Clock) :
    Goes s t (.work clock) rest := by
  have keeps := keeps_work s clock
  cases ahead with
  | faces faces => cases faces with
    | held holds =>
        obtain ⟨stop, found⟩ := worker_of_activity? holds
        have begins : s.act (.work clock) = { s with engine := s.engine.begin t } := by
          simp [act, Engine.step, found]
        cases t with
        | load path =>
            have loads : (s.act (.work clock)).engine.activity? = some (.loading path) := by
              simp [begins, begin, holds]
            exact .stays (.loaded rfl loads) keeps.published fun cell _ => keeps.entries cell
        | refreshSource source directory suggested => exact goes_beginRefresh holds begins
        | refreshDictionary dictionary directory =>
            have checks : (s.act (.work clock)).engine.activity? =
                some (.checking dictionary.sources directory) := by
              simp [begins, begin, holds]
            exact .stays (.faces (.checked checks)) keeps.published
              fun cell _ => keeps.entries cell
        | barrier ticket =>
            exact .ends (by simp [begins, begin, isIdle, activity?, found, Activity.isTask])
    | @checked rest directory checks =>
        obtain ⟨stop, found⟩ := worker_of_activity? checks
        cases rest with
        | nil =>
            exact .ends (by
              simp [act, Engine.step, found, isIdle, activity?, Activity.isTask])
        | cons source rest =>
            by_cases due : source.needsRefresh s.engine.caches clock directory = true
            · have begins : s.act (.work clock) =
                  { s with engine := s.engine.beginRefresh source directory rest } := by
                simp [act, Engine.step, found, due]
              exact goes_beginRefresh checks begins
            · have checks : (s.act (.work clock)).engine.activity? =
                  some (.checking rest directory) := by
                simp [act, Engine.step, found, due, activity?]
              exact .passes (.checked checks) keeps.published fun cell _ _ => keeps.entries cell
  | refreshed refreshes cell command =>
      obtain ⟨stop, found⟩ := worker_of_activity? refreshes
      exact .still (by simp [act, Engine.step, found]) (.refreshed refreshes cell command)
  | loaded load loads =>
      obtain ⟨stop, found⟩ := worker_of_activity? loads
      exact .still (by simp [act, Engine.step, found]) (.loaded load loads)

theorem goes_commandEnded (ahead : Ahead s.engine t rest) (now : Moment) (outcome : Outcome) :
    Goes s t (.commandEnded now outcome) rest := by
  obtain still | ⟨refresh, later, refreshes, ended⟩ := commandEnded_cases s now outcome
  · exact .still still ahead
  · cases ahead with
    | faces faces => cases faces with
      | held holds => simp [holds] at refreshes
      | checked checks => simp [checks] at refreshes
    | loaded _ loads => simp [loads] at refreshes
    | @refreshed source own rest waits cell command =>
        obtain ⟨rfl, rfl⟩ : own = refresh ∧ rest = later := by simpa [waits] using refreshes
        cases outcome with
        | items items =>
            have checks : (s.act (.commandEnded now (.items items))).engine.activity? =
                some (.checking rest own.directory) := by
              obtain ⟨stop, found⟩ := worker_of_activity? waits
              simp [ended, ran, activity?, found]
            refine .passes (.checked checks) (by rw [ended]; rfl) fun other apart unwritten =>
              snapshotOf_of_unwritten unwritten fun refresh rest waits' here => ?_
            obtain ⟨rfl, rfl⟩ : own = refresh ∧ _ = rest := by simpa [waits] using waits'
            exact absurd (here.symm.trans cell) apart
        | failed message =>
            exact .ends (by simp [ended, ran, isIdle, waits, Activity.isTask])
        | panicked payload =>
            exact .ends (by simp [ended, ran, isIdle, waits, Activity.isTask])

theorem goes_act (ahead : Ahead s.engine t rest) (m : Move) : Goes s t m rest := by
  by_cases callers : m.isCallers = true
  · have entries : ∀ cell, Unwritten cell [m] →
        (s.act m).engine.snapshotOf cell = s.engine.snapshotOf cell := by
      refine fun cell unwritten => snapshotOf_of_unwritten unwritten ?_
      rintro _ _ _ _ now items rfl
      simp [Move.isCallers] at callers
    have busy := ahead.not_idle
    cases called_act s callers with
    | apart stands keeps => exact .stays (ahead.of_stands stands) keeps.published entries
    | wrote stands same => exact .stays (ahead.of_stands stands) (by rw [same]) entries
    | started none => simp [isIdle, none] at busy
    | dismissed gone => simp [isIdle, gone, Activity.isTask] at busy
  · cases m with
    | work clock => exact goes_work ahead clock
    | filesRead result =>
        obtain ⟨_, still⟩ | ⟨path, loads, read⟩ := filesRead_cases s result
        · exact .still still ahead
        · refine .ends ?_
          rw [read]
          obtain ⟨cause, fails, _⟩ | ⟨_, _, _, _, _, ready⟩ := loaded_cases s.engine result
          · simp [fails, isIdle, loads, Activity.isTask]
          · obtain ⟨stop, found⟩ := worker_of_activity? loads
            simp [ready, isIdle, activity?, publish, found, Activity.isTask]
    | commandEnded now outcome => exact goes_commandEnded ahead now outcome
    | _ => simp [Move.isCallers] at callers

end Doing

/-- Whether a move is a step of the worker that needs nothing from outside. -/
def Move.isWork : Move → Bool
  | .work _ => true
  | _ => false

theorem act_of_idle {s : Session} {m : Move} (idle : s.engine.isIdle = true)
    (callers : m.isCallers = false) (work : m.isWork = false) : s.act m = s := by
  cases m with
  | filesRead result =>
      obtain ⟨_, still⟩ | ⟨path, loads, _⟩ := filesRead_cases s result
      · exact still
      · simp [isIdle, loads, Activity.isTask] at idle
  | commandEnded now outcome =>
      obtain still | ⟨_, _, refreshes, _⟩ := commandEnded_cases s now outcome
      · exact still
      · simp [isIdle, refreshes, Activity.isTask] at idle
  | work => simp [Move.isWork] at work
  | _ => simp [Move.isCallers] at callers

/-- A worker that does no task goes on to none with a move that takes none. -/
theorem idle_act {s : Session} {m : Move} (idle : s.engine.isIdle = true) (free : s.takes m = []) :
    (s.act m).engine.isIdle = true := by
  by_cases callers : m.isCallers = true
  · cases called_act s callers with
    | apart stands _ | wrote stands _ => rw [isIdle, stands.activity, ← isIdle, idle]
    | started _ same => rw [same]; rfl
    | dismissed _ same => rw [same]; rfl
  · cases m with
    | work clock =>
        cases found : s.engine.worker with
        | none => simpa [act, Engine.step, found] using idle
        | some w =>
            obtain ⟨stop, activity⟩ := w
            cases activity with
            | holding | loading | checking | refreshing =>
                simp [isIdle, activity?, found, Activity.isTask] at idle
            | starting | failing | failed | finished =>
                simp [act, Engine.step, found, isIdle, activity?, Activity.isTask]
            | waiting =>
                simp only [act, Engine.step, found]
                simp only [takes, Engine.step, found] at free
                split
                · simp [isIdle, activity?, Activity.isTask]
                · rename_i popped
                  simp [popped, held?] at free
                · simpa using idle
    | filesRead | commandEnded => rw [act_of_idle idle rfl rfl, idle]
    | _ => simp [Move.isCallers] at callers

/-- A task since the worker took it: some of its sources are done, and the worker turned to the next
one at some moment. -/
structure Reaches (s : Session) (t : Task) (doing : List Move) (done rest : List LiveSource) :
    Prop where
  parts : t.sources = done ++ rest
  ahead : Ahead (s.run doing).engine t rest
  published : (s.run doing).engine.suggestors = s.engine.suggestors
  entries : ∀ cell, cell ∉ done.map (·.cell) → Unwritten cell doing →
    (s.run doing).engine.snapshotOf cell = s.engine.snapshotOf cell
  turned : ∃ early late, doing = early ++ late ∧ Faces (s.run early).engine t rest ∧
    ∀ cell, Unwritten cell late →
      (s.run doing).engine.snapshotOf cell = (s.run early).engine.snapshotOf cell

/-- Until it takes another task, the worker reaches the sources of its task one after the other, or
has ended the task. -/
theorem reaches_run {s : Session} {t : Task} (holds : s.engine.held? = some t)
    {doing : List Move} (one : s.taken doing = []) :
    (s.run doing).engine.isIdle = true ∨ ∃ done rest, Reaches s t doing done rest := by
  -- from the end: a move goes on with what the moves before it reached
  induction doing using List.reverseRecOn with
  | nil =>
      have faces : Faces s.engine t t.sources := .held (activity?_of_held? holds)
      exact .inr ⟨[], t.sources, rfl, .faces faces, rfl, fun _ _ _ => rfl,
        [], [], rfl, faces, fun _ _ => rfl⟩
  | append_singleton doing m ih =>
      rw [taken_append] at one
      obtain ⟨before, now⟩ := List.append_eq_nil_iff.mp one
      have free : (s.run doing).takes m = [] := by simpa [taken] using now
      have last : s.run (doing ++ [m]) = (s.run doing).act m := by simp
      rw [last]
      obtain idle | ⟨done, rest, reaches⟩ := ih before
      · exact .inl (idle_act idle free)
      · cases goes_act reaches.ahead m with
        | ends idle => exact .inl idle
        | stays ahead published entries =>
            obtain ⟨early, late, split, faces, since⟩ := reaches.turned
            refine .inr ⟨done, rest, reaches.parts, last ▸ ahead,
              last ▸ published.trans reaches.published, ?_, early, late ++ [m], ?_, faces, ?_⟩
            · intro cell apart unwritten
              obtain ⟨before, here⟩ := unwritten_append.mp unwritten
              rw [last, entries cell here, reaches.entries cell apart before]
            · rw [split, List.append_assoc]
            · intro cell unwritten
              obtain ⟨before, here⟩ := unwritten_append.mp unwritten
              rw [last, entries cell here, since cell before]
        | @passes source rest faces published entries =>
            refine .inr ⟨done ++ [source], rest, ?_, last ▸ .faces faces,
              last ▸ published.trans reaches.published, ?_, doing ++ [m], [], ?_, last ▸ faces,
              fun _ _ => rfl⟩
            · rw [reaches.parts, List.append_assoc]
              rfl
            · intro cell apart unwritten
              obtain ⟨before, here⟩ := unwritten_append.mp unwritten
              obtain ⟨earlier, other⟩ : cell ∉ done.map (·.cell) ∧ cell ≠ source.cell := by
                simpa using apart
              rw [last, entries cell other here, reaches.entries cell earlier before]
            · rw [List.append_nil]

theorem takes_of_idle {s : Session} {m : Move} (idle : (s.act m).engine.isIdle = true) :
    s.takes m = [] := by
  cases m with
  | work clock =>
      cases stepped : s.engine.step clock with
      | none => simp [takes, stepped]
      | some next =>
          cases held : next.held? with
          | none => simp [takes, stepped, held]
          | some t =>
              simp [act, stepped, isIdle, activity?_of_held? held, Activity.isTask] at idle
  | _ => rfl

end Session

end LineCompletion

import LineCompletion.Proofs.Engine.Progress

/-! # Tasks that fail

A task fails with an error of its own, and the worker tells the error and is gone. Until another
worker is started nothing is taken out of the queue and nothing is published. A task that refreshes
several sources fails at one of them: the sources before it keep what was published for them, and
the entries of the others are what they were.
-/

namespace LineCompletion

namespace Engine

open Session (Move)

/-- How a move makes the task of the worker fail, and with which error. -/
inductive Fails (e : Engine) : Move → EngineError → Prop where
  | unreadable {path : String} {cause : LoadError} (loads : e.activity? = some (.loading path)) :
      Fails e (.filesRead (.error cause)) (.load cause)
  | invalid {path : String} {library : Library Source} {cause : ConfigurationError}
      (loads : e.activity? = some (.loading path))
      (broken : prepare e.context e.options e.nextCell library.dictionaries = .error cause) :
      Fails e (.filesRead (.ok library)) (.configuration cause)
  | unbound {clock : Clock} {source : LiveSource} {suggested : Bool}
      (begins : e.beginning? clock = some (source, suggested))
      (dynamic : source.isDynamic = true) (unbound : source.context = none) :
      Fails e (.work clock) (.source (.notBound source.name))
  | failed {refresh : Refresh} {rest : List LiveSource} {now : Moment} {message : String}
      (refreshes : e.activity? = some (.refreshing refresh rest)) :
      Fails e (.commandEnded now (.failed message)) (.source (.failed refresh.command message))
  | panicked {refresh : Refresh} {rest : List LiveSource} {now : Moment} {payload : Payload}
      (refreshes : e.activity? = some (.refreshing refresh rest)) :
      Fails e (.commandEnded now (.panicked payload)) (.panicked payload.message)

theorem of_beginning? {e : Engine} {clock : Clock} {source : LiveSource} {suggested : Bool}
    (begins : e.beginning? clock = some (source, suggested)) :
    ∃ directory, e.activity? = some (.holding (.refreshSource source directory suggested)) ∨
      ∃ rest, e.activity? = some (.checking (source :: rest) directory) ∧
        source.needsRefresh e.caches clock directory = true := by
  unfold beginning? at begins
  split at begins
  · rename_i stop own directory asked found
    obtain ⟨rfl, rfl⟩ : own = source ∧ asked = suggested := by simpa using begins
    exact ⟨directory, .inl (by simp [activity?, found])⟩
  · rename_i stop own rest directory found
    split at begins
    · rename_i due
      obtain ⟨rfl, -⟩ : own = source ∧ false = suggested := by simpa using begins
      exact ⟨directory, .inr ⟨rest, by simp [activity?, found], due⟩⟩
    · simp at begins
  · simp at begins

end Engine

namespace Session

open Engine

theorem begins_work {s : Session} {clock : Clock} {source : LiveSource} {suggested : Bool}
    (begins : s.engine.beginning? clock = some (source, suggested)) :
    ∃ a directory rest, s.engine.activity? = some a ∧ s.act (.work clock) =
      { s with engine := s.engine.beginRefresh source directory rest } := by
  obtain ⟨directory, holds | ⟨rest, checks, due⟩⟩ := of_beginning? begins
  · obtain ⟨stop, found⟩ := worker_of_activity? holds
    exact ⟨_, directory, [], holds, by simp [act, Engine.step, found, begin]⟩
  · obtain ⟨stop, found⟩ := worker_of_activity? checks
    exact ⟨_, directory, rest, checks, by simp [act, Engine.step, found, due]⟩

/-- With the move that makes its task fail, nothing is published and no entries change. -/
theorem fails_act {s : Session} {m : Move} {cause : EngineError} (fails : Fails s.engine m cause) :
    (s.act m).engine.activity? = some (.failing cause) ∧ Keeps s.engine (s.act m).engine := by
  have become (a : Activity) (doing : s.engine.activity? = some a)
      (failed : (s.act m).engine = s.engine.become (.failing cause)) :
      (s.act m).engine.activity? = some (.failing cause) ∧ Keeps s.engine (s.act m).engine := by
    rw [failed]
    exact ⟨by simp [doing], .become _ _⟩
  cases fails with
  | unreadable loads =>
      obtain ⟨stop, found⟩ := worker_of_activity? loads
      exact become _ loads (by simp [act, afterFiles?, found, Engine.loaded])
  | invalid loads broken =>
      obtain ⟨stop, found⟩ := worker_of_activity? loads
      exact become _ loads (by simp [act, afterFiles?, found, Engine.loaded, broken])
  | failed refreshes | panicked refreshes =>
      obtain ⟨stop, found⟩ := worker_of_activity? refreshes
      exact become _ refreshes (by simp [act, afterCommand?, found, ran])
  | @unbound clock source suggested begins dynamic unbound =>
      obtain ⟨a, directory, rest, doing, began⟩ := begins_work begins
      have fails : source.startRefresh s.engine.caches directory =
          .failed (.notBound source.name) :=
        LiveSource.startRefresh_eq_failed_iff.mpr ⟨dynamic, unbound, rfl⟩
      refine ⟨?_, keeps_work s clock⟩
      rw [began, activity?_beginRefresh doing, fails]
      rfl

/-- A worker that begins no refresh fails with no step of its own. -/
theorem not_failing_work {s : Session} {clock : Clock} {cause : EngineError}
    (sound : ∀ earlier, s.engine.activity? ≠ some (.failing earlier))
    (begins : s.engine.beginning? clock = none) :
    (s.act (.work clock)).engine.activity? ≠ some (.failing cause) := by
  cases found : s.engine.worker with
  | none => simp [act, Engine.step, found, activity?]
  | some w =>
      obtain ⟨stop, activity⟩ := w
      cases activity with
      | starting | loading | refreshing | failed | finished =>
          simp [act, Engine.step, found, activity?]
      | failing earlier => exact absurd (by simp [activity?, found]) (sound earlier)
      | waiting =>
          simp only [act, Engine.step, found]
          split <;> simp [activity?, found]
      | holding t =>
          cases t with
          | refreshSource source directory suggested => simp [beginning?, found] at begins
          | load | refreshDictionary | barrier =>
              simp [act, Engine.step, found, begin, activity?]
      | checking sources directory =>
          cases sources with
          | nil => simp [act, Engine.step, found, activity?]
          | cons source rest =>
              have fresh : source.needsRefresh s.engine.caches clock directory = false := by
                simpa [beginning?, found] using begins
              simp [act, Engine.step, found, fresh, activity?]

/-- A task fails in no other way. -/
theorem fails_of_failing {s : Session} {m : Move} {cause : EngineError}
    (sound : ∀ earlier, s.engine.activity? ≠ some (.failing earlier))
    (failing : (s.act m).engine.activity? = some (.failing cause)) : Fails s.engine m cause := by
  by_cases callers : m.isCallers = true
  · cases called_act s callers with
    | apart stands _ | wrote stands _ =>
        exact absurd (stands.activity.symm.trans failing) (sound cause)
    | started _ same => simp [same, activity?] at failing
    | dismissed _ same => simp [same, activity?, dismiss] at failing
  · cases m with
    | work clock =>
        cases begins : s.engine.beginning? clock with
        | some b =>
            obtain ⟨source, suggested⟩ := b
            obtain ⟨a, directory, rest, doing, began⟩ := begins_work begins
            rw [began, activity?_beginRefresh doing] at failing
            cases start : source.startRefresh s.engine.caches directory with
            | done | running => simp [start, afterStart] at failing
            | failed own =>
                obtain rfl : .source own = cause := by simpa [start, afterStart] using failing
                obtain ⟨dynamic, unbound, rfl⟩ := LiveSource.startRefresh_eq_failed_iff.mp start
                exact .unbound begins dynamic unbound
        | none => exact absurd failing (not_failing_work sound begins)
    | filesRead result =>
        obtain ⟨_, still⟩ | ⟨path, loads, read⟩ := filesRead_cases s result
        · exact absurd (still ▸ failing) (sound cause)
        · rw [read] at failing
          cases result with
          | error own =>
              obtain rfl : .load own = cause := by simpa [Engine.loaded, loads] using failing
              exact .unreadable loads
          | ok library =>
              cases prepared : prepare s.engine.context s.engine.options s.engine.nextCell
                  library.dictionaries with
              | error own =>
                  obtain rfl : .configuration own = cause := by
                    simpa [Engine.loaded, prepared, loads] using failing
                  exact .invalid loads prepared
              | ok ready => simp [Engine.loaded, prepared] at failing
    | commandEnded now outcome =>
        obtain still | ⟨refresh, rest, refreshes, ended⟩ := commandEnded_cases s now outcome
        · exact absurd (still ▸ failing) (sound cause)
        · rw [ended] at failing
          cases outcome with
          | items items => simp [ran] at failing
          | failed message =>
              obtain rfl : .source (.failed refresh.command message) = cause := by
                simpa [ran, refreshes] using failing
              exact .failed refreshes
          | panicked payload =>
              obtain rfl : .panicked payload.message = cause := by
                simpa [ran, refreshes] using failing
              exact .panicked refreshes
    | _ => simp [Move.isCallers] at callers

/-- The worker of a task that failed is on its way out, or gone, after some moves. -/
inductive Leaving (e : Engine) (cause : EngineError) (later : List Move) : Prop where
  | failing (fails : e.activity? = some (.failing cause))
      (steps : later.countP Move.isWork = 0) : Leaving e cause later
  | failed (told : e.activity? = some .failed) (fault : e.fault = some cause)
      (steps : later.countP Move.isWork = 1) : Leaving e cause later
  | finished (gone : e.activity? = some .finished) (fault : e.fault = some cause)
      (state : e.state = .faulted) (steps : 2 ≤ later.countP Move.isWork) : Leaving e cause later
  | dismissed (none : e.activity? = none) (fault : e.fault = some cause)
      (steps : 2 ≤ later.countP Move.isWork) (told : .dismiss ∈ later) : Leaving e cause later

theorem Leaving.idle {e : Engine} {cause : EngineError} {later : List Move}
    (leaving : Leaving e cause later) : e.isIdle = true := by
  cases leaving with
  | failing doing | failed doing | finished doing | dismissed doing =>
      simp [isIdle, doing, Activity.isTask]

theorem leaving_act {s : Session} {m : Move} {cause : EngineError} {later : List Move}
    (leaving : Leaving s.engine cause later) (alone : m = .start → .dismiss ∉ later) :
    Leaving (s.act m).engine cause (later ++ [m]) := by
  have count : (later ++ [m]).countP Move.isWork =
      later.countP Move.isWork + if m.isWork then 1 else 0 := by
    rw [List.countP_append, List.countP_singleton]
  by_cases work : m.isWork = true
  · cases m with
    | work clock =>
        -- it takes two of its own steps to tell the error and to be gone
        cases leaving with
        | failing doing steps =>
            obtain ⟨stop, found⟩ := worker_of_activity? doing
            refine .failed ?_ ?_ (by rw [count, steps]; rfl) <;>
              simp [act, Engine.step, found, activity?, become]
        | failed doing told steps =>
            obtain ⟨stop, found⟩ := worker_of_activity? doing
            refine .finished ?_ ?_ ?_ (by rw [count, steps]; exact Nat.le_refl 2) <;>
              simp [act, Engine.step, found, activity?, become, told]
        | finished doing told reported steps =>
            obtain ⟨stop, found⟩ := worker_of_activity? doing
            have still : s.act (.work clock) = s := by simp [act, Engine.step, found]
            rw [still]
            exact .finished doing told reported (by omega)
        | dismissed none told steps gone =>
            have still : s.act (.work clock) = s := by
              simp [act, Engine.step, Option.map_eq_none_iff.mp none]
            rw [still]
            exact .dismissed none told (by omega) (List.mem_append_left _ gone)
    | _ => simp [Move.isWork] at work
  · replace count : (later ++ [m]).countP Move.isWork = later.countP Move.isWork := by
      simp [work]
    have unmoved {next : Engine} (stands : Stands s.engine next) :
        Leaving next cause (later ++ [m]) := by
      obtain ⟨activity, fault, state⟩ := stands
      cases leaving with
      | failing doing steps => exact .failing (activity.trans doing) (count.trans steps)
      | failed doing told steps =>
          exact .failed (activity.trans doing) (fault.trans told) (count.trans steps)
      | finished doing told reported steps =>
          exact .finished (activity.trans doing) (fault.trans told) (state.trans reported)
            (count ▸ steps)
      | dismissed none told steps gone =>
          exact .dismissed (activity.trans none) (fault.trans told) (count ▸ steps)
            (List.mem_append_left _ gone)
    by_cases callers : m.isCallers = true
    · cases called_act s callers with
      | apart stands _ | wrote stands _ => exact unmoved stands
      | started none =>
          cases leaving with
          | failing doing | failed doing | finished doing => simp [doing] at none
          | dismissed _ _ _ gone => exact absurd gone (alone rfl)
      | dismissed gone same =>
          cases leaving with
          | failing doing | failed doing | dismissed doing => simp [doing] at gone
          | finished _ told _ steps =>
              rw [same]
              exact .dismissed rfl told (count ▸ steps) (by simp)
    · rw [act_of_idle leaving.idle (by simpa using callers) (by simpa using work)]
      exact unmoved ⟨rfl, rfl, rfl⟩

/-- What is left of a session whose worker has failed, some moves later. -/
structure Halted (s : Session) (cause : EngineError) (later : List Move) : Prop where
  leaving : Leaving (s.run later).engine cause later
  taken : s.taken later = []
  published : (s.run later).engine.suggestors = s.engine.suggestors
  entries : ∀ cell, Unwritten cell later →
    (s.run later).engine.snapshotOf cell = s.engine.snapshotOf cell

/-- A worker that has failed does nothing more, and until it is dismissed no other is started. -/
theorem halted_run {s : Session} {cause : EngineError}
    (failing : s.engine.activity? = some (.failing cause)) {later : List Move}
    (alone : ∀ before after, later = before ++ .start :: after → .dismiss ∉ before) :
    Halted s cause later := by
  induction later using List.reverseRecOn with
  | nil => exact ⟨.failing failing rfl, rfl, rfl, fun _ _ => rfl⟩
  | append_singleton later m ih =>
      have halted := ih fun before after split =>
        alone before (after ++ [m]) (by simp [split])
      have leaving := leaving_act halted.leaving fun (start : m = .start) =>
        alone later [] (by rw [start])
      have idle := halted.leaving.idle
      have last : s.run (later ++ [m]) = (s.run later).act m := by simp
      refine ⟨last ▸ leaving, ?_, ?_, ?_⟩
      · rw [taken_append, halted.taken]
        simpa [Session.taken] using takes_of_idle leaving.idle
      · rw [last, ← halted.published]
        cases publishing_act (s.run later) m with
        | nothing _ published => exact published
        | ready _ _ loads => simp [isIdle, loads, Activity.isTask] at idle
      · intro cell unwritten
        obtain ⟨before, here⟩ := unwritten_append.mp unwritten
        rw [last, ← halted.entries cell before]
        refine snapshotOf_of_unwritten here fun refresh rest refreshes => ?_
        simp [isIdle, refreshes, Activity.isTask] at idle

/-- What is left of a session `s` in which the worker failed with its task `t` by a move `m`. -/
structure Contained (s : Session) (t : Task) (cause : EngineError) (doing : List Move) (m : Move)
    (later : List Move) : Prop where
  /-- The other tasks wait as they did, those that callers put in behind them. -/
  waiting : (s.run (doing ++ m :: later)).engine.queue.tasks =
    s.engine.queue.tasks ++ s.enqueued (doing ++ m :: later)
  /-- No task is taken. -/
  taken : s.taken (doing ++ m :: later) = []
  /-- None is done. -/
  idle : (s.run (doing ++ m :: later)).engine.isIdle = true
  /-- The error is told, and the worker is gone. -/
  reported : 2 ≤ later.countP Move.isWork →
    (s.run (doing ++ m :: later)).engine.fault = some cause ∧
      (.dismiss ∉ later → (s.run (doing ++ m :: later)).engine.workerFinished = true ∧
        (s.run (doing ++ m :: later)).engine.state = .faulted)
  /-- Nothing is published. -/
  published : (s.run (doing ++ m :: later)).engine.suggestors = s.engine.suggestors
  /-- Of the sources only those before the one that failed have other entries, and none has since
  the worker turned to that one. -/
  entries : ∃ done rest early late, t.sources = done ++ rest ∧
    (rest = [] → ∃ path, t = .load path) ∧ doing = early ++ late ∧
    Ahead (s.run doing).engine t rest ∧ Faces (s.run early).engine t rest ∧
    (∀ cell, cell ∉ done.map (·.cell) → Unwritten cell (doing ++ m :: later) →
      (s.run (doing ++ m :: later)).engine.snapshotOf cell = s.engine.snapshotOf cell) ∧
    ∀ cell, Unwritten cell (late ++ m :: later) →
      (s.run (doing ++ m :: later)).engine.snapshotOf cell = (s.run early).engine.snapshotOf cell

theorem not_idle_of_fails {e : Engine} {m : Move} {cause : EngineError} (fails : Fails e m cause) :
    e.isIdle = false := by
  cases fails with
  | unreadable doing | invalid doing | failed doing | panicked doing =>
      simp [isIdle, doing, Activity.isTask]
  | unbound begins =>
      obtain ⟨directory, doing | ⟨rest, doing, _⟩⟩ := of_beginning? begins <;>
        simp [isIdle, doing, Activity.isTask]

/-- Only a load fails with no source ahead. -/
theorem load_of_fails {e : Engine} {t : Task} {m : Move} {cause : EngineError}
    (ahead : Ahead e t []) (fails : Fails e m cause) : ∃ path, t = .load path := by
  generalize none : ([] : List LiveSource) = rest at ahead
  cases ahead with
  | loaded load => exact ⟨_, load⟩
  | refreshed => simp at none
  | faces faces =>
      -- the worker has its task, or goes over sources, and fails with none of these
      exfalso
      cases fails with
      | unreadable doing | invalid doing | failed doing | panicked doing =>
          cases faces with
          | held busy | checked busy => simp [busy] at doing
      | unbound begins =>
          obtain ⟨directory, doing | ⟨later, doing, _⟩⟩ := of_beginning? begins
          · cases faces with
            | held holds =>
                obtain rfl : t = _ := by simpa [holds] using doing
                simp [Task.sources] at none
            | checked checks => simp [checks] at doing
          · cases faces with
            | held holds => simp [holds] at doing
            | checked checks =>
                obtain ⟨rfl, -⟩ : rest = _ ∧ _ := by simpa [checks] using doing
                simp at none

/-- A dictionary in use whose second source cannot be refreshed outside of a repository. -/
def remotes : Dictionary LiveSource :=
  let source (cell : CellId) (name command : String) : LiveSource :=
    { name, provider := .dynamic command, cell, context := some 0 }
  ((Dictionary.ofCommand "git").withParameter
      ((Parameter.positional "alias").withSource (source 0 "aliases" "git alias"))).withParameter
    ((Parameter.positional "remote").withSource (source 1 "remotes" "git remote"))

/-- A worker has taken the refresh of the dictionary, and a load waits. -/
def refreshRemotes : Session :=
  (fresh {} 0).run [.start, .work fun _ => 0, .refreshDictionary remotes none,
    .requestLoad "git.json", .work fun _ => 0]

/-- The worker refreshes the first source and begins to refresh the second. -/
def reachRemotes : List Move :=
  [.work fun _ => 0, .work fun _ => 0, .commandEnded 0 (.items []), .work fun _ => 0]

-- a breakdown that leaves no text behind is told in words of its own
example :
    (refreshRemotes.run (reachRemotes ++
      [.commandEnded 1 (.panicked .other), .work fun _ => 1, .work fun _ => 1])).engine.fault =
        some (.panicked "unknown panic payload") := by
  rfl

end Session

end LineCompletion

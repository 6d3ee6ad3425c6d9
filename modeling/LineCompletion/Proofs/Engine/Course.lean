import LineCompletion.Proofs.Engine.Progress

/-! # The course of a worker

A worker is started, opens, takes one task after the other, and is gone when it is told to stop or a
task fails. What is told of it changes at four of these turns only: its state where it is started,
opens, is gone or is dismissed, and the fault where the worker of a failed task tells it. That is
one step before the state, so the two are told one after the other.
-/

namespace LineCompletion

namespace Activity

def isUnderWay : Activity → Bool
  | .loading _ | .checking .. | .refreshing .. => true
  | _ => false

/-- Whether a worker that does this takes no more tasks. -/
def isLeaving : Activity → Bool
  | .failing _ | .failed | .finished => true
  | _ => false

theorem not_isLeaving_of_isTask {a : Activity} (task : a.isTask = true) : a.isLeaving = false := by
  cases a with
  | failing | failed | finished => simp [isTask] at task
  | _ => rfl

theorem not_isLeaving_of_isUnderWay {a : Activity} (still : a.isUnderWay = true) :
    a.isLeaving = false := by
  cases a with
  | failing | failed | finished => simp [isUnderWay] at still
  | _ => rfl

end Activity

namespace Engine

open Session (Move)

def isWaiting (e : Engine) : Bool :=
  match e.activity? with
  | some .waiting => true
  | _ => false

def stop? (e : Engine) : Option Bool :=
  e.worker.map (·.stop)

def isStopping (e : Engine) : Bool :=
  e.stop? == some true

/-- A worker goes from one activity to another, of which nothing is told. -/
structure Passes (e next : Engine) (a b : Activity) : Prop where
  was : e.activity? = some a
  now : next.activity? = some b
  state : next.state = e.state
  fault : next.fault = e.fault

/-- What becomes of the worker, and what is told of it. -/
inductive Course (e next : Engine) : Prop where
  | stands (same : Stands e next)
  | starts (none : e.activity? = none) (now : next.activity? = some .starting)
      (state : next.state = .starting) (fault : next.fault = e.fault)
  | dismissed (gone : e.activity? = some .finished) (now : next.activity? = none)
      (state : next.state = .stopped) (fault : next.fault = e.fault)
  | opens (was : e.activity? = some .starting) (now : next.activity? = some .waiting)
      (state : next.state = .running) (fault : next.fault = e.fault)
  | stops (was : e.activity? = some .waiting) (told : e.isStopping = true)
      (now : next.activity? = some .finished) (state : next.state = .stopped)
      (fault : next.fault = e.fault)
  | takes {t : Task} (passes : Passes e next .waiting (.holding t))
  | goesOn {a b : Activity} (task : a.isTask = true) (passes : Passes e next a b)
      (still : b.isUnderWay = true) (other : ∀ ticket, a ≠ .holding (.barrier ticket))
  | completes {a : Activity} (task : a.isTask = true) (passes : Passes e next a .waiting)
  | fails {a : Activity} {cause : EngineError} (task : a.isTask = true)
      (passes : Passes e next a (.failing cause))
      (other : ∀ ticket, a ≠ .holding (.barrier ticket))
  | tells {cause : EngineError} (was : e.activity? = some (.failing cause))
      (now : next.activity? = some .failed) (state : next.state = e.state)
      (fault : next.fault = some cause)
  | quits (was : e.activity? = some .failed) (now : next.activity? = some .finished)
      (state : next.state = .faulted) (fault : next.fault = e.fault)

theorem Course.refl (e : Engine) : Course e e :=
  .stands ⟨rfl, rfl, rfl⟩

@[simp] theorem stop?_become (e : Engine) (a : Activity) : (e.become a).stop? = e.stop? := by
  cases found : e.worker with
  | none => simp [stop?, found]
  | some w => simp [stop?, found]

theorem stop?_beginRefresh (e : Engine) (s : LiveSource) (directory : Option String)
    (rest : List LiveSource) : (e.beginRefresh s directory rest).stop? = e.stop? := by
  simp only [beginRefresh]
  split <;> exact stop?_become _ _

theorem stop?_begin (e : Engine) (t : Task) : (e.begin t).stop? = e.stop? := by
  cases t with
  | load | refreshDictionary => exact stop?_become e _
  | refreshSource source directory suggested => exact stop?_beginRefresh e source directory []
  | barrier ticket => exact stop?_become { e with reached := ticket :: e.reached } _

theorem isWaiting_iff {e : Engine} : e.isWaiting = true ↔ e.activity? = some .waiting := by
  unfold isWaiting
  split <;> simp_all

theorem held?_eq_some_iff {e : Engine} {t : Task} :
    e.held? = some t ↔ e.activity? = some (.holding t) := by
  refine ⟨activity?_of_held?, fun holds => ?_⟩
  obtain ⟨stop, found⟩ := worker_of_activity? holds
  simp [held?, found]

theorem held?_congr {e next : Engine} (same : next.activity? = e.activity?) :
    next.held? = e.held? := by
  ext t
  rw [held?_eq_some_iff, held?_eq_some_iff, same]

theorem held?_of_other {e : Engine} {a : Activity} (does : e.activity? = some a)
    (other : ∀ t, a ≠ .holding t) : e.held? = none := by
  cases held : e.held? with
  | none => rfl
  | some t => exact absurd (Option.some.inj (does.symm.trans (activity?_of_held? held))) (other t)

theorem held?_of_waiting {e : Engine} (waits : e.isWaiting = true) : e.held? = none :=
  held?_of_other (isWaiting_iff.mp waits) (by simp)

theorem workerFinished_iff {e : Engine} :
    e.workerFinished = true ↔ e.activity? = some .finished := by
  unfold workerFinished
  split
  · rename_i found
    simp [activity?, found]
  · rename_i other
    simp only [Bool.false_eq_true, false_iff]
    intro gone
    obtain ⟨stop, found⟩ := worker_of_activity? gone
    exact other _ found

theorem worker_eq_none_iff {e : Engine} : e.worker = none ↔ e.activity? = none := by
  simp [activity?]

theorem stop?_eq_none_iff {e : Engine} : e.stop? = none ↔ e.activity? = none := by
  simp [stop?, activity?]

theorem Passes.become {e : Engine} {a : Activity} (was : e.activity? = some a) (b : Activity) :
    Passes e (e.become b) a b :=
  ⟨was, by simp [was], rfl, rfl⟩

/-- A worker that begins a refresh goes on with its task, or the task fails. -/
theorem course_beginRefresh {e : Engine} {a : Activity} (was : e.activity? = some a)
    (task : a.isTask = true) (other : ∀ ticket, a ≠ .holding (.barrier ticket))
    (s : LiveSource) (directory : Option String) (rest : List LiveSource) :
    Course e (e.beginRefresh s directory rest) := by
  have now := activity?_beginRefresh was s directory rest
  have state : (e.beginRefresh s directory rest).state = e.state := by
    simp only [beginRefresh]
    split <;> rfl
  have fault : (e.beginRefresh s directory rest).fault = e.fault := by
    simp only [beginRefresh]
    split <;> rfl
  cases start : s.startRefresh e.caches directory with
  | done =>
      rw [start] at now
      exact .goesOn task ⟨was, now, state, fault⟩ rfl other
  | failed cause =>
      rw [start] at now
      exact .fails task ⟨was, now, state, fault⟩ other
  | running refresh =>
      rw [start] at now
      exact .goesOn task ⟨was, now, state, fault⟩ rfl other

theorem course_begin {e : Engine} {t : Task} (holds : e.activity? = some (.holding t)) :
    Course e (e.begin t) := by
  cases t with
  | load path => exact .goesOn rfl (.become holds _) rfl (by simp)
  | refreshSource source directory suggested =>
      exact course_beginRefresh holds rfl (by simp) source directory []
  | refreshDictionary dictionary directory => exact .goesOn rfl (.become holds _) rfl (by simp)
  | barrier ticket =>
      obtain ⟨stop, found⟩ := worker_of_activity? holds
      exact .completes rfl ⟨holds, by simp [begin, activity?, found], rfl, rfl⟩

/-- The worker takes its course, and neither goes away nor changes whether it is told to stop. -/
theorem course_step {clock : Clock} {e next : Engine} (stepped : e.step clock = some next) :
    Course e next ∧ next.stop? = e.stop? := by
  unfold step at stepped
  cases found : e.worker with
  | none => simp [found] at stepped
  | some w =>
      obtain ⟨stop, activity⟩ := w
      have was : e.activity? = some activity := by simp [activity?, found]
      have same : e.stop? = some stop := by simp [stop?, found]
      simp only [found] at stepped
      rw [same]
      cases activity with
      | starting =>
          obtain rfl := Option.some.inj stepped
          exact ⟨.opens was rfl rfl rfl, rfl⟩
      | waiting =>
          cases popped : e.queue.pop stop with
          | mk answer queue =>
              simp only [popped] at stepped
              cases answer with
              | stopped =>
                  obtain rfl := Option.some.inj stepped
                  have told : stop = true := by
                    unfold TaskQueue.pop at popped
                    split at popped
                    · assumption
                    · split at popped <;> simp at popped
                  exact ⟨.stops was (by simp [isStopping, same, told]) rfl rfl rfl, rfl⟩
              | task t =>
                  obtain rfl := Option.some.inj stepped
                  exact ⟨.takes (t := t) ⟨was, rfl, rfl, rfl⟩, rfl⟩
              | waits => simp at stepped
      | holding t =>
          obtain rfl := Option.some.inj stepped
          exact ⟨course_begin was, (stop?_begin e t).trans same⟩
      | checking sources directory =>
          cases sources with
          | nil =>
              obtain rfl := Option.some.inj stepped
              exact ⟨.completes rfl (.become was _), (stop?_become e _).trans same⟩
          | cons s rest =>
              simp only at stepped
              split at stepped
              · obtain rfl := Option.some.inj stepped
                exact ⟨course_beginRefresh was rfl (by simp) s directory rest,
                  (stop?_beginRefresh e s directory rest).trans same⟩
              · obtain rfl := Option.some.inj stepped
                exact ⟨.goesOn rfl (.become was _) rfl (by simp), (stop?_become e _).trans same⟩
      | failing cause =>
          obtain rfl := Option.some.inj stepped
          exact ⟨.tells was rfl rfl rfl, rfl⟩
      | failed =>
          obtain rfl := Option.some.inj stepped
          exact ⟨.quits was rfl rfl rfl, rfl⟩
      | loading | refreshing | finished => simp at stepped

theorem Course.of_finished {e next : Engine} (course : Course e next)
    (gone : e.activity? = some .finished) (there : next.activity? ≠ none) : Stands e next := by
  cases course with
  | stands same => exact same
  | dismissed _ none => exact absurd none there
  | starts was => simp [was] at gone
  | opens was | stops was | tells was | quits was => simp [was] at gone
  | takes turned => simp [turned.was] at gone
  | goesOn task turned | completes task turned | fails task turned =>
      obtain rfl := Option.some.inj (turned.was.symm.trans gone)
      simp [Activity.isTask] at task

theorem Course.of_holding {e next : Engine} {t : Task} (course : Course e next)
    (holds : next.activity? = some (.holding t)) :
    e.activity? = some .waiting ∨ e.activity? = some (.holding t) := by
  cases course with
  | stands same => exact .inr (same.activity.symm.trans holds)
  | takes passes => exact .inl passes.was
  | goesOn task passes still =>
      obtain rfl := Option.some.inj (passes.now.symm.trans holds)
      simp [Activity.isUnderWay] at still
  | completes task passes => simp [passes.now] at holds
  | fails task passes => simp [passes.now] at holds
  | starts _ now | dismissed _ now | opens _ now | stops _ _ now | tells _ now | quits _ now =>
      simp [now] at holds

end Engine

namespace Session

open Engine

/-- What a move makes of the worker. -/
theorem course_act (s : Session) (m : Move) : Course s.engine (s.act m).engine := by
  by_cases callers : m.isCallers = true
  · cases called_act s callers with
    | apart stands _ => exact .stands stands
    | wrote stands _ => exact .stands stands
    | started none same =>
        rw [same]
        exact .starts none rfl rfl rfl
    | dismissed gone same =>
        rw [same]
        exact .dismissed gone rfl rfl rfl
  · cases m with
    | work clock =>
        cases stepped : s.engine.step clock with
        | none => simpa [act, stepped] using Course.refl s.engine
        | some next => simpa [act, stepped] using (course_step stepped).1
    | filesRead result =>
        obtain ⟨_, still⟩ | ⟨path, loads, read⟩ := filesRead_cases s result
        · rw [still]
          exact .refl s.engine
        · rw [read]
          obtain ⟨cause, fails, _⟩ | ⟨_, suggestors, cell, _, _, ready⟩ :=
            loaded_cases s.engine result
          · rw [fails]
            exact .fails rfl (.become loads _) (by simp)
          · rw [ready]
            obtain ⟨stop, found⟩ := worker_of_activity? loads
            exact .completes rfl ⟨loads, by simp [activity?, publish, found], rfl, rfl⟩
    | commandEnded now outcome =>
        obtain still | ⟨refresh, rest, refreshes, ended⟩ := commandEnded_cases s now outcome
        · rw [still]
          exact .refl s.engine
        · rw [ended]
          cases outcome with
          | items items =>
              obtain ⟨stop, found⟩ := worker_of_activity? refreshes
              exact .goesOn (b := .checking rest refresh.directory) rfl
                ⟨refreshes, by simp [ran, activity?, found], rfl, rfl⟩ rfl (by simp)
          | failed message => exact .fails rfl (.become refreshes _) (by simp)
          | panicked payload => exact .fails rfl (.become refreshes _) (by simp)
    | _ => simp [Move.isCallers] at callers

theorem held?_act_of_not_work {s : Session} {m : Move} (work : m.isWork = false) :
    (s.act m).engine.held? = s.engine.held? := by
  by_cases callers : m.isCallers = true
  · cases called_act s callers with
    | apart stands _ => exact held?_congr stands.activity
    | wrote stands _ => exact held?_congr stands.activity
    | started none same =>
        rw [same]
        simp [held?, worker_eq_none_iff.mpr none]
    | dismissed gone same =>
        obtain ⟨stop, found⟩ := worker_of_activity? gone
        rw [same]
        simp [held?, dismiss, found]
  · cases m with
    | filesRead | commandEnded => exact (act_quiet rfl).1.held
    | work => simp [Move.isWork] at work
    | _ => simp [Move.isCallers] at callers

/-- The moves for which a caller needs the engine for itself. -/
def Move.isExclusive : Move → Bool
  | .start | .requestStop | .dismiss => true
  | _ => false

/-- No other move changes who the worker is and whether it is told to stop. -/
theorem stop?_act {s : Session} {m : Move} (shared : m.isExclusive = false) :
    (s.act m).engine.stop? = s.engine.stop? := by
  cases m with
  | start | requestStop | dismiss => simp [Move.isExclusive] at shared
  | requestLoad | refreshSource | refreshDictionary | setRefreshOnSuggest | writeCache => rfl
  | suggest request =>
      obtain still | ⟨sources, directory, added⟩ := act_suggest s request
      · rw [still]
      · rw [added]
  | goOn caller clock =>
      cases found : s.asking[caller]? with
      | none => simp only [act, found]
      | some a =>
          have same : (a.step clock s.engine).1.worker = s.engine.worker := by
            cases a with
            | looking sources directory =>
                cases sources with
                | nil => rfl
                | cons source rest =>
                    simp only [Asking.step]
                    split <;> rfl
            | marking | queueing => rfl
          simp only [act, found, stop?, same]
  | putBarrier =>
      cases found : s.engine.worker with
      | none => simp only [act, putBarrier, found]
      | some w => simp [act, putBarrier, stop?, enqueue, found]
  | work clock =>
      cases stepped : s.engine.step clock with
      | none => simp [act, stepped]
      | some next => simpa [act, stepped] using (course_step stepped).2
  | filesRead result =>
      obtain ⟨_, still⟩ | ⟨path, _, read⟩ := filesRead_cases s result
      · rw [still]
      · rw [read]
        obtain ⟨cause, fails, _⟩ | ⟨_, suggestors, cell, _, _, ready⟩ :=
          loaded_cases s.engine result
        · simp [fails]
        · rw [ready]
          exact stop?_become _ _
  | commandEnded now outcome =>
      obtain still | ⟨refresh, rest, _, ended⟩ := commandEnded_cases s now outcome
      · rw [still]
      · rw [ended]
        cases outcome <;> exact stop?_become _ _

/-- Where a worker is told to stop, it is so until it is dismissed. -/
theorem isStopping_act {s : Session} (told : s.engine.isStopping = true) (m : Move) :
    (m = .dismiss ∧ (s.act m).engine.activity? = none) ∨
      (s.act m).engine.isStopping = true := by
  by_cases exclusive : m.isExclusive = true
  · cases found : s.engine.worker with
    | none => simp [isStopping, stop?, found] at told
    | some w =>
        cases m with
        | start =>
            right
            simpa [act, Engine.start, found, Except.toOption] using told
        | requestStop =>
            right
            simp [act, Engine.requestStop, found, Except.toOption, isStopping, stop?]
        | dismiss =>
            simp only [act]
            split
            · exact .inl ⟨trivial, rfl⟩
            · exact .inr told
        | _ => simp [Move.isExclusive] at exclusive
  · right
    rwa [isStopping, stop?_act (by simpa using exclusive), ← isStopping]

end Session

end LineCompletion

import Mathlib.Data.List.Induction
import LineCompletion.Proofs.Engine.Stepwise

/-! # What is told of the worker

The fault and the state of a worker are told one after the other, and the state and the fault are
read one after the other. No worker is started while somebody reads, so whoever reads that the
worker has failed also reads why it did.
-/

namespace LineCompletion

namespace Activity

def isRunning : Activity → Bool
  | .starting | .finished => false
  | _ => true

theorem isRunning_of_isTask {a : Activity} (task : a.isTask = true) : a.isRunning = true := by
  cases a with
  | starting | finished => simp [isTask] at task
  | _ => rfl

theorem isRunning_of_isUnderWay {a : Activity} (still : a.isUnderWay = true) :
    a.isRunning = true := by
  cases a with
  | starting | finished => simp [isUnderWay] at still
  | _ => rfl

end Activity

namespace Engine

/-- How the state that is told agrees with what the worker does. -/
inductive Reported (e : Engine) : Prop where
  | absent (none : e.activity? = none) (state : e.state = .stopped)
  | starting (does : e.activity? = some .starting) (state : e.state = .starting)
  | running {a : Activity} (does : e.activity? = some a) (runs : a.isRunning = true)
      (state : e.state = .running)
  | faulted (gone : e.activity? = some .finished) (state : e.state = .faulted)
  | stopped (gone : e.activity? = some .finished) (told : e.isStopping = true)
      (state : e.state = .stopped)

namespace Reported

variable {e next : Engine}

theorem state_eq_running (reported : Reported e) {a : Activity} (does : e.activity? = some a)
    (runs : a.isRunning = true) : e.state = .running := by
  cases reported with
  | running _ _ state => exact state
  | absent other => simp [other] at does
  | starting other | faulted other | stopped other =>
      obtain rfl := Option.some.inj (other.symm.trans does)
      simp [Activity.isRunning] at runs

theorem finished_of_faulted (reported : Reported e) (state : e.state = .faulted) :
    e.activity? = some .finished := by
  cases reported with
  | faulted gone _ => exact gone
  | absent _ told | starting _ told | running _ _ told | stopped _ _ told => simp [told] at state

/-- While nobody is stopping the worker, it is told of as stopped just if there is none. -/
theorem stopped_iff (reported : Reported e) (free : e.isStopping = false) :
    e.state = .stopped ↔ e.worker = none := by
  rw [worker_eq_none_iff]
  cases reported with
  | absent none state => simp [none, state]
  | starting does state | running does _ state => simp [does, state]
  | faulted gone state => simp [gone, state]
  | stopped _ told => simp [told] at free

theorem course (reported : Reported e) (course : Course e next)
    (kept : e.isStopping = true → next.activity? = none ∨ next.isStopping = true) :
    Reported next := by
  have passes {a b : Activity} (passes : Passes e next a b) (before : a.isRunning = true)
      (after : b.isRunning = true) : Reported next :=
    .running passes.now after (passes.state.trans (reported.state_eq_running passes.was before))
  cases course with
  | stands same =>
      obtain ⟨activity, -, state⟩ := same
      cases reported with
      | absent none told => exact .absent (activity.trans none) (state.trans told)
      | starting does told => exact .starting (activity.trans does) (state.trans told)
      | running does runs told => exact .running (activity.trans does) runs (state.trans told)
      | faulted gone told => exact .faulted (activity.trans gone) (state.trans told)
      | stopped gone stopping told =>
          rcases kept stopping with none | still
          · simp [activity, gone] at none
          · exact .stopped (activity.trans gone) still (state.trans told)
  | starts _ now state => exact .starting now state
  | dismissed _ now state => exact .absent now state
  | opens _ now state => exact .running now rfl state
  | stops _ told now state =>
      rcases kept told with none | still
      · simp [now] at none
      · exact .stopped now still state
  | takes turned => exact passes turned rfl rfl
  | goesOn task turned still =>
      exact passes turned (Activity.isRunning_of_isTask task)
        (Activity.isRunning_of_isUnderWay still)
  | completes task turned => exact passes turned (Activity.isRunning_of_isTask task) rfl
  | fails task turned => exact passes turned (Activity.isRunning_of_isTask task) rfl
  | tells was now state =>
      exact .running now rfl (state.trans (reported.state_eq_running was rfl))
  | quits _ now state => exact .faulted now state

end Reported

/-- The error of a task that has failed and is not told yet. -/
def failing? (e : Engine) : Option EngineError :=
  match e.activity? with
  | some (.failing cause) => some cause
  | _ => none

theorem failing?_eq_none {e : Engine} (stays : ∀ cause, e.activity? ≠ some (.failing cause)) :
    e.failing? = none := by
  unfold failing?
  split
  · rename_i cause fails
    exact absurd fails (stays cause)
  · rfl

theorem failing?_of_stays {e : Engine} {a : Activity} (does : e.activity? = some a)
    (stays : a.isLeaving = false) : e.failing? = none := by
  refine failing?_eq_none fun cause fails => ?_
  obtain rfl := Option.some.inj (fails.symm.trans does)
  simp [Activity.isLeaving] at stays

/-- An error is told next or waits to be told, and the fault is the last one that was told. -/
theorem Course.tells_failures {e next : Engine} (course : Course e next) :
    ∃ told : List EngineError,
      e.failing?.toList ++ (if e.failing?.isNone then next.failing?.toList else []) =
          told ++ next.failing?.toList ∧
        next.fault = told.getLast?.or e.fault := by
  have silent (before : e.failing? = none) (fault : next.fault = e.fault) :
      ∃ told : List EngineError,
        e.failing?.toList ++ (if e.failing?.isNone then next.failing?.toList else []) =
            told ++ next.failing?.toList ∧
          next.fault = told.getLast?.or e.fault :=
    ⟨[], by simp [before], by simp [fault]⟩
  cases course with
  | stands same =>
      have still : next.failing? = e.failing? := by simp only [failing?, same.activity]
      cases before : e.failing? with
      | none => simpa [before] using silent before same.fault
      | some cause => exact ⟨[], by simp [still, before], by simp [same.fault]⟩
  | @tells cause was now _ fault =>
      have before : e.failing? = some cause := by simp only [failing?, was]
      have after : next.failing? = none := by simp only [failing?, now]
      exact ⟨[cause], by simp [before, after], by simp [fault]⟩
  | starts none _ _ fault => exact silent (failing?_eq_none (by simp [none])) fault
  | dismissed was _ _ fault | opens was _ _ fault | stops was _ _ _ fault | quits was _ _ fault =>
      exact silent (failing?_eq_none (by simp [was])) fault
  | takes turned => exact silent (failing?_of_stays turned.was rfl) turned.fault
  | goesOn task turned | completes task turned | fails task turned =>
      exact silent (failing?_of_stays turned.was (Activity.not_isLeaving_of_isTask task))
        turned.fault

end Engine

namespace Stepwise

open Engine

/-- The error with which the task of the worker fails with a move. -/
def fails (x : Stepwise) (m : Move) : Option EngineError :=
  if x.session.engine.failing?.isNone then (x.act m).session.engine.failing? else none

/-- The errors with which tasks fail with some moves, in order. -/
def failures : Stepwise → List Move → List EngineError
  | _, [] => []
  | x, m :: moves => (x.fails m).toList ++ (x.act m).failures moves

/-- The fault is the last of the errors that were told, and they are told in the order in which the
tasks failed. -/
theorem tells_run {x : Stepwise} (sound : x.Sound) (moves : List Move) :
    ∃ told, x.session.engine.failing?.toList ++ x.failures moves =
        told ++ (x.run moves).session.engine.failing?.toList ∧
      (x.run moves).session.engine.fault = told.getLast?.or x.session.engine.fault := by
  induction moves generalizing x with
  | nil => exact ⟨[], by simp [failures], rfl⟩
  | cons m moves ih =>
      obtain ⟨first, split, now⟩ := (course_act sound m).tells_failures
      obtain ⟨rest, later, last⟩ := ih (sound_act sound m)
      have new : (x.fails m).toList = if x.session.engine.failing?.isNone then
          (x.act m).session.engine.failing?.toList else [] := by
        unfold fails
        split <;> rfl
      refine ⟨first ++ rest, ?_, ?_⟩
      · calc x.session.engine.failing?.toList ++ x.failures (m :: moves)
            = (x.session.engine.failing?.toList ++ (x.fails m).toList) ++
                (x.act m).failures moves := by rw [failures, List.append_assoc]
          _ = first ++ ((x.act m).session.engine.failing?.toList ++
                (x.act m).failures moves) := by rw [new, split, List.append_assoc]
          _ = (first ++ rest) ++ ((x.act m).run moves).session.engine.failing?.toList := by
              rw [later, List.append_assoc]
      · rw [run_cons, last, now, List.getLast?_append, Option.or_assoc]

theorem reported_run {x : Stepwise} (sound : x.Sound) (reported : Reported x.session.engine)
    (moves : List Move) : Reported (x.run moves).session.engine := by
  induction moves generalizing x with
  | nil => exact reported
  | cons m moves ih =>
      refine ih (sound_act sound m) (reported.course (course_act sound m) fun told => ?_)
      obtain ⟨-, none⟩ | still := isStopping_act told m
      · exact .inl none
      · exact .inr still

/-- Among some moves is the one with which the task of the present worker failed. -/
def FailedBy (start : Stepwise) (moves : List Move) (cause : EngineError) : Prop :=
  ∃ early m late, moves = early ++ m :: late ∧ (start.run early).fails m = some cause ∧
    (start.run early).session.engine.state = .running ∧
    ∀ part, part <+: late → (start.run (early ++ m :: part)).session.engine.worker ≠ none

theorem FailedBy.concat {start : Stepwise} {moves : List Move} {m : Move} {cause : EngineError}
    (failed : start.FailedBy moves cause)
    (stays : ((start.run moves).act m).session.engine.worker ≠ none) :
    start.FailedBy (moves ++ [m]) cause := by
  obtain ⟨early, own, late, rfl, fails, runs, there⟩ := failed
  refine ⟨early, own, late ++ [m], by simp, fails, runs, fun part before => ?_⟩
  rcases List.prefix_concat_iff.mp before with rfl | before
  · simpa using stays
  · exact there part before

/-- A worker on its way out has failed, and what it has told is the error of its task. -/
structure Explained (start : Stepwise) (moves : List Move) : Prop where
  failing : ∀ cause, (start.run moves).session.engine.activity? = some (.failing cause) →
    start.FailedBy moves cause
  told : (start.run moves).session.engine.activity? = some .failed ∨
      (start.run moves).session.engine.state = .faulted →
    ∃ cause, start.FailedBy moves cause ∧ (start.run moves).session.engine.fault = some cause

section Concat

variable {start : Stepwise} {moves : List Move} {m : Move}

theorem Explained.of_act
    (failing : ∀ cause, ((start.run moves).act m).session.engine.activity? =
      some (.failing cause) → start.FailedBy (moves ++ [m]) cause)
    (told : ((start.run moves).act m).session.engine.activity? = some .failed ∨
        ((start.run moves).act m).session.engine.state = .faulted →
      ∃ cause, start.FailedBy (moves ++ [m]) cause ∧
        ((start.run moves).act m).session.engine.fault = some cause) :
    start.Explained (moves ++ [m]) := by
  have last : start.run (moves ++ [m]) = (start.run moves).act m := by simp
  exact ⟨last ▸ failing, last ▸ told⟩

theorem Explained.of_silent
    (stays : ∀ a, ((start.run moves).act m).session.engine.activity? = some a →
      a = .finished ∨ a.isLeaving = false)
    (state : ((start.run moves).act m).session.engine.state ≠ .faulted) :
    start.Explained (moves ++ [m]) := by
  refine .of_act ?_ ?_
  · intro cause fails
    simpa [Activity.isLeaving] using stays _ fails
  · rintro (failed | faulted)
    · simpa [Activity.isLeaving] using stays _ failed
    · exact absurd faulted state

theorem Explained.concat (explained : start.Explained moves)
    (reported : Reported (start.run moves).session.engine)
    (course : Course (start.run moves).session.engine
      ((start.run moves).act m).session.engine) : start.Explained (moves ++ [m]) := by
  have present {a : Activity} (does : ((start.run moves).act m).session.engine.activity? = some a) :
      ((start.run moves).act m).session.engine.worker ≠ none := by
    rw [ne_eq, worker_eq_none_iff]
    simp [does]
  have passed {a b : Activity}
      (turned : Passes (start.run moves).session.engine
        ((start.run moves).act m).session.engine a b)
      (runs : a.isRunning = true) (stays : b.isLeaving = false) :
      start.Explained (moves ++ [m]) := by
    refine .of_silent (fun c now => .inr ?_) ?_
    · obtain rfl := Option.some.inj (now.symm.trans turned.now)
      exact stays
    · rw [turned.state, reported.state_eq_running turned.was runs]
      simp
  cases course with
  | stands same =>
      refine .of_act ?_ ?_
      · intro cause fails
        exact (explained.failing cause (same.activity.symm.trans fails)).concat (present fails)
      · intro gone
        rw [same.activity, same.state] at gone
        obtain ⟨cause, failed, fault⟩ := explained.told gone
        refine ⟨cause, failed.concat ?_, same.fault.trans fault⟩
        rcases gone with doing | faulted
        · exact present (same.activity.trans doing)
        · exact present (same.activity.trans (reported.finished_of_faulted faulted))
  | @fails a cause task turned =>
      have runs := reported.state_eq_running turned.was (Activity.isRunning_of_isTask task)
      refine .of_act ?_ ?_
      · intro own fails
        obtain rfl : cause = own := by simpa [turned.now] using fails
        refine ⟨moves, m, [], rfl, ?_, runs, fun part before => ?_⟩
        · have before := failing?_of_stays turned.was (Activity.not_isLeaving_of_isTask task)
          have after : ((start.run moves).act m).session.engine.failing? = some cause := by
            simp only [failing?, fails]
          simp [Stepwise.fails, before, after]
        · obtain rfl := List.prefix_nil.mp before
          simpa using present fails
      · rintro (failed | faulted)
        · simp [turned.now] at failed
        · simp [turned.state, runs] at faulted
  | @tells cause was now state fault =>
      have failed := (explained.failing cause was).concat (present now)
      exact .of_act (fun own fails => by simp [now] at fails) fun _ => ⟨cause, failed, fault⟩
  | quits was now state fault =>
      obtain ⟨cause, failed, told⟩ := explained.told (.inl was)
      exact .of_act (fun own fails => by simp [now] at fails)
        fun _ => ⟨cause, failed.concat (present now), fault.trans told⟩
  | starts _ now state | opens _ now state | stops _ _ now state =>
      refine .of_silent (fun a does => ?_) (by simp [state])
      obtain rfl := Option.some.inj (does.symm.trans now)
      simp [Activity.isLeaving]
  | dismissed _ now state => exact .of_silent (by simp [now]) (by simp [state])
  | takes turned => exact passed turned rfl rfl
  | goesOn task turned still =>
      exact passed turned (Activity.isRunning_of_isTask task)
        (Activity.not_isLeaving_of_isUnderWay still)
  | completes task turned => exact passed turned (Activity.isRunning_of_isTask task) rfl

end Concat

theorem explained_run {start : Stepwise} (sound : start.Sound)
    (absent : start.session.engine.worker = none) (state : start.session.engine.state = .stopped)
    (moves : List Move) : start.Explained moves := by
  have none := worker_eq_none_iff.mp absent
  -- from the end: a move goes on with what is explained by the moves before it
  induction moves using List.reverseRecOn with
  | nil => exact ⟨by simp [none], by simp [none, state]⟩
  | append_singleton moves m ih =>
      exact ih.concat (reported_run sound (.absent none state) moves)
        (course_act (sound_run sound moves) m)

/-! ## Reading the health -/

/-- Whether a caller needs the engine for itself, to start or to stop the worker. -/
def Move.isExclusive : Move → Bool
  | .other m => m.isExclusive
  | _ => false

/-- What the engine reports of itself to a caller who reads one part after the other, while other
moves come in between. -/
def healthAlong (x : Stepwise) (first second third : List Move) : Health where
  state := x.session.engine.health.state
  fault := (x.run first).session.engine.health.fault
  queued := (x.run (first ++ second)).session.engine.health.queued
  dictionaries := (x.run (first ++ second ++ third)).session.engine.health.dictionaries

theorem healthAlong_nil (x : Stepwise) : x.healthAlong [] [] [] = x.session.engine.health := rfl

theorem stop?_act {x : Stepwise} {m : Move} (shared : m.isExclusive = false) :
    (x.act m).session.engine.stop? = x.session.engine.stop? := by
  cases m with
  | look =>
      simp only [act]
      split
      · rfl
      · split
        · exact stop?_become _ _
        · rfl
  | take =>
      simp only [act]
      split
      · exact stop?_takeTask _
      · rfl
  | other m =>
      simp only [act]
      split
      · rfl
      · exact Session.stop?_act shared

theorem stands_of_shared {x : Stepwise} (sound : x.Sound)
    (gone : x.session.engine.activity? = some .finished) {moves : List Move}
    (shared : ∀ m ∈ moves, m.isExclusive = false) :
    Stands x.session.engine (x.run moves).session.engine := by
  induction moves generalizing x with
  | nil => exact ⟨rfl, rfl, rfl⟩
  | cons m moves ih =>
      obtain ⟨own, others⟩ := List.forall_mem_cons.mp shared
      have there : (x.act m).session.engine.activity? ≠ none := by
        rw [ne_eq, ← stop?_eq_none_iff, stop?_act own, stop?_eq_none_iff]
        simp [gone]
      have first := (course_act sound m).of_finished gone there
      have rest := ih (sound_act sound m) (first.activity.trans gone) others
      exact ⟨rest.activity.trans first.activity, rest.fault.trans first.fault,
        rest.state.trans first.state⟩

/-! ## Starting and stopping -/

theorem start_eq_error_iff {e : Engine} {cause : EngineError} :
    e.start = .error cause ↔ e.worker ≠ none ∧ cause = .alreadyStarted := by
  unfold Engine.start
  cases e.worker with
  | none => simp
  | some w => simp [eq_comm]

theorem stop_cases {ω : Type} (host : Host ω) (e : Engine) (w : ω) :
    (e.worker = none ∧ e.stop host w = (.error .notStarted, e, w)) ∨
      (e.worker ≠ none ∧ (e.stop host w).1 = .ok ()) := by
  unfold Engine.stop
  cases found : e.worker with
  | none => exact .inl ⟨rfl, by simp [Engine.requestStop, found]⟩
  | some worker => exact .inr ⟨by simp, by simp [Engine.requestStop, found]⟩

/-- A new engine that nobody uses yet. -/
def fresh (options : SuggestOptions) (context : ContextId) : Stepwise :=
  { session := .fresh options context }

/-- Starting and stopping fail just where there is a worker or none, and then change nothing. While
nobody is stopping the worker, it is told of as stopped just if there is none. A worker that is told
to stop begins at most one more task. Whoever reads that the worker failed reads the error of its
task, and a fault gives way only to that of a task that failed later. -/
theorem worker_told_truly (options : SuggestOptions) (context : ContextId) (moves : List Move) :
    let start := fresh options context
    let x := start.run moves
    let e := x.session.engine
    (∀ cause, e.start = .error cause ↔ e.worker ≠ none ∧ cause = .alreadyStarted) ∧
      (e.worker ≠ none → x.act (.other .start) = x) ∧
      (∀ (ω : Type) (host : Host ω) (w : ω) (cause : EngineError),
        ((e.stop host w).1 = .error cause ↔ e.worker = none ∧ cause = .notStarted) ∧
          (e.worker = none → (e.stop host w).2 = (e, w))) ∧
      (e.isStopping = false → (e.state = .stopped ↔ e.worker = none)) ∧
      (e.isStopping = true → ∀ late, .other .dismiss ∉ late → (x.begun late).length ≤ 1) ∧
      (∀ first second third, (∀ m ∈ first, m.isExclusive = false) →
        (x.healthAlong first second third).state = .faulted →
          ∃ cause, start.FailedBy moves cause ∧
            (x.healthAlong first second third).fault = some cause) ∧
      ∀ late, ∃ told, e.failing?.toList ++ x.failures late =
          told ++ (x.run late).session.engine.failing?.toList ∧
        (x.run late).session.engine.fault = told.getLast?.or e.fault := by
  intro start x e
  have begins : start.Sound := by
    intro looked
    simp [start, fresh] at looked
  have sound : x.Sound := sound_run begins moves
  have reported : Reported e := reported_run begins (.absent rfl rfl) moves
  refine ⟨fun cause => start_eq_error_iff, ?_, ?_, reported.stopped_iff, ?_, ?_, tells_run sound⟩
  · intro there
    cases found : e.worker with
    | none => exact absurd found there
    | some w =>
        have still : x.session.act .start = x.session := by
          simp [Session.act, Engine.start, e, found, Except.toOption]
        simp only [act, still]
        split <;> rfl
  · intro ω host w cause
    rcases stop_cases host e w with ⟨none, failed⟩ | ⟨there, done⟩
    · simp [failed, none, eq_comm]
    · simp [done, there]
  · intro told late kept
    exact Nat.le_trans (begun_le_one sound told kept) (Bool.toNat_le _)
  · intro first second third shared state
    have gone := reported.finished_of_faulted state
    obtain ⟨cause, failed, fault⟩ := (explained_run begins rfl rfl moves).told (.inr state)
    exact ⟨cause, failed, (stands_of_shared sound gone shared).fault.trans fault⟩

/-- The path of a task has no format, which the worker tells before it is gone. -/
def failToLoad : List Move :=
  [.other .start, .other (.work fun _ => 0), .other (.requestLoad "git.txt"), .look, .take,
    .other (.work fun _ => 0), .other (.filesRead (.error (.unsupportedFormat "git.txt"))),
    .other (.work fun _ => 0), .other (.work fun _ => 0)]

/-- The worker is told to stop after it has looked, and before it takes one of two tasks. -/
def stopAfterLook : List Move :=
  [.other .start, .other (.work fun _ => 0), .other .putBarrier, .other .putBarrier, .look,
    .other .requestStop]

/-- The worker takes the first of the tasks, begins it and looks again. -/
def takeAfterStop : List Move :=
  [.take, .other (.work fun _ => 0), .look]

theorem worker_told_truly_failToLoad :
    ((fresh {} 0).run failToLoad).session.engine.start = .error .alreadyStarted ∧
      ((fresh {} 0).run failToLoad).session.engine.state ≠ .stopped ∧
      (((fresh {} 0).run failToLoad).healthAlong [.other (.requestLoad "git.txt")] [] []).state =
        .faulted ∧
      (∃ cause, (fresh {} 0).FailedBy failToLoad cause ∧
        (((fresh {} 0).run failToLoad).healthAlong [.other (.requestLoad "git.txt")] [] []).fault =
          some cause) ∧
      ((fresh {} 0).run stopAfterLook).session.engine.isStopping = true ∧
      (((fresh {} 0).run stopAfterLook).begun takeAfterStop).length = 1 ∧
      (((fresh {} 0).run stopAfterLook).begun takeAfterStop).length ≤ 1 := by
  have there : ((fresh {} 0).run failToLoad).session.engine.worker ≠ none := by
    intro gone
    cases gone
  have free : ((fresh {} 0).run failToLoad).session.engine.isStopping = false := by rfl
  have state : (((fresh {} 0).run failToLoad).healthAlong
      [.other (.requestLoad "git.txt")] [] []).state = .faulted := by rfl
  have told : ((fresh {} 0).run stopAfterLook).session.engine.isStopping = true := by rfl
  have begun : (((fresh {} 0).run stopAfterLook).begun takeAfterStop).length = 1 := by rfl
  obtain ⟨started, -, -, stopped, -, faulted, -⟩ := worker_told_truly {} 0 failToLoad
  obtain ⟨-, -, -, -, atMost, -, -⟩ := worker_told_truly {} 0 stopAfterLook
  refine ⟨(started _).mpr ⟨there, rfl⟩, mt (stopped free).mp there, state,
    faulted _ [] [] ?_ state, told, begun, atMost told _ (by simp [takeAfterStop])⟩
  simp [Move.isExclusive, Session.Move.isExclusive]

end Stepwise

end LineCompletion

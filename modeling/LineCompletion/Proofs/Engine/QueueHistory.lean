import LineCompletion.Proofs.Engine.Session

/-! # What went through the queue

The tasks that the workers took, one worker after the other, followed by those that wait, are the
tasks that were put in, in that order. Neither a stop nor a failed task nor a new worker changes
this.
-/

namespace LineCompletion

namespace Session

/-- The tasks that a move puts into the queue. -/
def enqueues (s : Session) : Move → List Task
  | .requestLoad path => [.load path]
  | .refreshSource source directory => [.refreshSource source directory false]
  | .refreshDictionary dictionary directory => [.refreshDictionary dictionary directory]
  | .goOn caller _ =>
    match s.asking[caller]? with
    | some (.queueing source _ directory) => [.refreshSource source directory true]
    | _ => []
  | .putBarrier => if s.engine.worker.isSome then [.barrier s.engine.nextTicket] else []
  | _ => []

/-- The task that the worker takes with a move: the one that it holds after its step. -/
def takes (s : Session) : Move → List Task
  | .work clock => ((s.engine.step clock).bind Engine.held?).toList
  | _ => []

/-- The tasks that some moves put into the queue, in order. -/
def enqueued : Session → List Move → List Task
  | _, [] => []
  | s, m :: moves => s.enqueues m ++ (s.act m).enqueued moves

/-- The tasks that the workers take with some moves, in order. -/
def taken : Session → List Move → List Task
  | _, [] => []
  | s, m :: moves => s.takes m ++ (s.act m).taken moves

theorem queue_askingStep (clock : Clock) (e : Engine) (a : Asking) :
    (a.step clock e).1.queue.tasks = e.queue.tasks ++
      match a with
      | .queueing source _ directory => [.refreshSource source directory true]
      | _ => [] := by
  cases a with
  | looking sources directory =>
      cases sources with
      | nil => simp [Asking.step]
      | cons s rest =>
          simp only [Asking.step, List.append_nil]
          split <;> rfl
  | marking s rest directory => simp [Asking.step]
  | queueing s rest directory => rfl

/-- A move puts its tasks last and takes the first. -/
theorem queue_act (s : Session) (m : Move) :
    s.engine.queue.tasks ++ s.enqueues m = s.takes m ++ (s.act m).engine.queue.tasks := by
  have unchanged (quiet : m.isQuiet = true) (none : s.enqueues m = [])
      (nothing : s.takes m = []) :
      s.engine.queue.tasks ++ s.enqueues m = s.takes m ++ (s.act m).engine.queue.tasks := by
    rw [none, nothing, (act_quiet quiet).1.queue, List.append_nil, List.nil_append]
  cases m with
  | requestLoad | refreshSource | refreshDictionary => rfl
  | suggest request =>
      obtain still | ⟨sources, directory, added⟩ := act_suggest s request
      · simp [enqueues, takes, still]
      · simp [enqueues, takes, added]
  | goOn caller clock =>
      cases found : s.asking[caller]? with
      | none => simp [enqueues, takes, act, found]
      | some a =>
          simp only [enqueues, takes, act, found, List.nil_append, queue_askingStep]
          cases a <;> rfl
  | putBarrier =>
      cases found : s.engine.worker <;>
        simp [enqueues, takes, act, Engine.putBarrier, found, Engine.enqueue, TaskQueue.push]
  | setRefreshOnSuggest | start | requestStop | dismiss | writeCache | filesRead | commandEnded =>
      exact unchanged rfl rfl rfl
  | work clock =>
      cases stepped : s.engine.step clock with
      | none => simp [enqueues, takes, act, stepped]
      | some next =>
          simp only [enqueues, takes, act, stepped, List.append_nil, Option.getD_some,
            Option.bind_some]
          obtain ⟨t, _, _, held, oldest, _⟩ | ⟨held, queue, _⟩ := Engine.step_cases stepped
          · simp [held, oldest]
          · simp [held, queue]

theorem queue_run (s : Session) (moves : List Move) :
    s.engine.queue.tasks ++ s.enqueued moves =
      s.taken moves ++ (s.run moves).engine.queue.tasks := by
  induction moves generalizing s with
  | nil => simp [enqueued, taken, run]
  | cons m moves ih =>
      calc s.engine.queue.tasks ++ s.enqueued (m :: moves)
          = (s.engine.queue.tasks ++ s.enqueues m) ++ (s.act m).enqueued moves := by
            simp only [enqueued, List.append_assoc]
        _ = s.takes m ++ ((s.act m).engine.queue.tasks ++ (s.act m).enqueued moves) := by
            rw [queue_act, List.append_assoc]
        _ = s.taken (m :: moves) ++ (s.run (m :: moves)).engine.queue.tasks := by
            rw [ih, taken, List.append_assoc]
            rfl

/-- No task is lost, done twice or moved before another, whatever callers, workers and their
surroundings do. -/
theorem tasks_taken_in_order (options : SuggestOptions) (context : ContextId)
    (moves : List Move) :
    (fresh options context).taken moves ++
        ((fresh options context).run moves).engine.queue.tasks =
      (fresh options context).enqueued moves := by
  simpa [fresh] using (queue_run (fresh options context) moves).symm

end Session

end LineCompletion

import LineCompletion.Proofs.Engine.Course

/-! # A worker told to stop while it takes a task

A worker looks whether it is told to stop and then takes the oldest task. It holds the queue in
between, so nobody puts a task in, but a caller may tell it to stop, for that needs no queue. So a
worker may take a task after it was told to stop, and this is the last one that it begins.
-/

namespace LineCompletion

namespace Engine

/-- The worker takes the oldest task, without looking whether it is told to stop. -/
def takeTask (e : Engine) : Engine :=
  match e.queue.pop false with
  | (.task t, queue) => { e with queue }.become (.holding t)
  | _ => e

/-- The worker is gone since it is told to stop. -/
def leave (e : Engine) : Engine :=
  { e with state := .stopped }.become .finished

theorem course_takeTask {e : Engine} (waits : e.activity? = some .waiting) :
    Course e e.takeTask := by
  unfold takeTask
  split
  · rename_i t queue _
    have now := (Passes.become (e := { e with queue }) waits (.holding t)).now
    exact .takes (t := t) ⟨waits, now, rfl, rfl⟩
  · exact .refl e

theorem stop?_takeTask (e : Engine) : e.takeTask.stop? = e.stop? := by
  unfold takeTask
  split
  · exact stop?_become _ _
  · rfl

end Engine

/-- A session whose worker takes a task in two steps. -/
structure Stepwise where
  session : Session := {}
  /-- Whether the worker has seen that it is not told to stop, and holds the queue. -/
  looked : Bool := false

namespace Stepwise

open Engine

inductive Move where
  /-- A worker that asks for a task looks whether it is told to stop. -/
  | look
  /-- A worker that holds the queue takes a task, or lets go of the queue and waits. -/
  | take
  /-- Something else happens. -/
  | other (m : Session.Move)

/-- Whether a move has to wait: a caller for the queue, a worker that asks for a task to look. -/
def bars (x : Stepwise) (m : Session.Move) : Bool :=
  (x.looked && !(x.session.enqueues m).isEmpty) || (x.session.engine.isWaiting && m.isWork)

def act (x : Stepwise) : Move → Stepwise
  | .look =>
    if !x.session.engine.isWaiting || x.looked then x
    else if x.session.engine.isStopping then
      { x with session := { x.session with engine := x.session.engine.leave } }
    else { x with looked := true }
  | .take =>
    if x.looked then
      { session := { x.session with engine := x.session.engine.takeTask }, looked := false }
    else x
  | .other m => if x.bars m then x else { x with session := x.session.act m }

def run (x : Stepwise) (moves : List Move) : Stepwise :=
  moves.foldl act x

def begins (x : Stepwise) : Move → List Task
  | .other (.work _) => x.session.engine.held?.toList
  | _ => []

/-- The tasks that the worker begins with some moves, in order. -/
def begun : Stepwise → List Move → List Task
  | _, [] => []
  | x, m :: moves => x.begins m ++ (x.act m).begun moves

@[simp] theorem run_nil (x : Stepwise) : x.run [] = x := rfl

@[simp] theorem run_cons (x : Stepwise) (m : Move) (moves : List Move) :
    x.run (m :: moves) = (x.act m).run moves := rfl

@[simp] theorem run_append (x : Stepwise) (early late : List Move) :
    x.run (early ++ late) = (x.run early).run late :=
  List.foldl_append

/-- Where nothing comes between its two steps, the worker asks for a task in one. -/
theorem run_look_take (s : Session) (clock : Clock) (waits : s.engine.isWaiting = true) :
    run { session := s } [.look, .take] = { session := s.act (.work clock) } := by
  obtain ⟨stop, found⟩ := worker_of_activity? (isWaiting_iff.mp waits)
  cases stop with
  | true =>
      have told : s.engine.isStopping = true := by simp [isStopping, stop?, found]
      have gone : s.engine.step clock = some s.engine.leave := by
        simp [Engine.step, found, TaskQueue.pop, leave]
      simp [act, waits, told, Session.act, gone]
  | false =>
      have free : s.engine.isStopping = false := by simp [isStopping, stop?, found]
      cases tasks : s.engine.queue.tasks with
      | nil =>
          have stays : s.engine.step clock = none := by
            simp [Engine.step, found, TaskQueue.pop, tasks]
          have none : s.engine.takeTask = s.engine := by simp [takeTask, TaskQueue.pop, tasks]
          simp [act, waits, free, Session.act, stays, none]
      | cons t rest =>
          have taken : s.engine.step clock = some s.engine.takeTask := by
            simp [Engine.step, found, TaskQueue.pop, tasks, takeTask]
          simp [act, waits, free, Session.act, taken]

/-- A worker that holds the queue asks for a task. -/
def Sound (x : Stepwise) : Prop :=
  x.looked = true → x.session.engine.activity? = some .waiting

theorem activity?_act_of_waiting {s : Session} {m : Session.Move}
    (waits : s.engine.activity? = some .waiting) (work : m.isWork = false) :
    (s.act m).engine.activity? = some .waiting := by
  have idle : s.engine.isIdle = true := by simp [isIdle, waits, Activity.isTask]
  by_cases callers : m.isCallers = true
  · cases Session.called_act s callers with
    | apart stands _ => exact stands.activity.trans waits
    | wrote stands _ => exact stands.activity.trans waits
    | started none => simp [none] at waits
    | dismissed gone => simp [gone] at waits
  · rw [Session.act_of_idle idle (by simpa using callers) work]
    exact waits

theorem sound_act {x : Stepwise} (sound : x.Sound) (m : Move) : (x.act m).Sound := by
  cases m with
  | look =>
      simp only [act]
      split
      · exact sound
      · rename_i asks
        obtain ⟨waits, free⟩ : x.session.engine.isWaiting = true ∧ x.looked = false := by
          simpa using asks
        split
        · intro looked
          simp [free] at looked
        · exact fun _ => isWaiting_iff.mp waits
  | take =>
      simp only [act]
      split
      · intro looked
        simp at looked
      · exact sound
  | other m =>
      simp only [act]
      split
      · exact sound
      · rename_i free
        intro looked
        have waits := sound looked
        obtain ⟨-, own⟩ : (x.looked = true → x.session.enqueues m = []) ∧
            (x.session.engine.isWaiting = true → m.isWork = false) := by
          simpa [bars] using free
        exact activity?_act_of_waiting waits (own (isWaiting_iff.mpr waits))

theorem sound_run {x : Stepwise} (sound : x.Sound) (moves : List Move) : (x.run moves).Sound := by
  induction moves generalizing x with
  | nil => exact sound
  | cons m moves ih => exact ih (sound_act sound m)

/-- What a move makes of the worker, whether it takes a task in one step or in two. -/
theorem course_act {x : Stepwise} (sound : x.Sound) (m : Move) :
    Course x.session.engine (x.act m).session.engine := by
  cases m with
  | look =>
      simp only [act]
      split
      · exact .refl _
      · rename_i asks
        obtain ⟨waits, free⟩ : x.session.engine.isWaiting = true ∧ x.looked = false := by
          simpa using asks
        have was := isWaiting_iff.mp waits
        split
        · rename_i told
          have now := Passes.become (e := { x.session.engine with state := .stopped }) was .finished
          exact .stops was told now.now rfl rfl
        · exact .refl _
  | take =>
      simp only [act]
      split
      · rename_i looked
        exact course_takeTask (sound looked)
      · exact .refl _
  | other m =>
      simp only [act]
      split
      · exact .refl _
      · exact Session.course_act x.session m

/-- A worker that is told to stop is so until it is dismissed. -/
theorem isStopping_act {x : Stepwise} (told : x.session.engine.isStopping = true) (m : Move) :
    (m = .other .dismiss ∧ (x.act m).session.engine.activity? = none) ∨
      (x.act m).session.engine.isStopping = true := by
  cases m with
  | look =>
      simp only [act]
      split
      · exact .inr told
      · exact .inr ((congrArg (· == some true) (stop?_become _ _)).trans told)
  | take =>
      simp only [act]
      split
      · exact .inr ((congrArg (· == some true) (stop?_takeTask _)).trans told)
      · exact .inr told
  | other m =>
      simp only [act]
      split
      · exact .inr told
      · obtain ⟨rfl, gone⟩ | still := Session.isStopping_act told m
        · exact .inl ⟨rfl, gone⟩
        · exact .inr still

/-! ## Tasks begun after the worker is told to stop -/

theorem held?_work_of_not_waiting {s : Session} {clock : Clock}
    (busy : s.engine.isWaiting = false) : (s.act (.work clock)).engine.held? = none := by
  cases held : (s.act (.work clock)).engine.held? with
  | none => rfl
  | some t =>
      exfalso
      have holds := activity?_of_held? held
      rcases (Session.course_act s (.work clock)).of_holding holds with waits | before
      · simp [isWaiting_iff.mpr waits] at busy
      · -- a worker that has a task begins it
        obtain ⟨stop, found⟩ := worker_of_activity? before
        have stepped : s.engine.step clock = some (s.engine.begin t) := by
          simp [Engine.step, found]
        obtain ⟨_, free, _⟩ | ⟨free, _⟩ := step_cases stepped
        · simp [held?_eq_some_iff.mpr before] at free
        · simp [Session.act, stepped, free] at held

/-- Whether the worker can begin a task before it looks again. -/
def isCommitted (x : Stepwise) : Bool :=
  x.looked || x.session.engine.held?.isSome

/-- A worker that is told to stop begins a task only where it is committed to one. -/
theorem begins_le {x : Stepwise} (sound : x.Sound) (told : x.session.engine.isStopping = true)
    (m : Move) : (x.begins m).length + (x.act m).isCommitted.toNat ≤ x.isCommitted.toNat := by
  cases m with
  | look =>
      simp only [begins, List.length_nil, Nat.zero_add, act]
      split
      · exact Nat.le_refl _
      · rename_i asks
        obtain ⟨waits, free⟩ : x.session.engine.isWaiting = true ∧ x.looked = false := by
          simpa using asks
        have gone : x.session.engine.leave.activity? = some .finished :=
          (Passes.become (e := { x.session.engine with state := .stopped })
            (isWaiting_iff.mp waits) .finished).now
        simp [isCommitted, free, held?_of_other gone]
  | take =>
      simp only [begins, List.length_nil, Nat.zero_add, act]
      split
      · rename_i looked
        simpa [isCommitted, looked] using Bool.toNat_le _
      · exact Nat.le_refl _
  | other m =>
      cases held : x.session.engine.held? with
      | none =>
          have idle : (x.begins (.other m)).length = 0 := by cases m <;> simp [begins, held]
          rw [idle, Nat.zero_add]
          simp only [act]
          split
          · exact Nat.le_refl _
          · rename_i free
            have after : (x.session.act m).engine.held? = none := by
              cases work : m.isWork with
              | false => rw [Session.held?_act_of_not_work work, held]
              | true =>
                  cases m with
                  | work clock =>
                      refine held?_work_of_not_waiting (Bool.eq_false_iff.mpr fun waits => ?_)
                      simp [bars, waits, Session.Move.isWork] at free
                  | _ => simp [Session.Move.isWork] at work
            simp [isCommitted, after, held]
      | some t =>
          -- it has a task, so it does not hold the queue and is not barred from beginning
          have holds := activity?_of_held? held
          have busy : x.session.engine.isWaiting = false := by simp [isWaiting, holds]
          have looked : x.looked = false :=
            Bool.eq_false_iff.mpr fun looked => by simpa [holds] using sound looked
          have free : x.bars m = false := by simp [bars, looked, busy]
          cases work : m.isWork with
          | false =>
              have idle : (x.begins (.other m)).length = 0 := by
                cases m with
                | work => simp [Session.Move.isWork] at work
                | _ => rfl
              simp [idle, act, free, isCommitted, Session.held?_act_of_not_work work]
          | true =>
              cases m with
              | work clock =>
                  simp [begins, act, free, isCommitted, held?_work_of_not_waiting busy, held,
                    looked]
              | _ => simp [Session.Move.isWork] at work

/-- Once it is told to stop, a worker begins at most one more task before it is dismissed. -/
theorem begun_le_one {x : Stepwise} (sound : x.Sound)
    (told : x.session.engine.isStopping = true) {late : List Move}
    (kept : .other .dismiss ∉ late) : (x.begun late).length ≤ x.isCommitted.toNat := by
  induction late generalizing x with
  | nil => exact Nat.zero_le _
  | cons m late ih =>
      have first := begins_le sound told m
      obtain ⟨own, later⟩ := not_or.mp (mt List.mem_cons.mpr kept)
      obtain ⟨rfl, -⟩ | still := isStopping_act told m
      · exact absurd rfl own
      · have rest := ih (sound_act sound m) still later
        simp only [begun, List.length_append]
        omega

end Stepwise

end LineCompletion

import Mathlib.Data.List.Basic
import LineCompletion.Engine.Queue

/-! # Wake-ups of a worker that sleeps

The queue stands behind a lock. A worker that finds no task goes to sleep and lets go of the lock
in the same step. Whoever puts in a task lets go of the lock before the worker is notified, and a
caller may tell the worker to stop at any moment, for that needs no lock. A notification that finds
nobody asleep is lost. Still no wake-up is lost that the worker needs: a task that it did not see is
announced after it has fallen asleep, and whoever has told it to stop takes the lock before
notifying it, so it is asleep by then or looks once more.
-/

namespace LineCompletion

inductive Party where
  | worker
  | producer (i : Nat)
  | stopper
  | reader
  deriving DecidableEq

/-- How far a worker has come that asks for tasks. -/
inductive Taking (α : Type) where
  /-- It has not asked yet. -/
  | idle
  /-- It asks and needs the lock. -/
  | asking
  /-- It holds the lock and has seen that it is not told to stop. -/
  | looked
  /-- It got an answer; where this is to wait, it still holds the lock and goes to sleep. -/
  | got (answer : Popped α)
  /-- It sleeps, and no notification has reached it. -/
  | asleep
  /-- It has been woken and needs the lock. -/
  | woken

inductive Putting (α : Type) where
  /-- It needs the lock to put in a task. -/
  | begun (a : α)
  /-- Its task is in, and it has not notified the worker. -/
  | appended
  /-- It has notified the worker. -/
  | done

/-- How far the caller has come who tells the worker to stop. -/
inductive Telling where
  | idle
  | told
  | done
  deriving DecidableEq

namespace Taking

variable {α : Type}

/-- A worker that is notified. Only one that sleeps notices it. -/
def notified : Taking α → Taking α
  | .asleep => .woken
  | t => t

/-- Whether the worker asks for no task, or has got its answer. -/
def isAway : Taking α → Bool
  | .idle | .got _ => true
  | _ => false

def isReady : Taking α → Bool
  | .asking | .woken => true
  | _ => false

/-- Whether the worker has an answer and does not go to sleep. -/
def isAnswered : Taking α → Bool
  | .got (.task _) | .got .stopped => true
  | _ => false

/-- Whether the worker has looked and goes on with the lock. -/
def isInside : Taking α → Bool
  | .looked | .got .waits => true
  | _ => false

/-- Whether the worker would not see now that it is told to stop, unless it is woken. -/
def isUnaware : Taking α → Bool
  | .looked | .got .waits | .asleep => true
  | _ => false

theorem notified_cases (t : Taking α) :
    t = .asleep ∧ t.notified = .woken ∨ t ≠ .asleep ∧ t.notified = t := by
  cases t with
  | asleep => exact .inl ⟨rfl, rfl⟩
  | _ => exact .inr ⟨by simp, rfl⟩

theorem not_isInside {t : Taking α} (answered : t.isAnswered = true) : t.isInside = false := by
  cases t with
  | got answer => cases answer <;> simp [isAnswered, isInside] at answered ⊢
  | looked => simp [isAnswered] at answered
  | _ => rfl

theorem isUnaware_iff {t : Taking α} : t.isUnaware = true ↔ t = .asleep ∨ t.isInside = true := by
  cases t with
  | got answer => cases answer <;> simp [isUnaware, isInside]
  | _ => simp [isUnaware, isInside]

end Taking

/-- A queue while one worker and its callers use it. -/
structure SharedQueue (α : Type) where
  /-- The queue behind the lock. -/
  queue : TaskQueue α := {}
  /-- Whether the worker is told to stop. -/
  stop : Bool := false
  /-- Who holds the lock. -/
  holder : Option Party := none
  /-- The worker. -/
  worker : Taking α := .idle
  /-- The producers who have begun. -/
  producers : List (Putting α) := []
  /-- The caller who tells the worker to stop. -/
  stopper : Telling := .idle

namespace SharedQueue

variable {α : Type}

inductive Move (α : Type) where
  /-- A party takes the lock. -/
  | lock (p : Party)
  /-- A party lets go of the lock. -/
  | unlock (p : Party)
  /-- The worker asks for a task. -/
  | ask
  /-- The worker looks whether it is told to stop. -/
  | look
  /-- The worker takes the oldest task, if there is one. -/
  | take
  /-- The worker falls asleep and lets go of the lock. -/
  | sleep
  /-- The worker wakes up though nobody has notified it. -/
  | wake
  /-- A producer begins to put in a task. -/
  | push (a : α)
  /-- A producer puts in its task. -/
  | append (i : Nat)
  /-- A producer notifies the worker. -/
  | notify (i : Nat)
  /-- The worker is told to stop. -/
  | tell
  /-- The caller who has told it notifies it. -/
  | notifyAll

def wants (s : SharedQueue α) : Party → Bool
  | .worker => s.worker.isReady
  | .producer i =>
    match s.producers[i]? with
    | some (.begun _) => true
    | _ => false
  | .stopper => s.stopper == .told
  | .reader => true

def isDone (s : SharedQueue α) : Party → Bool
  | .worker => s.worker.isAnswered
  | .producer i =>
    match s.producers[i]? with
    | some .appended => true
    | _ => false
  | .stopper => s.stopper == .done
  | .reader => true

/-- What comes of a move; one that is not possible changes nothing. -/
def act (s : SharedQueue α) : Move α → SharedQueue α
  | .lock p => if s.holder = none ∧ s.wants p then { s with holder := some p } else s
  | .unlock p => if s.holder = some p ∧ s.isDone p then { s with holder := none } else s
  | .ask =>
    if s.holder ≠ some .worker ∧ s.worker.isAway then { s with worker := .asking } else s
  | .look =>
    if s.holder = some .worker ∧ s.worker.isReady then
      { s with worker := if s.stop then .got .stopped else .looked }
    else s
  | .take =>
    match s.worker with
    | .looked =>
      { s with worker := .got (s.queue.pop false).1, queue := (s.queue.pop false).2 }
    | _ => s
  | .sleep =>
    match s.worker with
    | .got .waits => { s with worker := .asleep, holder := none }
    | _ => s
  | .wake => { s with worker := s.worker.notified }
  | .push a => { s with producers := s.producers ++ [.begun a] }
  | .append i =>
    match s.producers[i]? with
    | some (.begun a) =>
      if s.holder = some (.producer i) then
        { s with queue := s.queue.push a, producers := s.producers.set i .appended }
      else s
    | _ => s
  | .notify i =>
    match s.producers[i]? with
    | some .appended =>
      if s.holder = some (.producer i) then s
      else { s with worker := s.worker.notified, producers := s.producers.set i .done }
    | _ => s
  | .tell =>
    match s.stopper with
    | .idle => { s with stop := true, stopper := .told }
    | _ => s
  | .notifyAll =>
    match s.stopper with
    | .told =>
      if s.holder = some .stopper then
        { s with worker := s.worker.notified, stopper := .done }
      else s
    | _ => s

def run (s : SharedQueue α) (moves : List (Move α)) : SharedQueue α :=
  moves.foldl act s

@[simp] theorem run_nil (s : SharedQueue α) : s.run [] = s := rfl

@[simp] theorem run_cons (s : SharedQueue α) (m : Move α) (moves : List (Move α)) :
    s.run (m :: moves) = (s.act m).run moves := rfl

theorem push_eq_run (q : TaskQueue α) (a : α) :
    run { queue := q } [.push a, .lock (.producer 0), .append 0, .unlock (.producer 0), .notify 0] =
      { queue := q.push a, producers := [.done] } := rfl

theorem pop_eq_run (q : TaskQueue α) (stop : Bool) :
    run { queue := q, stop } [.ask, .lock .worker, .look, .take] =
      { queue := (q.pop stop).2, stop, holder := some .worker, worker := .got (q.pop stop).1 } := by
  cases stop <;> rfl

/-- What holds at every moment. -/
structure Sound (s : SharedQueue α) : Prop where
  /-- A worker that goes on after its look holds the lock. -/
  inside : s.worker.isInside = true → s.holder = some .worker
  /-- A worker that does not see that it is told to stop is yet to be notified of it. -/
  told : s.worker.isUnaware = true → s.stop = true → s.stopper = .told
  /-- A worker that goes to sleep leaves no task behind. -/
  empty : s.worker = .got .waits → s.queue.tasks = []
  /-- A worker that sleeps while tasks wait is yet to be notified of one. -/
  announced : s.worker = .asleep → s.queue.tasks ≠ [] → .appended ∈ s.producers

theorem sound_start (q : TaskQueue α) : Sound { queue := q } where
  inside := by simp [Taking.isInside]
  told := by simp
  empty := by simp
  announced := by simp

theorem Sound.notified {s next : SharedQueue α} (sound : s.Sound)
    (worker : next.worker = s.worker.notified) (holder : next.holder = s.holder)
    (queue : next.queue = s.queue)
    (told : s.worker.isInside = true → next.stop = true → next.stopper = .told) : next.Sound := by
  obtain ⟨_, woken⟩ | ⟨awake, same⟩ := s.worker.notified_cases
  · rw [woken] at worker
    constructor <;> simp [worker, Taking.isInside, Taking.isUnaware]
  · rw [same] at worker
    refine ⟨?_, ?_, ?_, ?_⟩
    · rw [worker, holder]
      exact sound.inside
    · rw [worker]
      intro unaware
      obtain asleep | inside := Taking.isUnaware_iff.mp unaware
      · exact absurd asleep awake
      · exact told inside
    · rw [worker, queue]
      exact sound.empty
    · intro asleep
      exact absurd (worker.symm.trans asleep) awake

theorem Sound.not_inside {s : SharedQueue α} (sound : s.Sound) (other : s.holder ≠ some .worker) :
    s.worker.isInside = false :=
  Bool.eq_false_iff.mpr fun inside => other (sound.inside inside)

section Worker

variable {s : SharedQueue α} (sound : s.Sound)
include sound

theorem sound_ask : (s.act .ask).Sound := by
  simp only [act]
  split
  · constructor <;> simp [Taking.isInside, Taking.isUnaware]
  · exact sound

theorem sound_look : (s.act .look).Sound := by
  simp only [act]
  split
  · rename_i may
    cases stop : s.stop with
    | true => constructor <;> simp [Taking.isInside, Taking.isUnaware]
    | false => exact ⟨fun _ => may.1, by simp, by simp, by simp⟩
  · exact sound

theorem sound_take : (s.act .take).Sound := by
  simp only [act]
  split
  · rename_i looked
    refine ⟨fun _ => sound.inside (by rw [looked]; rfl), fun _ => sound.told (by rw [looked]; rfl),
      ?_, by simp⟩
    intro waits
    cases tasks : s.queue.tasks with
    | nil => simp [TaskQueue.pop, tasks]
    | cons a rest => simp [TaskQueue.pop, tasks] at waits
  · exact sound

theorem sound_sleep : (s.act .sleep).Sound := by
  simp only [act]
  split
  · rename_i waits
    refine ⟨by simp [Taking.isInside], fun _ => sound.told (by rw [waits]; rfl), by simp, ?_⟩
    intro _ some
    exact absurd (sound.empty waits) some
  · exact sound

end Worker

/-- Every move keeps what holds at every moment. -/
theorem sound_act {s : SharedQueue α} (sound : s.Sound) (m : Move α) : (s.act m).Sound := by
  cases m with
  | lock p =>
      simp only [act]
      split
      · rename_i may
        have outside := sound.not_inside (by simp [may.1])
        exact ⟨by simp [outside], sound.told, sound.empty, sound.announced⟩
      · exact sound
  | unlock p =>
      simp only [act]
      split
      · rename_i may
        refine ⟨fun inside => ?_, sound.told, sound.empty, sound.announced⟩
        -- the worker lets go only with an answer, and is not inside then
        obtain rfl : p = .worker := Option.some.inj (may.1.symm.trans (sound.inside inside))
        have outside := Taking.not_isInside (t := s.worker) may.2
        simp [outside] at inside
      · exact sound
  | ask => exact sound_ask sound
  | look => exact sound_look sound
  | take => exact sound_take sound
  | sleep => exact sound_sleep sound
  | wake =>
      exact sound.notified rfl rfl rfl fun inside =>
        sound.told (Taking.isUnaware_iff.mpr (.inr inside))
  | push a =>
      refine ⟨sound.inside, sound.told, sound.empty, fun asleep some => ?_⟩
      exact List.mem_append_left _ (sound.announced asleep some)
  | append i =>
      simp only [act]
      split
      · rename_i a begun
        split
        · rename_i holds
          have outside := sound.not_inside (by simp [holds])
          refine ⟨sound.inside, sound.told, fun waits => ?_, fun _ _ => ?_⟩
          · simp only at waits
            simp [waits, Taking.isInside] at outside
          · exact List.mem_set (List.getElem?_eq_some_iff.mp begun).1 _
        · exact sound
      · exact sound
  | notify i =>
      simp only [act]
      split
      · split
        · exact sound
        · exact sound.notified rfl rfl rfl fun inside =>
            sound.told (Taking.isUnaware_iff.mpr (.inr inside))
      · exact sound
  | tell =>
      simp only [act]
      split
      · exact ⟨sound.inside, fun _ _ => rfl, sound.empty, sound.announced⟩
      · exact sound
  | notifyAll =>
      simp only [act]
      split
      · split
        · rename_i holds
          have outside := sound.not_inside (by simp [holds])
          exact sound.notified rfl rfl rfl fun inside => by simp [outside] at inside
        · exact sound
      · exact sound

theorem sound_run {s : SharedQueue α} (sound : s.Sound) (moves : List (Move α)) :
    (s.run moves).Sound := by
  induction moves generalizing s with
  | nil => exact sound
  | cons m moves ih => exact ih (sound_act sound m)

/-- Every producer who has begun has notified the worker, and so has the caller who has told it to
stop, if there is one. -/
structure Settled (s : SharedQueue α) : Prop where
  producers : ∀ p ∈ s.producers, p = .done
  stopper : s.stopper ≠ .told

/-- Where all have notified the worker and it sleeps, there is nothing for it to wake up for. -/
theorem Sound.asleep_of_settled {s : SharedQueue α} (sound : s.Sound) (settled : s.Settled)
    (asleep : s.worker = .asleep) : s.queue.tasks = [] ∧ s.stop = false := by
  constructor
  · by_contra some
    have late := settled.producers _ (sound.announced asleep some)
    simp at late
  · refine Bool.eq_false_iff.mpr fun stop => ?_
    exact settled.stopper (sound.told (Taking.isUnaware_iff.mpr (.inl asleep)) stop)

theorem Sound.answered_of_settled {s : SharedQueue α} (sound : s.Sound) (settled : s.Settled)
    (free : s.holder = none) (asks : s.worker.isAway = false)
    (some : s.queue.tasks ≠ [] ∨ s.stop = true) :
    (s.run [.lock .worker, .look, .take]).worker.isAnswered = true := by
  have ready : s.worker.isReady = true := by
    cases worker : s.worker with
    | asleep =>
        obtain ⟨empty, unstopped⟩ := sound.asleep_of_settled settled worker
        simp [empty, unstopped] at some
    | looked =>
        have holds := sound.inside (by rw [worker]; rfl)
        simp [free] at holds
    | idle | got => simp [worker, Taking.isAway] at asks
    | asking | woken => rfl
  cases stop : s.stop with
  | true => simp [act, free, wants, ready, stop, Taking.isAnswered]
  | false =>
      cases tasks : s.queue.tasks with
      | nil => simp [tasks, stop] at some
      | cons a rest => simp [act, free, wants, ready, stop, TaskQueue.pop, tasks, Taking.isAnswered]

/-- Whatever producers, the worker and the caller who tells it to stop do, and in whatever order:
the worker never sleeps for good while a task waits or it is told to stop. -/
theorem no_wakeUp_lost (q : TaskQueue α) (moves : List (Move α)) :
    let s := run { queue := q } moves
    ¬ (s.Settled ∧ s.worker = .asleep ∧ (s.queue.tasks ≠ [] ∨ s.stop = true)) := by
  rintro s ⟨settled, asleep, some⟩
  have sound : s.Sound := sound_run (sound_start q) moves
  obtain ⟨empty, free⟩ := sound.asleep_of_settled settled asleep
  rcases some with tasks | stop
  · exact tasks empty
  · simp [free] at stop

/-- A worker may well sleep while a task waits, until it is notified of the task. -/
example :
    let s := run { queue := {} } [.ask, .lock .worker, .look, .take, .sleep, .push 1,
      .lock (.producer 0), .append 0]
    s.worker = .asleep ∧ s.queue.tasks = [1] := ⟨rfl, rfl⟩

end SharedQueue

end LineCompletion

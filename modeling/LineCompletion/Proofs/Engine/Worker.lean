import LineCompletion.Engine.Run

/-! # What the worker does in one step

A step of the worker takes the oldest task out of the queue, or begins a refresh and removes the
mark of its cache, or does neither. What it goes on with after files or a command it waited for
touches neither the queue nor the marks.
-/

namespace LineCompletion

namespace Caches

theorem get_modify (cs : Caches) (cell i : CellId) (f : Cache → Cache) :
    (cs.modify cell f).get i = if i = cell then f (cs.get cell) else cs.get i := rfl

end Caches

namespace Engine

/-- The task that the worker has taken and not begun. -/
def held? (e : Engine) : Option Task :=
  match e.worker with
  | some { activity := .holding t, .. } => some t
  | _ => none

/-- The source whose refresh the worker begins with its next step, and whether a suggestion asked
for it. -/
def beginning? (clock : Clock) (e : Engine) : Option (LiveSource × Bool) :=
  match e.worker with
  | some { activity := .holding (.refreshSource s _ suggested), .. } => some (s, suggested)
  | some { activity := .checking (s :: _) directory, .. } =>
    if s.needsRefresh e.caches clock directory then some (s, false) else none
  | _ => none

/-- The engine after the files that the worker waits for were read. -/
def afterFiles? (e : Engine) (result : Except LoadError (Library Source)) : Option Engine :=
  match e.worker with
  | some { activity := .loading _, .. } => some (e.loaded result)
  | _ => none

/-- The engine after the command that the worker waits for has ended. -/
def afterCommand? (e : Engine) (now : Moment) (outcome : Outcome) : Option Engine :=
  match e.worker with
  | some { activity := .refreshing refresh rest, .. } => some (e.ran refresh rest now outcome)
  | _ => none

def isMarked (e : Engine) (cell : CellId) : Bool :=
  (e.caches.get cell).refreshQueued

@[simp] theorem queue_become (e : Engine) (a : Activity) : (e.become a).queue = e.queue := rfl

@[simp] theorem caches_become (e : Engine) (a : Activity) : (e.become a).caches = e.caches := rfl

@[simp] theorem worker_become (e : Engine) (a : Activity) :
    (e.become a).worker = e.worker.map fun w => { w with activity := a } := rfl

section Refresh

variable (e : Engine) (s : LiveSource) (directory : Option String) (rest : List LiveSource)

@[simp] theorem queue_beginRefresh : (e.beginRefresh s directory rest).queue = e.queue := by
  simp only [beginRefresh]
  split <;> rfl

@[simp] theorem caches_beginRefresh :
    (e.beginRefresh s directory rest).caches = e.caches.modify s.cell Cache.unmark := by
  simp only [beginRefresh]
  split <;> rfl

@[simp] theorem held?_beginRefresh : (e.beginRefresh s directory rest).held? = none := by
  simp only [beginRefresh]
  split <;> cases e.worker <;> simp [held?]

end Refresh

/-- A step of the worker takes the oldest task, or begins a refresh, whose mark it removes, or does
neither. -/
theorem step_cases {clock : Clock} {e next : Engine} (stepped : e.step clock = some next) :
    (∃ t, e.held? = none ∧ e.beginning? clock = none ∧ next.held? = some t ∧
        e.queue.tasks = t :: next.queue.tasks ∧ next.caches = e.caches) ∨
      (next.held? = none ∧ next.queue = e.queue ∧
        next.caches = match e.beginning? clock with
          | some (s, _) => e.caches.modify s.cell Cache.unmark
          | none => e.caches) := by
  unfold step at stepped
  cases found : e.worker with
  | none => simp [found] at stepped
  | some w =>
      obtain ⟨stop, activity⟩ := w
      simp only [found] at stepped
      cases activity with
      | starting =>
          obtain rfl := Option.some.inj stepped
          exact .inr (by simp [held?, beginning?, found])
      | waiting =>
          cases popped : e.queue.pop stop with
          | mk answer queue =>
              simp only [popped] at stepped
              cases answer with
              | stopped =>
                  obtain rfl := Option.some.inj stepped
                  exact .inr (by simp [held?, beginning?, found])
              | task t =>
                  obtain rfl := Option.some.inj stepped
                  have oldest : e.queue.tasks = t :: queue.tasks := by
                    unfold TaskQueue.pop at popped
                    split at popped
                    · simp at popped
                    · split at popped
                      · simp at popped
                      · rename_i tasks
                        obtain ⟨same, rfl⟩ := Prod.mk.inj popped
                        rw [tasks, Popped.task.inj same]
                  exact .inl ⟨t, by simp [held?, found], by simp [beginning?, found],
                    by simp [held?], oldest, rfl⟩
              | waits => simp at stepped
      | holding t =>
          obtain rfl := Option.some.inj stepped
          cases t with
          | refreshSource source directory suggested =>
              exact .inr (by simp [begin, beginning?, found])
          | load path => exact .inr (by simp [begin, held?, beginning?, found])
          | refreshDictionary dictionary directory =>
              exact .inr (by simp [begin, held?, beginning?, found])
          | barrier ticket => exact .inr (by simp [begin, held?, beginning?, found])
      | loading path => simp at stepped
      | checking sources directory =>
          cases sources with
          | nil =>
              obtain rfl := Option.some.inj stepped
              exact .inr (by simp [held?, beginning?, found])
          | cons s rest =>
              by_cases due : s.needsRefresh e.caches clock directory = true
              · simp only [due, if_true] at stepped
                obtain rfl := Option.some.inj stepped
                exact .inr (by simp [beginning?, found, due])
              · simp only [due] at stepped
                obtain rfl := Option.some.inj stepped
                exact .inr (by simp [held?, beginning?, found, due])
      | refreshing refresh rest => simp at stepped
      | failing cause =>
          obtain rfl := Option.some.inj stepped
          exact .inr (by simp [held?, beginning?, found])
      | failed =>
          obtain rfl := Option.some.inj stepped
          exact .inr (by simp [held?, beginning?, found])
      | finished => simp at stepped

theorem beginning?_of_step {clock : Clock} {e : Engine} (stuck : e.step clock = none) :
    e.beginning? clock = none := by
  unfold step at stuck
  unfold beginning?
  cases found : e.worker with
  | none => rfl
  | some w =>
      obtain ⟨stop, activity⟩ := w
      simp only [found] at stuck
      cases activity with
      | holding t => simp at stuck
      | checking sources directory =>
          cases sources with
          | nil => rfl
          | cons s rest =>
              by_cases due : s.needsRefresh e.caches clock directory = true <;>
                simp [due] at stuck
      | _ => rfl

theorem isMarked_step {clock : Clock} {e next : Engine} (stepped : e.step clock = some next)
    (cell : CellId) :
    next.isMarked cell =
      (e.isMarked cell && (e.beginning? clock).all fun b => cell != b.1.cell) := by
  obtain ⟨t, _, begins, _, _, same⟩ | ⟨_, _, same⟩ := step_cases stepped
  · simp [isMarked, same, begins]
  · cases begins : e.beginning? clock with
    | none => simp [isMarked, same, begins]
    | some b =>
        obtain ⟨s, suggested⟩ := b
        by_cases here : cell = s.cell
        · simp [isMarked, same, begins, Caches.get_modify, here, Cache.unmark]
        · simp [isMarked, same, begins, Caches.get_modify, here]

/-- Nothing is put into the queue or taken out of it, and no mark is set or removed. -/
structure Undisturbed (e next : Engine) : Prop where
  queue : next.queue = e.queue
  held : next.held? = e.held?
  marks : ∀ cell, next.isMarked cell = e.isMarked cell

namespace Undisturbed

theorem refl (e : Engine) : Undisturbed e e where
  queue := rfl
  held := rfl
  marks _ := rfl

theorem getD {e : Engine} {next : Option Engine}
    (each : ∀ e', next = some e' → Undisturbed e e') : Undisturbed e (next.getD e) := by
  cases next with
  | none => exact refl e
  | some e' => exact each e' rfl

theorem afterFiles {e next : Engine} {result : Except LoadError (Library Source)}
    (after : e.afterFiles? result = some next) : Undisturbed e next := by
  unfold afterFiles? at after
  split at after
  · rename_i stop path found
    obtain rfl := Option.some.inj after
    unfold loaded
    split
    · exact ⟨rfl, by simp [held?, found], fun _ => rfl⟩
    · split
      · exact ⟨rfl, by simp [held?, found], fun _ => rfl⟩
      · exact ⟨rfl, by simp [held?, found, publish], fun _ => rfl⟩
  · simp at after

theorem afterCommand {e next : Engine} {now : Moment} {outcome : Outcome}
    (after : e.afterCommand? now outcome = some next) : Undisturbed e next := by
  unfold afterCommand? at after
  split at after
  · rename_i stop refresh rest found
    obtain rfl := Option.some.inj after
    cases outcome with
    | items items =>
        refine ⟨rfl, by simp [ran, held?, found], fun cell => ?_⟩
        simp only [isMarked, ran, caches_become, Refresh.publish, Caches.get_modify, Cache.publish]
        split
        · rename_i same
          subst same
          split <;> rfl
        · rfl
    | failed message => exact ⟨rfl, by simp [ran, held?, found], fun _ => rfl⟩
    | panicked payload => exact ⟨rfl, by simp [ran, held?, found], fun _ => rfl⟩
  · simp at after

theorem start {e next : Engine} (started : e.start = .ok next) : Undisturbed e next := by
  unfold Engine.start at started
  split at started
  · simp at started
  · rename_i none
    obtain rfl := Except.ok.inj started
    exact ⟨rfl, by simp [held?, none], fun _ => rfl⟩

theorem requestStop {e next : Engine} (told : e.requestStop = .ok next) :
    Undisturbed e next := by
  unfold Engine.requestStop at told
  split at told
  · simp at told
  · rename_i w found
    obtain rfl := Except.ok.inj told
    obtain ⟨stop, activity⟩ := w
    refine ⟨rfl, ?_, fun _ => rfl⟩
    cases activity <;> simp [held?, found]

theorem dismiss {e : Engine} (gone : e.workerFinished = true) : Undisturbed e e.dismiss := by
  unfold workerFinished at gone
  split at gone
  · rename_i found
    exact ⟨rfl, by simp [Engine.dismiss, held?, found], fun _ => rfl⟩
  · simp at gone

end Undisturbed

end Engine

end LineCompletion

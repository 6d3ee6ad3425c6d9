import LineCompletion.Proofs.Engine.QueueHistory

/-! # Marks and the refreshes they stand for

A suggestion marks the cache of a source before it puts the refresh of the source into the queue,
and the worker removes the mark when it begins any refresh of that cache. So a mark always stands
for a refresh that is still to come, and no source is left out for ever. But a mark may be removed
by another task while the refresh that it stood for waits, and then a suggestion asks for a second
one.
-/

namespace LineCompletion

/-- Whether a task refreshes a source of a cache since a suggestion asked for it. -/
def Task.isScheduled (cell : CellId) : Task → Bool
  | .refreshSource s _ suggested => suggested && s.cell == cell
  | _ => false

theorem Task.isScheduled_iff {cell : CellId} {t : Task} :
    t.isScheduled cell = true ↔
      ∃ source directory, t = .refreshSource source directory true ∧ source.cell = cell := by
  cases t <;> simp [isScheduled]

/-- Whether a caller has marked a cache and not yet put the refresh into the queue. -/
def Asking.announces (cell : CellId) : Asking → Bool
  | .queueing s _ _ => s.cell == cell
  | _ => false

def Asking.marks (cell : CellId) : Asking → Bool
  | .marking s _ _ => s.cell == cell
  | _ => false

section AskingStep

variable (clock : Clock) (e : Engine) (a : Asking)

theorem held?_askingStep : (a.step clock e).1.held? = e.held? := by
  cases a with
  | looking sources directory =>
      cases sources with
      | nil => rfl
      | cons s rest =>
          simp only [Asking.step]
          split <;> rfl
  | marking s rest directory => rfl
  | queueing s rest directory => rfl

theorem isMarked_askingStep (cell : CellId) :
    (a.step clock e).1.isMarked cell = (e.isMarked cell || a.marks cell) := by
  cases a with
  | looking sources directory =>
      cases sources with
      | nil => simp [Asking.step, Asking.marks]
      | cons s rest =>
          simp only [Asking.step, Asking.marks, Bool.or_false]
          split <;> rfl
  | marking s rest directory =>
      by_cases here : s.cell = cell
      · simp [Asking.step, Asking.marks, Engine.isMarked, Caches.set, Cache.mark, here]
      · simp [Asking.step, Asking.marks, Engine.isMarked, Caches.set, here, Ne.symm here]
  | queueing s rest directory => simp [Asking.step, Asking.marks, Engine.isMarked, Engine.enqueue]

theorem announces_askingStep (cell : CellId) :
    (a.step clock e).2.toList.countP (Asking.announces cell) =
      (a.marks cell && !e.isMarked cell).toNat := by
  cases a with
  | looking sources directory =>
      cases sources with
      | nil => rfl
      | cons s rest =>
          simp only [Asking.step]
          split <;> rfl
  | marking s rest directory =>
      by_cases here : s.cell = cell
      · cases marked : (e.caches.get cell).refreshQueued <;>
          simp [Asking.step, Asking.marks, Asking.announces, Engine.isMarked, Cache.mark, here,
            marked]
      · have other : (s.cell == cell) = false := beq_false_of_ne here
        cases marked : (e.caches.get s.cell).refreshQueued <;>
          simp [Asking.step, Asking.marks, Asking.announces, Cache.mark, other, marked]
  | queueing s rest directory => rfl

end AskingStep

namespace Session

variable (s : Session) (cell : CellId)

/-- The refreshes of a cache that suggestions asked for and that wait in the queue. -/
def queued : Nat :=
  s.engine.queue.tasks.countP (Task.isScheduled cell)

def held : Nat :=
  s.engine.held?.toList.countP (Task.isScheduled cell)

/-- Those that callers are about to put into the queue. -/
def announced : Nat :=
  s.asking.countP (Asking.announces cell)

def scheduled : Nat :=
  s.queued cell + s.held cell + s.announced cell

def isMarked : Bool :=
  s.engine.isMarked cell

/-- The cache of which the worker begins a refresh with a move, and whether a suggestion asked for
it. -/
def begins : Move → Option (CellId × Bool)
  | .work clock => (s.engine.beginning? clock).map fun b => (b.1.cell, b.2)
  | _ => none

/-- What a move does to the mark of a cache and to the refreshes of it that suggestions asked for,
where the worker begins a refresh or none with it. -/
inductive Effect (t : Session) (begun : Option (CellId × Bool)) : Prop where
  /-- It does nothing to them. -/
  | kept (other : ∀ suggested, begun ≠ some (cell, suggested))
      (same : t.scheduled cell = s.scheduled cell) (still : t.isMarked cell = s.isMarked cell)
  /-- A caller marks the cache and asks for one more refresh. -/
  | marked (other : ∀ suggested, begun ≠ some (cell, suggested))
      (more : t.scheduled cell = s.scheduled cell + 1) (free : s.isMarked cell = false)
      (taken : t.isMarked cell = true)
  /-- The worker begins one of the refreshes. -/
  | begun (own : begun = some (cell, true)) (fewer : s.scheduled cell = t.scheduled cell + 1)
      (removed : t.isMarked cell = false)
  /-- The worker begins another refresh of the cache. -/
  | overtaken (foreign : begun = some (cell, false)) (same : t.scheduled cell = s.scheduled cell)
      (removed : t.isMarked cell = false)

theorem countP_replace {p : Asking → Bool} {asking : List Asking} {caller : Nat} {a : Asking}
    (found : asking[caller]? = some a) (next : Option Asking) :
    (replace asking caller next).countP p + [a].countP p =
      asking.countP p + next.toList.countP p := by
  obtain ⟨inside, rfl⟩ := List.getElem?_eq_some_iff.mp found
  have parts : asking.countP p = (asking.take caller).countP p +
      ([asking[caller]].countP p + (asking.drop (caller + 1)).countP p) := by
    rw [← List.countP_append, ← List.countP_append, List.singleton_append,
      List.getElem_cons_drop, List.take_append_drop]
  cases next with
  | none =>
      simp only [replace, List.eraseIdx_eq_take_drop_succ, List.countP_append, parts,
        Option.toList_none, List.countP_nil]
      omega
  | some b =>
      have set : (asking.set caller b).countP p = (asking.take caller).countP p +
          ([b].countP p + (asking.drop (caller + 1)).countP p) := by
        rw [List.set_eq_take_append_cons_drop, if_pos inside, ← List.countP_append,
          List.singleton_append, List.countP_append]
      simp only [replace, set, parts, Option.toList_some]
      omega

theorem queued_act (m : Move) :
    s.queued cell + (s.enqueues m).countP (Task.isScheduled cell) =
      (s.takes m).countP (Task.isScheduled cell) + (s.act m).queued cell := by
  simp only [queued, ← List.countP_append, queue_act]

theorem countP_enqueues {caller : Nat} {a : Asking} (found : s.asking[caller]? = some a)
    (clock : Clock) :
    (s.enqueues (.goOn caller clock)).countP (Task.isScheduled cell) =
      [a].countP (Asking.announces cell) := by
  simp only [enqueues, found]
  cases a with
  | queueing source rest directory =>
      simp [Task.isScheduled, Asking.announces]
  | _ => rfl

/-- A caller who asks for suggestions and marks a cache asks for one more refresh of it. -/
theorem effect_goOn {caller : Nat} {a : Asking} (found : s.asking[caller]? = some a)
    (clock : Clock) : s.Effect cell (s.act (.goOn caller clock)) none := by
  have count := s.queued_act cell (.goOn caller clock)
  simp only [s.countP_enqueues cell found, takes, List.countP_nil, Nat.zero_add] at count
  have gone : s.act (.goOn caller clock) =
      { engine := (a.step clock s.engine).1
        asking := replace s.asking caller (a.step clock s.engine).2 } := by simp only [act, found]
  have held : (s.act (.goOn caller clock)).held cell = s.held cell := by
    simp only [Session.held, gone, held?_askingStep]
  have marks : (s.act (.goOn caller clock)).isMarked cell = (s.isMarked cell || a.marks cell) := by
    simp only [isMarked, gone, isMarked_askingStep]
  have announced : (s.act (.goOn caller clock)).announced cell +
        [a].countP (Asking.announces cell) =
      s.announced cell + (a.marks cell && !s.isMarked cell).toNat := by
    rw [isMarked, ← announces_askingStep clock, Session.announced, gone]
    exact countP_replace found _
  have total : (s.act (.goOn caller clock)).scheduled cell =
      s.scheduled cell + (a.marks cell && !s.isMarked cell).toNat := by
    simp only [scheduled]
    omega
  cases taken : a.marks cell with
  | false => exact .kept (by simp) (by simp [total, taken]) (by simp [marks, taken])
  | true =>
      cases marked : s.isMarked cell with
      | true => exact .kept (by simp) (by simp [total, marked]) (by simp [marks, marked])
      | false =>
          exact .marked (by simp) (by simp [total, taken, marked]) marked (by simp [marks, taken])

theorem held_eq (clock : Clock) :
    s.held cell = if s.begins (.work clock) = some (cell, true) then 1 else 0 := by
  unfold held begins Engine.held? Engine.beginning?
  cases s.engine.worker with
  | none => simp
  | some w =>
      obtain ⟨stop, activity⟩ := w
      cases activity with
      | holding t => cases t <;> simp [Task.isScheduled, and_comm]
      | checking sources directory =>
          cases sources with
          | nil => simp
          | cons source rest => simp only [Option.toList_none, List.countP_nil]; split <;> simp
      | _ => simp

theorem isMarked_work (clock : Clock) :
    (s.act (.work clock)).isMarked cell =
      (s.isMarked cell && (s.begins (.work clock)).all fun b => cell != b.1) := by
  cases stepped : s.engine.step clock with
  | none => simp [act, stepped, begins, Engine.beginning?_of_step stepped]
  | some next =>
      simp only [isMarked, act, stepped, Option.getD_some, Engine.isMarked_step stepped, begins,
        Option.all_map]

/-- With the next step of the worker, what it holds is no longer to come. -/
theorem scheduled_work (clock : Clock) :
    (s.act (.work clock)).scheduled cell + s.held cell = s.scheduled cell := by
  cases stepped : s.engine.step clock with
  | none =>
      have still : s.act (.work clock) = s := by simp [act, stepped]
      have free : s.held cell = 0 := by
        simp [s.held_eq cell clock, begins, Engine.beginning?_of_step stepped]
      rw [still, free, Nat.add_zero]
  | some next =>
      have worked : s.act (.work clock) = { s with engine := next } := by simp [act, stepped]
      have count := s.queued_act cell (.work clock)
      simp only [enqueues, List.countP_nil, Nat.add_zero] at count
      have after : (s.act (.work clock)).held cell =
          (s.takes (.work clock)).countP (Task.isScheduled cell) := by
        simp only [held, worked, takes, stepped, Option.bind_some]
      have callers : (s.act (.work clock)).announced cell = s.announced cell := by
        simp only [announced, worked]
      -- a worker that takes a task held none, and one that held a task has begun it
      have apart : s.held cell = 0 ∨
          (s.takes (.work clock)).countP (Task.isScheduled cell) = 0 := by
        obtain ⟨_, free, _⟩ | ⟨free, _⟩ := Engine.step_cases stepped
        · exact .inl (by simp [held, free])
        · exact .inr (by simp [takes, stepped, free])
      simp only [scheduled]
      omega

/-- The worker removes the mark with the refresh that it begins. -/
theorem effect_work (clock : Clock) :
    s.Effect cell (s.act (.work clock)) (s.begins (.work clock)) := by
  have total := s.scheduled_work cell clock
  have before := s.held_eq cell clock
  have marks := s.isMarked_work cell clock
  cases begun : s.begins (.work clock) with
  | none =>
      rw [begun, if_neg (by simp)] at before
      exact .kept (by simp) (by omega) (by simp [marks, begun])
  | some b =>
      obtain ⟨other, suggested⟩ := b
      by_cases here : other = cell
      · subst here
        have removed : (s.act (.work clock)).isMarked other = false := by simp [marks, begun]
        cases suggested with
        | true =>
            rw [begun, if_pos rfl] at before
            exact .begun rfl (by omega) removed
        | false =>
            rw [begun, if_neg (by simp)] at before
            exact .overtaken rfl (by omega) removed
      · rw [begun, if_neg (by simp [here])] at before
        exact .kept (by simp [here]) (by omega) (by simp [marks, begun, Ne.symm here])

variable {s} in
theorem effect_unchanged {m : Move} (idle : s.begins m = none) (free : s.takes m = [])
    (nothing : (s.enqueues m).countP (Task.isScheduled cell) = 0)
    (holding : (s.act m).engine.held? = s.engine.held?)
    (callers : (s.act m).announced cell = s.announced cell)
    (marks : (s.act m).isMarked cell = s.isMarked cell) : s.Effect cell (s.act m) (s.begins m) := by
  have count := s.queued_act cell m
  rw [nothing, free, List.countP_nil] at count
  refine .kept (by simp [idle]) ?_ marks
  simp only [scheduled, held, holding, callers]
  omega

variable {s} in
theorem effect_quiet {m : Move} (quiet : m.isQuiet = true) (idle : s.begins m = none)
    (free : s.takes m = []) (nothing : s.enqueues m = []) :
    s.Effect cell (s.act m) (s.begins m) := by
  obtain ⟨same, callers⟩ := act_quiet (s := s) quiet
  exact effect_unchanged cell idle free (by rw [nothing, List.countP_nil]) same.held
    (by rw [announced, callers, announced]) (same.marks cell)

/-- What a move does to the mark of a cache and to the refreshes that suggestions asked for. -/
theorem effect_act (m : Move) : s.Effect cell (s.act m) (s.begins m) := by
  cases m with
  | requestLoad | refreshSource | refreshDictionary =>
      exact effect_unchanged cell rfl rfl rfl rfl rfl rfl
  | suggest request =>
      obtain still | ⟨sources, directory, added⟩ := act_suggest s request
      · exact effect_unchanged cell rfl rfl rfl (by rw [still]) (by rw [still]) (by rw [still])
      · exact effect_unchanged cell rfl rfl rfl (by rw [added])
          (by simp [added, announced, Asking.announces]) (by rw [added]; rfl)
  | goOn caller clock =>
      cases found : s.asking[caller]? with
      | none =>
          have still : s.act (.goOn caller clock) = s := by simp only [act, found]
          rw [still]
          exact .kept (by simp [begins]) rfl rfl
      | some a => exact s.effect_goOn cell found clock
  | putBarrier =>
      cases found : s.engine.worker with
      | none =>
          have still : s.act .putBarrier = s := by simp only [act, Engine.putBarrier, found]
          rw [still]
          exact .kept (by simp [begins]) rfl rfl
      | some w =>
          refine effect_unchanged cell rfl rfl ?_ ?_ ?_ ?_
          · simp [enqueues, found, Task.isScheduled]
          · simp [act, Engine.putBarrier, found, Engine.held?, Engine.enqueue]
          · simp [act, Engine.putBarrier, found, announced]
          · simp [act, Engine.putBarrier, found, isMarked, Engine.isMarked, Engine.enqueue]
  | setRefreshOnSuggest | start | requestStop | dismiss | writeCache | filesRead | commandEnded =>
      exact effect_quiet cell rfl rfl rfl rfl
  | work clock => exact s.effect_work cell clock

section Runs

variable {s : Session} {cell : CellId}

theorem covered_effect {t : Session} {begun : Option (CellId × Bool)}
    (effect : s.Effect cell t begun) (covered : s.isMarked cell = true → 0 < s.scheduled cell) :
    t.isMarked cell = true → 0 < t.scheduled cell := by
  intro marked
  cases effect with
  | kept _ same still =>
      rw [same]
      exact covered (still ▸ marked)
  | marked _ more _ _ => omega
  | begun _ _ removed => exact absurd marked (by simp [removed])
  | overtaken _ _ removed => exact absurd marked (by simp [removed])

theorem covered_run (moves : List Move) (covered : s.isMarked cell = true → 0 < s.scheduled cell) :
    (s.run moves).isMarked cell = true → 0 < (s.run moves).scheduled cell := by
  induction moves generalizing s with
  | nil => exact covered
  | cons m moves ih => exact ih (covered_effect (s.effect_act cell m) covered)

end Runs

/-- While no suggestion is under way, a mark stands for a refresh that a suggestion asked for and
that waits in the queue or was taken and not begun. -/
theorem marked_refresh_to_come (options : SuggestOptions) (context : ContextId)
    (moves : List Move) (cell : CellId)
    (idle : ((fresh options context).run moves).asking = [])
    (marked : ((fresh options context).run moves).isMarked cell = true) :
    ∃ source directory, source.cell = cell ∧
      (Task.refreshSource source directory true ∈
          ((fresh options context).run moves).engine.queue.tasks ∨
        ((fresh options context).run moves).engine.held? =
          some (.refreshSource source directory true)) := by
  have covered : 0 < ((fresh options context).run moves).scheduled cell :=
    covered_run moves (by simp [fresh, isMarked, Engine.isMarked]) marked
  have silent : ((fresh options context).run moves).announced cell = 0 := by simp [announced, idle]
  have waits : 0 < ((fresh options context).run moves).queued cell ∨
      0 < ((fresh options context).run moves).held cell := by
    unfold scheduled at covered
    omega
  obtain queued | held := waits
  · obtain ⟨t, waiting, scheduled⟩ := List.countP_pos_iff.mp queued
    obtain ⟨source, directory, rfl, here⟩ := Task.isScheduled_iff.mp scheduled
    exact ⟨source, directory, here, .inl waiting⟩
  · obtain ⟨t, taken, scheduled⟩ := List.countP_pos_iff.mp held
    obtain ⟨source, directory, rfl, here⟩ := Task.isScheduled_iff.mp scheduled
    exact ⟨source, directory, here, .inr (Option.mem_toList.mp taken)⟩

def branches : LiveSource where
  name := "branches"
  provider := .dynamic "git branch"
  cell := 0
  context := some 0

def branchLibrary : Library Source where
  dictionaries := [(Dictionary.ofCommand "git").withParameter
    ((Parameter.positional "branch").withSource branches.toSource)]

def loadBranches : List Move :=
  [.start, .work fun _ => 0, .requestLoad "git.json", .work fun _ => 0, .work fun _ => 0,
    .filesRead (.ok branchLibrary)]

/-- A caller asks for suggestions and nobody interrupts it. -/
def suggestBranches : List Move :=
  .suggest { line := { tokens := [.parse "git"], trailingSpace := true } } ::
    List.replicate 4 (.goOn 0 fun _ => 0)

theorem marked_refresh_to_come_branches :
    ((fresh {} 0).run (loadBranches ++ suggestBranches)).asking = [] ∧
      ((fresh {} 0).run (loadBranches ++ suggestBranches)).isMarked 0 = true ∧
      ∃ source directory, source.cell = 0 ∧
        (Task.refreshSource source directory true ∈
            ((fresh {} 0).run (loadBranches ++ suggestBranches)).engine.queue.tasks ∨
          ((fresh {} 0).run (loadBranches ++ suggestBranches)).engine.held? =
            some (.refreshSource source directory true)) := by
  have idle : ((fresh {} 0).run (loadBranches ++ suggestBranches)).asking = [] := by rfl
  have marked : ((fresh {} 0).run (loadBranches ++ suggestBranches)).isMarked 0 = true := by rfl
  exact ⟨idle, marked, marked_refresh_to_come {} 0 _ 0 idle marked⟩

/-- How often the worker begins, with some moves, a refresh of a cache that a suggestion asked for,
or another one, while the cache is marked, or while it is not. -/
def timesBegun (cell : CellId) (suggested marked : Bool) : Session → List Move → Nat
  | _, [] => 0
  | s, m :: moves =>
    (if s.begins m = some (cell, suggested) ∧ s.isMarked cell = marked then 1 else 0) +
      timesBegun cell suggested marked (s.act m) moves

theorem count_effect {s t : Session} {cell : CellId} {begun : Option (CellId × Bool)}
    (effect : s.Effect cell t begun) :
    t.scheduled cell + (s.isMarked cell).toNat +
        (if begun = some (cell, true) ∧ s.isMarked cell = false then 1 else 0) =
      s.scheduled cell + (t.isMarked cell).toNat +
        (if begun = some (cell, false) ∧ s.isMarked cell = true then 1 else 0) := by
  cases effect with
  | kept other same still => simp [other, same, still]
  | marked other more free taken => simp [other, more, free, taken]
  | begun own fewer removed =>
      cases marked : s.isMarked cell <;> simp [own, fewer, removed]
  | overtaken foreign same removed =>
      cases marked : s.isMarked cell <;> simp [foreign, same, removed]

theorem count_run (s : Session) (cell : CellId) (moves : List Move) :
    (s.run moves).scheduled cell + (s.isMarked cell).toNat +
        timesBegun cell true false s moves =
      s.scheduled cell + ((s.run moves).isMarked cell).toNat +
        timesBegun cell false true s moves := by
  induction moves generalizing s with
  | nil => rfl
  | cons m moves ih =>
      have first := count_effect (s.effect_act cell m)
      have later := ih (s.act m)
      simp only [run_cons, timesBegun]
      omega

/-- The refreshes of a cache that suggestions asked for and that are still to come, with those that
were begun without a mark, are one for the mark and one more for each time that the mark was removed
for another refresh. -/
theorem scheduled_refreshes_counted (options : SuggestOptions) (context : ContextId)
    (moves : List Move) (cell : CellId) :
    ((fresh options context).run moves).queued cell +
          ((fresh options context).run moves).held cell +
          ((fresh options context).run moves).announced cell +
        timesBegun cell true false (fresh options context) moves =
      (((fresh options context).run moves).isMarked cell).toNat +
        timesBegun cell false true (fresh options context) moves := by
  have counted := count_run (fresh options context) cell moves
  have unmarked : (fresh options context).isMarked cell = false := rfl
  have nothing : (fresh options context).scheduled cell = 0 := rfl
  rw [unmarked, nothing, scheduled] at counted
  simpa using counted

/-- Where no other refresh of a cache begins while it is marked, at most one waits. -/
theorem queued_le_one (options : SuggestOptions) (context : ContextId) (moves : List Move)
    (cell : CellId) (alone : timesBegun cell false true (fresh options context) moves = 0) :
    ((fresh options context).run moves).queued cell ≤ 1 := by
  have counted := count_run (fresh options context) cell moves
  have atMost := Bool.toNat_le (((fresh options context).run moves).isMarked cell)
  have nothing : (fresh options context).scheduled cell = 0 := rfl
  have parts : ((fresh options context).run moves).queued cell ≤
      ((fresh options context).run moves).scheduled cell := by
    unfold scheduled
    omega
  omega

/-- A caller asks for a refresh, suggestions ask for one more, and while the worker does the first,
suggestions ask for a third. -/
theorem two_scheduled_refreshes_wait :
    ¬ ∀ (options : SuggestOptions) (context : ContextId) (moves : List Move) (cell : CellId),
      ((fresh options context).run moves).queued cell ≤ 1 := by
  intro atMost
  have two : ((fresh {} 0).run (loadBranches ++ [.refreshSource branches none] ++ suggestBranches ++
      List.replicate 2 (.work fun _ => 0) ++ suggestBranches)).queued 0 = 2 := by rfl
  have one : ((fresh {} 0).run (loadBranches ++ [.refreshSource branches none] ++ suggestBranches ++
      List.replicate 2 (.work fun _ => 0) ++ suggestBranches)).queued 0 ≤ 1 := atMost {} 0 _ 0
  omega

end Session

end LineCompletion

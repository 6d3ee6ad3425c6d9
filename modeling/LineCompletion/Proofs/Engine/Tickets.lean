import LineCompletion.Proofs.Engine.Completion

/-! # Barriers that are reached

A barrier takes the next ticket where it is put into the queue, and is reached just where a worker
completes it, for it cannot fail.
-/

namespace LineCompletion

namespace Engine

theorem beginRefresh_tickets (e : Engine) (s : LiveSource) (directory : Option String)
    (rest : List LiveSource) :
    (e.beginRefresh s directory rest).reached = e.reached ∧
      (e.beginRefresh s directory rest).nextTicket = e.nextTicket := by
  simp only [beginRefresh]
  split <;> exact ⟨rfl, rfl⟩

/-- A worker reaches a barrier with the step with which it begins it. -/
theorem tickets_step {clock : Clock} {e next : Engine} (stepped : e.step clock = some next) :
    next.reached = (e.held?.bind Task.ticket?).toList ++ e.reached ∧
      next.nextTicket = e.nextTicket := by
  unfold step at stepped
  cases found : e.worker with
  | none => simp [found] at stepped
  | some w =>
      obtain ⟨stop, activity⟩ := w
      simp only [found] at stepped
      cases activity with
      | starting | failing | failed =>
          obtain rfl := Option.some.inj stepped
          exact ⟨by simp [held?, found, become], rfl⟩
      | waiting =>
          cases popped : e.queue.pop stop with
          | mk answer queue =>
              simp only [popped] at stepped
              cases answer with
              | stopped | task =>
                  obtain rfl := Option.some.inj stepped
                  exact ⟨by simp [held?, found, become], rfl⟩
              | waits => simp at stepped
      | holding t =>
          obtain rfl := Option.some.inj stepped
          cases t with
          | refreshSource source directory =>
              obtain ⟨reached, next⟩ := beginRefresh_tickets e source directory []
              exact ⟨by simpa [held?, found, Task.ticket?, begin] using reached, next⟩
          | load | refreshDictionary | barrier =>
              exact ⟨by simp [held?, found, Task.ticket?, begin, become], rfl⟩
      | checking sources directory =>
          cases sources with
          | nil =>
              obtain rfl := Option.some.inj stepped
              exact ⟨by simp [held?, found, become], rfl⟩
          | cons s rest =>
              simp only at stepped
              split at stepped
              · obtain rfl := Option.some.inj stepped
                obtain ⟨reached, next⟩ := beginRefresh_tickets e s directory rest
                exact ⟨by simpa [held?, found] using reached, next⟩
              · obtain rfl := Option.some.inj stepped
                exact ⟨by simp [held?, found, become], rfl⟩
      | loading | refreshing | finished => simp at stepped

end Engine

namespace Session

open Engine

/-- A worker reaches a barrier where it begins it, and a barrier that is put into the queue takes
the next ticket. -/
structure Tickets (s : Session) (m : Move) : Prop where
  reached : (s.act m).engine.reached =
    (if m.isWork then (s.engine.held?.bind Task.ticket?).toList else []) ++ s.engine.reached
  next : (s.act m).engine.nextTicket =
    s.engine.nextTicket + ((s.enqueues m).filterMap Task.ticket?).length

theorem Tickets.same {s : Session} {m : Move} (work : m.isWork = false)
    (free : (s.enqueues m).filterMap Task.ticket? = [])
    (still : (s.act m).engine.reached = s.engine.reached ∧
      (s.act m).engine.nextTicket = s.engine.nextTicket) : Tickets s m :=
  ⟨by simp [work, still], by simp [free, still]⟩

theorem tickets_act (s : Session) (m : Move) : Tickets s m := by
  cases m with
  | requestLoad | refreshSource | refreshDictionary | setRefreshOnSuggest | writeCache =>
      exact ⟨rfl, rfl⟩
  | suggest request =>
      obtain still | ⟨sources, directory, added⟩ := act_suggest s request
      · exact .same rfl rfl (by rw [still]; exact ⟨rfl, rfl⟩)
      · exact .same rfl rfl (by rw [added]; exact ⟨rfl, rfl⟩)
  | goOn caller clock =>
      cases found : s.asking[caller]? with
      | none => exact .same rfl (by simp [enqueues, found]) (by simp [act, found])
      | some a =>
          cases a with
          | looking sources directory =>
              refine .same rfl (by simp [enqueues, found]) ?_
              cases sources with
              | nil => simp [act, found, Asking.step]
              | cons source rest =>
                  simp only [act, found, Asking.step]
                  split <;> exact ⟨rfl, rfl⟩
          | marking =>
              exact .same rfl (by simp [enqueues, found]) (by simp [act, found, Asking.step])
          | queueing =>
              exact .same rfl (by simp [enqueues, found, Task.ticket?])
                (by simp [act, found, Asking.step, enqueue])
  | putBarrier =>
      cases found : s.engine.worker with
      | none => exact .same rfl (by simp [enqueues, found]) (by simp [act, putBarrier, found])
      | some w =>
          exact ⟨by simp [act, putBarrier, found, Move.isWork, enqueue],
            by simp [act, putBarrier, found, enqueues, Task.ticket?]⟩
  | start =>
      refine .same rfl rfl ?_
      simp only [act, Engine.start]
      split <;> exact ⟨rfl, rfl⟩
  | requestStop =>
      refine .same rfl rfl ?_
      simp only [act, Engine.requestStop]
      split <;> exact ⟨rfl, rfl⟩
  | dismiss =>
      refine .same rfl rfl ?_
      simp only [act]
      split <;> exact ⟨rfl, rfl⟩
  | work clock =>
      cases stepped : s.engine.step clock with
      | none =>
          cases held : s.engine.held? with
          | none => exact ⟨by simp [act, stepped, held], by simp [act, stepped, enqueues]⟩
          | some t =>
              -- a worker that holds a task can go on
              obtain ⟨stop, found⟩ := worker_of_activity? (activity?_of_held? held)
              simp [Engine.step, found] at stepped
      | some next =>
          obtain ⟨reached, same⟩ := tickets_step stepped
          exact ⟨by simpa [act, stepped, Move.isWork] using reached,
            by simpa [act, stepped, enqueues] using same⟩
  | filesRead result =>
      refine .same rfl rfl ?_
      obtain ⟨_, still⟩ | ⟨path, _, read⟩ := filesRead_cases s result
      · rw [still]
        exact ⟨rfl, rfl⟩
      · rw [read]
        obtain ⟨cause, fails, _⟩ | ⟨_, _, _, _, _, ready⟩ := loaded_cases s.engine result
        · rw [fails]
          exact ⟨rfl, rfl⟩
        · rw [ready]
          exact ⟨rfl, rfl⟩
  | commandEnded now outcome =>
      refine .same rfl rfl ?_
      obtain still | ⟨refresh, rest, _, ended⟩ := commandEnded_cases s now outcome
      · rw [still]
        exact ⟨rfl, rfl⟩
      · rw [ended]
        cases outcome <;> exact ⟨rfl, rfl⟩

/-! ## Barriers are reached where they are completed -/

section Reached

variable {s : Session} {current : Option Task} {ticket : Nat}

/-- A worker that holds a barrier completes it with its next step, and only so. -/
theorem completes_barrier_iff (occupied : Occupied s.engine current) (m : Move) :
    (m.isWork = true ∧ s.engine.held? = some (.barrier ticket)) ↔
      (s.completes m = true ∧ current = some (.barrier ticket)) := by
  cases occupied with
  | free does free =>
      have held : s.engine.held? = none := by
        refine held?_of_other does fun t same => ?_
        simp [same] at free
      simp [held]
  | stopped gone => simp [held?_of_other gone]
  | begun does notBarrier begun =>
      have held : s.engine.held? = none := by
        refine held?_of_other does fun t same => ?_
        simp [same, Activity.isUnderWay, Activity.isLeaving] at begun
      simp only [held, reduceCtorEq, and_false, Option.some.injEq, false_iff, not_and]
      rintro - rfl
      simp [Task.ticket?] at notBarrier
  | @holds t holds =>
      have held := held?_eq_some_iff.mpr holds
      simp only [held, Option.some.injEq]
      refine and_congr_left ?_
      rintro rfl
      constructor
      · intro work
        cases m with
        | work clock =>
            obtain ⟨stop, found⟩ := worker_of_activity? holds
            simp [completes, isIdle, Activity.isTask, act, Engine.step, found, begin, isWaiting,
              activity?]
        | _ => simp [Move.isWork] at work
      · intro completes
        -- without a step of the worker it still holds the barrier
        by_contra work
        have still := held?_act_of_not_work (s := s) (Bool.eq_false_iff.mpr work)
        rw [held, held?_of_waiting (Bool.and_eq_true_iff.mp completes).2] at still
        cases still

theorem mem_reached_act (occupied : Occupied s.engine current) (m : Move) :
    ticket ∈ (s.act m).engine.reached ↔
      .barrier ticket ∈ (if s.completes m then current.toList else []) ∨
        ticket ∈ s.engine.reached := by
  rw [(tickets_act s m).reached, List.mem_append]
  refine or_congr_left ?_
  have begins : (m.isWork = true ∧ s.engine.held? = some (.barrier ticket)) ↔
      (s.completes m = true ∧ current = some (.barrier ticket)) := completes_barrier_iff occupied m
  simpa [Option.bind_eq_some_iff, Task.ticket?_eq_some_iff] using begins

/-- A barrier is reached where it is completed. -/
theorem mem_reached_run (occupied : Occupied s.engine current) {moves : List Move}
    (there : ∀ part, part <+: moves → (s.run part).engine.activity? ≠ none) :
    ticket ∈ (s.run moves).engine.reached ↔
      .barrier ticket ∈ s.completed current moves ∨ ticket ∈ s.engine.reached := by
  induction moves generalizing s current with
  | nil => simp [completed]
  | cons m moves ih =>
      have now := (occupied_act occupied (there [m] (by simp))).1
      rw [run_cons, ih now fun part before => there (m :: part) (by simpa using before),
        mem_reached_act occupied, completed, List.mem_append]
      tauto

end Reached

theorem Since.mem_reached_iff {s : Session} {old new : List Move} (since : Since s old new)
    {ticket : Nat} :
    ticket ∈ (s.run (old ++ .start :: new)).engine.reached ↔
      .barrier ticket ∈ (s.run (old ++ [.start])).completed none new ∨
        ticket ∈ (s.run (old ++ [.start])).engine.reached := by
  rw [← mem_reached_run since.begins fun part => since.there_started]
  simp

/-! ## Tickets are given once -/

theorem enqueued_append (s : Session) (early late : List Move) :
    s.enqueued (early ++ late) = s.enqueued early ++ (s.run early).enqueued late := by
  induction early generalizing s with
  | nil => rfl
  | cons m early ih => simp only [List.cons_append, enqueued, ih, run_cons, List.append_assoc]

theorem mem_enqueues_barrier {s : Session} {m : Move} {ticket : Nat}
    (puts : .barrier ticket ∈ s.enqueues m) : ticket = s.engine.nextTicket := by
  cases m with
  | putBarrier =>
      simp only [enqueues] at puts
      split at puts
      · simpa using puts
      · simp at puts
  | goOn caller clock =>
      simp only [enqueues] at puts
      split at puts <;> simp at puts
  | _ => simp [enqueues] at puts

theorem nextTicket_le_act (s : Session) (m : Move) :
    s.engine.nextTicket ≤ (s.act m).engine.nextTicket := by
  rw [(tickets_act s m).next]
  exact Nat.le_add_right _ _

theorem nextTicket_le_run (s : Session) (moves : List Move) :
    s.engine.nextTicket ≤ (s.run moves).engine.nextTicket := by
  induction moves generalizing s with
  | nil => exact Nat.le_refl _
  | cons m moves ih => exact Nat.le_trans (nextTicket_le_act s m) (ih (s.act m))

theorem ticket_lt_of_enqueued {s : Session} {moves : List Move} {ticket : Nat}
    (put : .barrier ticket ∈ s.enqueued moves) :
    ticket < (s.run moves).engine.nextTicket := by
  induction moves generalizing s with
  | nil => simp [enqueued] at put
  | cons m moves ih =>
      rcases List.mem_append.mp put with first | later
      · have here := mem_enqueues_barrier first
        have takes := (tickets_act s m).next
        have later := nextTicket_le_run (s.act m) moves
        have one : 0 < ((s.enqueues m).filterMap Task.ticket?).length :=
          List.length_pos_of_mem (List.mem_filterMap.mpr ⟨_, first, rfl⟩)
        rw [run_cons]
        omega
      · exact ih later

/-- What a worker holds and what was reached was taken out of the queue. -/
theorem taken_of_reached (options : SuggestOptions) (context : ContextId) (moves : List Move) :
    let s := (fresh options context).run moves
    (∀ t, s.engine.held? = some t → t ∈ (fresh options context).taken moves) ∧
      ∀ ticket ∈ s.engine.reached, .barrier ticket ∈ (fresh options context).taken moves := by
  -- from the end: a barrier is held before it is reached
  induction moves using List.reverseRecOn with
  | nil => exact ⟨fun t held => by simp [fresh, held?] at held, by simp [fresh]⟩
  | append_singleton moves m ih =>
      obtain ⟨holds, reaches⟩ := ih
      have last : (fresh options context).run (moves ++ [m]) =
          ((fresh options context).run moves).act m := by simp
      simp only [last, taken_append, taken, List.append_nil, List.mem_append]
      constructor
      · intro t held
        rw [takes_eq]
        rcases (course_act _ m).of_holding (activity?_of_held? held) with waits | before
        · right
          simp [isWaiting_iff.mpr waits, held]
        · exact .inl (holds t (held?_eq_some_iff.mpr before))
      · intro ticket reached
        rw [(tickets_act _ m).reached, List.mem_append] at reached
        rcases reached with now | before
        · left
          refine holds _ ?_
          simp [Option.bind_eq_some_iff, Task.ticket?_eq_some_iff] at now
          exact now.2
        · exact .inl (reaches ticket before)

theorem taken_prefix_enqueued (options : SuggestOptions) (context : ContextId)
    (moves : List Move) :
    (fresh options context).taken moves <+: (fresh options context).enqueued moves := by
  refine ⟨((fresh options context).run moves).engine.queue.tasks, ?_⟩
  rw [← queue_run]
  rfl

end Session

end LineCompletion

import LineCompletion.Proofs.Engine.Course

/-! # Tasks that are completed

The tasks that one worker takes are those that it completes, in that order, and at most one more:
the one that it does, or at which it failed.
-/

namespace LineCompletion

def Task.ticket? : Task → Option Nat
  | .barrier ticket => some ticket
  | _ => none

theorem Task.ticket?_eq_some_iff {t : Task} {ticket : Nat} :
    t.ticket? = some ticket ↔ t = .barrier ticket := by
  cases t <;> simp [ticket?]

namespace Engine

/-- A worker is occupied with the task that it does or that has failed, or with none if it has
completed all that it took. -/
inductive Occupied (e : Engine) : Option Task → Prop where
  | free {a : Activity} (does : e.activity? = some a) (free : a = .starting ∨ a = .waiting) :
      Occupied e none
  | stopped (gone : e.activity? = some .finished) (told : e.isStopping = true) : Occupied e none
  | holds {t : Task} (holds : e.activity? = some (.holding t)) : Occupied e (some t)
  | begun {t : Task} {a : Activity} (does : e.activity? = some a) (other : t.ticket? = none)
      (begun : a.isUnderWay = true ∨ a.isLeaving = true) : Occupied e (some t)

namespace Occupied

variable {e next : Engine} {current : Option Task}

theorem present (occupied : Occupied e current) : e.activity? ≠ none := by
  cases occupied with
  | free does | stopped does | holds does | begun does => simp [does]

theorem eq_none {a : Activity} (occupied : Occupied e current) (does : e.activity? = some a)
    (free : a = .starting ∨ a = .waiting) : current = none := by
  cases occupied with
  | free | stopped => rfl
  | holds holds =>
      obtain rfl := Option.some.inj (does.symm.trans holds)
      simp at free
  | begun other _ begun =>
      obtain rfl := Option.some.inj (does.symm.trans other)
      rcases free with rfl | rfl <;> simp [Activity.isUnderWay, Activity.isLeaving] at begun

theorem eq_some {a : Activity} (occupied : Occupied e current) (does : e.activity? = some a)
    (task : a.isTask = true) :
    ∃ t, current = some t ∧ ((∀ ticket, a ≠ .holding (.barrier ticket)) → t.ticket? = none) := by
  cases occupied with
  | free own free =>
      obtain rfl := Option.some.inj (does.symm.trans own)
      rcases free with rfl | rfl <;> simp [Activity.isTask] at task
  | stopped gone =>
      obtain rfl := Option.some.inj (does.symm.trans gone)
      simp [Activity.isTask] at task
  | @holds t holds =>
      obtain rfl := Option.some.inj (does.symm.trans holds)
      refine ⟨t, rfl, fun other => ?_⟩
      cases t with
      | barrier ticket => exact absurd rfl (other ticket)
      | _ => rfl
  | @begun t _ _ other => exact ⟨t, rfl, fun _ => other⟩

theorem eq_some_of_failed {a : Activity} (occupied : Occupied e current)
    (does : e.activity? = some a) (leaves : a.isLeaving = true)
    (told : a = .finished → e.isStopping = false) :
    ∃ t, current = some t ∧ t.ticket? = none := by
  cases occupied with
  | free own free =>
      obtain rfl := Option.some.inj (does.symm.trans own)
      rcases free with rfl | rfl <;> simp [Activity.isLeaving] at leaves
  | stopped gone stopping =>
      obtain rfl := Option.some.inj (does.symm.trans gone)
      simp [told rfl] at stopping
  | holds holds =>
      obtain rfl := Option.some.inj (does.symm.trans holds)
      simp [Activity.isLeaving] at leaves
  | @begun t _ _ other => exact ⟨t, rfl, other⟩

end Occupied

theorem Passes.busy {e next : Engine} {a b : Activity} (turned : Passes e next a b)
    (task : a.isTask = true) : e.activity? ≠ some .waiting := by
  intro waits
  obtain rfl := Option.some.inj (turned.was.symm.trans waits)
  simp [Activity.isTask] at task

end Engine

namespace Session

open Engine

def completes (s : Session) (m : Move) : Bool :=
  !s.engine.isIdle && (s.act m).engine.isWaiting

def taskAfter (s : Session) (current : Option Task) (m : Move) : Option Task :=
  if s.completes m then none else (s.takes m).head?.or current

def taskAfterAll : Session → Option Task → List Move → Option Task
  | _, current, [] => current
  | s, current, m :: moves => (s.act m).taskAfterAll (s.taskAfter current m) moves

/-- The tasks that the worker completes with some moves, in order. -/
def completed : Session → Option Task → List Move → List Task
  | _, _, [] => []
  | s, current, m :: moves =>
    (if s.completes m then current.toList else []) ++
      (s.act m).completed (s.taskAfter current m) moves

/-- A worker takes the task that it holds after it has asked for one. -/
theorem takes_eq (s : Session) (m : Move) :
    s.takes m = if s.engine.isWaiting then (s.act m).engine.held?.toList else [] := by
  cases work : m.isWork with
  | false =>
      have none : s.takes m = [] := by
        cases m with
        | work => simp [Move.isWork] at work
        | _ => rfl
      rw [none, held?_act_of_not_work work]
      split
      · rename_i waits
        rw [held?_of_waiting waits]
        rfl
      · rfl
  | true =>
      cases m with
      | work clock =>
          cases stepped : s.engine.step clock with
          | none =>
              simp only [takes, act, stepped, Option.getD_none]
              split
              · rename_i waits
                simp [held?_of_waiting waits]
              · rfl
          | some next =>
              simp only [takes, act, stepped, Option.getD_some, Option.bind_some]
              obtain ⟨t, free, _, held, _⟩ | ⟨held, _⟩ := step_cases stepped
              · have waits : s.engine.isWaiting = true := by
                  refine isWaiting_iff.mpr ?_
                  rcases (course_step stepped).1.of_holding (activity?_of_held? held) with
                    waits | holds
                  · exact waits
                  · rw [held?_eq_some_iff.mpr holds] at free
                    cases free
                simp [waits]
              · simp [held]
      | _ => simp [Move.isWork] at work

section Occupied

variable {s : Session} {current : Option Task} {m : Move}

theorem occupied_quiet (free : s.completes m = false) (nothing : s.takes m = [])
    (still : Occupied (s.act m).engine current) :
    Occupied (s.act m).engine (s.taskAfter current m) ∧
      current.toList ++ s.takes m =
        (if s.completes m then current.toList else []) ++ (s.taskAfter current m).toList := by
  simp [taskAfter, free, nothing, still]

theorem completes_of_ne_waiting (busy : (s.act m).engine.activity? ≠ some .waiting) :
    s.completes m = false := by
  simp [completes, mt isWaiting_iff.mp busy]

theorem takes_of_ne_waiting (busy : s.engine.activity? ≠ some .waiting) : s.takes m = [] := by
  rw [takes_eq, if_neg (mt isWaiting_iff.mp busy)]

/-- A worker completes the task with which it is occupied, or takes one if it is occupied with none,
or stays with what it has. -/
theorem occupied_act (occupied : Occupied s.engine current)
    (there : (s.act m).engine.activity? ≠ none) :
    Occupied (s.act m).engine (s.taskAfter current m) ∧
      current.toList ++ s.takes m =
        (if s.completes m then current.toList else []) ++ (s.taskAfter current m).toList := by
  cases course_act s m with
  | stands same =>
      have still : Occupied (s.act m).engine current := by
        cases occupied with
        | free does free => exact .free (same.activity.trans does) free
        | holds holds => exact .holds (same.activity.trans holds)
        | begun does other begun => exact .begun (same.activity.trans does) other begun
        | stopped gone told =>
            obtain ⟨-, none⟩ | stopping := isStopping_act told m
            · exact absurd none there
            · exact .stopped (same.activity.trans gone) stopping
      by_cases waits : s.engine.activity? = some .waiting
      · have idle : s.completes m = false := by
          simp [completes, isIdle, waits, Activity.isTask]
        have nothing : s.takes m = [] := by
          have waits' := isWaiting_iff.mpr (same.activity.trans waits)
          rw [takes_eq, held?_of_waiting waits']
          simp
        exact occupied_quiet idle nothing still
      · have busy : (s.act m).engine.activity? ≠ some .waiting := by rwa [same.activity]
        exact occupied_quiet (completes_of_ne_waiting busy) (takes_of_ne_waiting waits) still
  | starts none => exact absurd none occupied.present
  | dismissed _ none => exact absurd none there
  | opens was now =>
      obtain rfl := occupied.eq_none was (.inl rfl)
      exact occupied_quiet (by simp [completes, isIdle, was, Activity.isTask])
        (takes_of_ne_waiting (by simp [was])) (.free now (.inr rfl))
  | stops was told now =>
      obtain rfl := occupied.eq_none was (.inr rfl)
      obtain ⟨-, none⟩ | stopping := isStopping_act told m
      · exact absurd none there
      · have nothing : s.takes m = [] := by simp [takes_eq, held?_of_other now]
        exact occupied_quiet (completes_of_ne_waiting (by simp [now])) nothing
          (.stopped now stopping)
  | @takes t turned =>
      obtain rfl := occupied.eq_none turned.was (.inr rfl)
      have takes : s.takes m = [t] := by
        simp [takes_eq, isWaiting_iff.mpr turned.was, held?_eq_some_iff.mpr turned.now]
      have idle : s.completes m = false := completes_of_ne_waiting (by simp [turned.now])
      simp [taskAfter, idle, takes, Occupied.holds turned.now]
  | goesOn task turned still other =>
      obtain ⟨t, rfl, notBarrier⟩ := occupied.eq_some turned.was task
      have goes : (s.act m).engine.activity? ≠ some .waiting := by
        intro waits
        obtain rfl := Option.some.inj (turned.now.symm.trans waits)
        simp [Activity.isUnderWay] at still
      exact occupied_quiet (completes_of_ne_waiting goes) (takes_of_ne_waiting (turned.busy task))
        (.begun turned.now (notBarrier other) (.inl still))
  | completes task turned =>
      obtain ⟨t, rfl, -⟩ := occupied.eq_some turned.was task
      have completes : s.completes m = true := by
        simp [completes, isIdle, turned.was, task, isWaiting_iff.mpr turned.now]
      simp [taskAfter, completes, takes_of_ne_waiting (turned.busy task),
        Occupied.free turned.now (.inr rfl)]
  | fails task turned other =>
      obtain ⟨t, rfl, notBarrier⟩ := occupied.eq_some turned.was task
      exact occupied_quiet (completes_of_ne_waiting (by simp [turned.now]))
        (takes_of_ne_waiting (turned.busy task)) (.begun turned.now (notBarrier other) (.inr rfl))
  | tells was now | quits was now =>
      obtain ⟨t, rfl, other⟩ := occupied.eq_some_of_failed was rfl (by simp)
      exact occupied_quiet (completes_of_ne_waiting (by simp [now]))
        (takes_of_ne_waiting (by simp [was])) (.begun now other (.inr rfl))

theorem occupied_run (occupied : Occupied s.engine current) {moves : List Move}
    (there : ∀ part, part <+: moves → (s.run part).engine.activity? ≠ none) :
    Occupied (s.run moves).engine (s.taskAfterAll current moves) ∧
      current.toList ++ s.taken moves =
        s.completed current moves ++ (s.taskAfterAll current moves).toList := by
  induction moves generalizing s current with
  | nil => exact ⟨occupied, by simp [taken, completed, taskAfterAll]⟩
  | cons m moves ih =>
      obtain ⟨now, first⟩ := occupied_act occupied (there [m] (by simp))
      obtain ⟨last, rest⟩ := ih now fun part before => there (m :: part) (by simpa using before)
      refine ⟨last, ?_⟩
      rw [taken, completed, taskAfterAll, ← List.append_assoc, first, List.append_assoc, rest,
        List.append_assoc]

end Occupied

/-! ## The present worker -/

theorem present_act {s : Session} {m : Move} (shared : m.isExclusive = false)
    (there : s.engine.activity? ≠ none) : (s.act m).engine.activity? ≠ none := by
  rwa [ne_eq, ← stop?_eq_none_iff, stop?_act shared, stop?_eq_none_iff]

theorem stop?_run {s : Session} {moves : List Move}
    (shared : ∀ m ∈ moves, m.isExclusive = false) :
    (s.run moves).engine.stop? = s.engine.stop? := by
  induction moves generalizing s with
  | nil => rfl
  | cons m moves ih =>
      obtain ⟨own, others⟩ := List.forall_mem_cons.mp shared
      rw [run_cons, ih others, stop?_act own]

theorem start_of_present {s : Session} {m : Move} (absent : s.engine.activity? = none)
    (there : (s.act m).engine.activity? ≠ none) :
    m = .start ∧ (s.act m).engine.activity? = some .starting := by
  by_cases callers : m.isCallers = true
  · cases called_act s callers with
    | apart stands _ | wrote stands _ => exact absurd (stands.activity.trans absent) there
    | dismissed gone => simp [gone] at absent
    | started _ same => exact ⟨rfl, by rw [same]; rfl⟩
  · have idle : s.engine.isIdle = true := by simp [isIdle, absent]
    have none := worker_eq_none_iff.mpr absent
    cases m with
    | work clock => simp [act, Engine.step, none, absent] at there
    | filesRead | commandEnded =>
        rw [act_of_idle idle rfl rfl] at there
        exact absurd absent there
    | _ => simp [Move.isCallers] at callers

/-- The moves since the present worker was started. -/
structure Since (s : Session) (old new : List Move) : Prop where
  absent : (s.run old).engine.worker = none
  there : ∀ part, part <+: new → (s.run (old ++ .start :: part)).engine.worker ≠ none

theorem Since.concat {s : Session} {old new : List Move} {m : Move} (since : Since s old new)
    (there : (s.run (old ++ .start :: (new ++ [m]))).engine.worker ≠ none) :
    Since s old (new ++ [m]) := by
  refine ⟨since.absent, fun part before => ?_⟩
  rcases List.prefix_concat_iff.mp before with rfl | before
  · exact there
  · exact since.there part before

theorem Since.append {s : Session} {old new late : List Move} (since : Since s old new)
    (shared : ∀ m ∈ late, m.isExclusive = false) : Since s old (new ++ late) := by
  induction late generalizing new with
  | nil => simpa using since
  | cons m late ih =>
      obtain ⟨own, others⟩ := List.forall_mem_cons.mp shared
      have there : (s.run (old ++ .start :: (new ++ [m]))).engine.worker ≠ none := by
        have before := since.there new (List.prefix_refl new)
        rw [ne_eq, worker_eq_none_iff] at before ⊢
        simpa using present_act own before
      simpa using ih (since.concat there) others

theorem exists_since {s : Session} (absent : s.engine.worker = none) {moves : List Move}
    (there : (s.run moves).engine.worker ≠ none) :
    ∃ old new, moves = old ++ .start :: new ∧ Since s old new := by
  -- from the end: a worker was there before the last move, or this move started it
  induction moves using List.reverseRecOn with
  | nil => exact absurd absent there
  | append_singleton moves m ih =>
      by_cases before : (s.run moves).engine.worker = none
      · have last : s.run (moves ++ [m]) = (s.run moves).act m := by simp
        rw [ne_eq, worker_eq_none_iff, last] at there
        obtain ⟨rfl, now⟩ := start_of_present (worker_eq_none_iff.mp before) there
        refine ⟨moves, [], rfl, before, fun part same => ?_⟩
        obtain rfl := List.prefix_nil.mp same
        rwa [ne_eq, worker_eq_none_iff, last]
      · obtain ⟨old, new, rfl, since⟩ := ih before
        exact ⟨old, new ++ [m], by simp, since.concat (by simpa using there)⟩

section Since

variable {s : Session} {old new : List Move}

theorem Since.there_started (since : Since s old new) {part : List Move} (before : part <+: new) :
    ((s.run (old ++ [.start])).run part).engine.activity? ≠ none := by
  have split : s.run (old ++ .start :: part) = (s.run (old ++ [.start])).run part := by simp
  rw [← split, ne_eq, ← worker_eq_none_iff]
  exact since.there part before

theorem Since.begins (since : Since s old new) :
    Occupied (s.run (old ++ [.start])).engine none := by
  have last : s.run (old ++ [.start]) = (s.run old).act .start := by simp
  have here : ((s.run old).act .start).engine.activity? ≠ none :=
    last ▸ since.there_started List.nil_prefix
  obtain ⟨-, now⟩ := start_of_present (worker_eq_none_iff.mp since.absent) here
  exact .free (last ▸ now) (.inl rfl)

theorem Since.occupied (since : Since s old new) :
    Occupied (s.run (old ++ .start :: new)).engine
        ((s.run (old ++ [.start])).taskAfterAll none new) ∧
      s.taken (old ++ .start :: new) =
        s.taken old ++ ((s.run (old ++ [.start])).completed none new ++
          ((s.run (old ++ [.start])).taskAfterAll none new).toList) := by
  obtain ⟨occupied, taken⟩ := occupied_run since.begins fun part => since.there_started
  have split : s.run (old ++ .start :: new) = (s.run (old ++ [.start])).run new := by simp
  refine ⟨split ▸ occupied, ?_⟩
  rw [← taken, taken_append, Session.taken, run_append]
  rfl

end Since

end Session

end LineCompletion

import LineCompletion.Proofs.Engine.Tickets

/-! # Callers who wait for a barrier

A caller who waits puts a barrier into the queue, then looks whether it is reached and whether the
worker is gone, one after the other, until it has an answer. Others go on between any two of these
looks, but nobody starts or stops the worker, for the caller holds on to the engine.
-/

namespace LineCompletion

open Engine

/-- A caller who waits for the barrier of a ticket, while others go on. -/
structure Caller where
  session : Session
  ticket : Nat
  waiting : Waiting := .polling

namespace Caller

inductive Move where
  /-- The caller looks once more; the time may be up. -/
  | look (timeUp : Bool)
  /-- Something else happens. -/
  | other (m : Session.Move)

def begin? (s : Session) : Option Caller :=
  match s.engine.putBarrier with
  | .ok (ticket, e) => some { session := { s with engine := e }, ticket }
  | .error _ => none

def act (x : Caller) : Move → Caller
  | .look timeUp =>
    match x.waiting with
    | .polling => { x with waiting := .poll x.session.engine x.ticket }
    | .checking => { x with waiting := .check x.session.engine timeUp }
    | .answered _ => x
  | .other m => if m.isExclusive then x else { x with session := x.session.act m }

def run (x : Caller) (moves : List Move) : Caller :=
  moves.foldl act x

def others : List Move → List Session.Move
  | [] => []
  | .look _ :: moves => others moves
  | .other m :: moves => if m.isExclusive then others moves else m :: others moves

@[simp] theorem run_nil (x : Caller) : x.run [] = x := rfl

@[simp] theorem run_cons (x : Caller) (m : Move) (moves : List Move) :
    x.run (m :: moves) = (x.act m).run moves := rfl

@[simp] theorem run_append (x : Caller) (early late : List Move) :
    x.run (early ++ late) = (x.run early).run late :=
  List.foldl_append

theorem not_isExclusive_of_others {moves : List Move} {m : Session.Move}
    (member : m ∈ others moves) : m.isExclusive = false := by
  induction moves with
  | nil => simp [others] at member
  | cons own moves ih =>
      cases own with
      | look => exact ih member
      | other m' =>
          simp only [others] at member
          split at member
          · exact ih member
          · rename_i shared
            rcases List.mem_cons.mp member with rfl | later
            · simpa using shared
            · exact ih later

theorem look_session (x : Caller) (timeUp : Bool) :
    (x.act (.look timeUp)).session = x.session ∧ (x.act (.look timeUp)).ticket = x.ticket := by
  simp only [act]
  split <;> exact ⟨rfl, rfl⟩

theorem run_session (x : Caller) (moves : List Move) :
    (x.run moves).session = x.session.run (others moves) ∧ (x.run moves).ticket = x.ticket := by
  induction moves generalizing x with
  | nil => exact ⟨rfl, rfl⟩
  | cons m moves ih =>
      obtain ⟨session, ticket⟩ := ih (x.act m)
      rw [run_cons, session, ticket]
      cases m with
      | look timeUp =>
          obtain ⟨same, own⟩ := look_session x timeUp
          exact ⟨by rw [same, others], own⟩
      | other m =>
          by_cases exclusive : m.isExclusive = true
          · simp [act, others, exclusive]
          · simp [act, others, exclusive]

theorem begin?_eq_some_iff {s : Session} {x : Caller} :
    begin? s = some x ↔ s.engine.worker ≠ none ∧
      x = { session := s.act .putBarrier, ticket := s.engine.nextTicket } := by
  cases found : s.engine.worker with
  | none => simp [begin?, putBarrier, found]
  | some w => simp [begin?, putBarrier, found, Session.act, eq_comm]

/-! ## Waiting alone -/

theorem isExclusive_of_not_callers {m : Session.Move} (own : m.isCallers = false) :
    m.isExclusive = false := by
  cases m with
  | work | filesRead | commandEnded => rfl
  | _ => simp [Session.Move.isCallers] at own

theorem run_map_other {moves : List Session.Move} (x : Caller)
    (shared : ∀ m ∈ moves, m.isExclusive = false) :
    x.run (moves.map .other) = { x with session := x.session.run moves } := by
  induction moves generalizing x with
  | nil => rfl
  | cons m moves ih =>
      obtain ⟨own, others⟩ := List.forall_mem_cons.mp shared
      have first : x.act (.other m) = { x with session := x.session.act m } := by simp [act, own]
      rw [List.map_cons, run_cons, first, ih _ others]
      rfl

theorem settleFor_eq_run {ω : Type} (host : Host ω) (fuel : Nat) (s : Session) (w : ω) :
    ∃ moves : List Session.Move, (∀ m ∈ moves, m.isCallers = false) ∧
      s.run moves = { s with engine := (settleFor host fuel s.engine w).1 } := by
  induction fuel generalizing s w with
  | zero => exact ⟨[], by simp, rfl⟩
  | succ fuel ih =>
      cases turned : s.engine.turn host w with
      | mk next after =>
          cases next with
          | none => exact ⟨[], by simp, by simp [settleFor, turned]⟩
          | some next =>
              obtain ⟨m, own, acted⟩ := Session.turn_eq_act turned
              obtain ⟨moves, others, settled⟩ := ih { s with engine := next } after
              refine ⟨m :: moves, List.forall_mem_cons.mpr ⟨own, others⟩, ?_⟩
              rw [Session.run_cons, acted, settled]
              simp only [settleFor, turned]

/-- Where no other caller comes in between, to wait is one call. -/
theorem sync_eq_run {ω : Type} (host : Host ω) {s : Session} (w : ω) {x : Caller}
    (begun : begin? s = some x) :
    ∃ moves : List Session.Move,
      (x.run (moves.map .other ++ [.look false, .look true])).waiting =
          .answered (s.engine.sync host w).1 ∧
        (x.run (moves.map .other ++ [.look false, .look true])).session.engine =
          (s.engine.sync host w).2.1 := by
  cases put : s.engine.putBarrier with
  | error cause => simp [begin?, put] at begun
  | ok pair =>
      obtain ⟨ticket, e⟩ := pair
      obtain rfl : { session := { s with engine := e }, ticket } = x := by
        simpa [begin?, put] using begun
      obtain ⟨moves, own, ran⟩ := settleFor_eq_run host e.effort { s with engine := e } w
      refine ⟨moves, ?_⟩
      rw [run_append, run_map_other _ fun m member => isExclusive_of_not_callers (own m member),
        ran]
      simp only [sync, put, settle]
      generalize settleFor host e.effort e w = settled
      cases reached : settled.1.hasReached ticket with
      | true => simp [act, Waiting.poll, reached]
      | false =>
          cases gone : settled.1.workerFinished <;>
            simp [act, Waiting.poll, Waiting.check, reached, gone]

/-! ## Answers -/

/-- What the caller was answered is so. -/
structure Heard (x : Caller) : Prop where
  ok : x.waiting = .answered (.ok ()) → x.ticket ∈ x.session.engine.reached
  exited : x.waiting = .answered (.error .workerExited) →
    x.session.engine.activity? = some .finished

theorem heard_begun {s : Session} {x : Caller} (begun : begin? s = some x) : Heard x := by
  obtain ⟨-, rfl⟩ := begin?_eq_some_iff.mp begun
  exact ⟨by simp, by simp⟩

theorem heard_act {x : Caller} (heard : Heard x) (m : Move) : Heard (x.act m) := by
  cases m with
  | look timeUp =>
      cases waiting : x.waiting with
      | polling =>
          by_cases reached : x.session.engine.hasReached x.ticket = true
          · refine ⟨fun _ => ?_, fun exited => ?_⟩
            · simpa [act, waiting, hasReached] using reached
            · simp [act, waiting, Waiting.poll, reached] at exited
          · constructor <;> intro answer <;> simp [act, waiting, Waiting.poll, reached] at answer
      | checking =>
          by_cases gone : x.session.engine.workerFinished = true
          · refine ⟨fun ok => ?_, fun _ => ?_⟩
            · simp [act, waiting, Waiting.check, gone] at ok
            · simpa [act, waiting] using workerFinished_iff.mp gone
          · constructor <;> intro answer <;> cases timeUp <;>
              simp [act, waiting, Waiting.check, gone] at answer
      | answered result => simpa [act, waiting] using heard
  | other m =>
      simp only [act]
      split
      · exact heard
      · rename_i shared
        refine ⟨fun ok => ?_, fun exited => ?_⟩
        · simp only [(Session.tickets_act x.session m).reached, List.mem_append]
          exact .inr (heard.ok ok)
        · have gone := heard.exited exited
          have there : (x.session.act m).engine.activity? ≠ none :=
            Session.present_act (by simpa using shared) (by simp [gone])
          exact ((Session.course_act _ m).of_finished gone there).activity.trans gone

theorem heard_run {x : Caller} (heard : Heard x) (moves : List Move) : Heard (x.run moves) := by
  induction moves generalizing x with
  | nil => exact heard
  | cons m moves ih => exact ih (heard_act heard m)

/-! ## What was done when the answer comes -/

theorem prefix_cases {α : Type} {taken before after : List α} {t : α}
    (split : taken <+: before ++ t :: after) :
    taken <+: before ∨ ∃ more, taken = before ++ t :: more ∧ more <+: after := by
  rcases List.prefix_or_prefix_of_prefix split (List.prefix_append before (t :: after)) with
    short | ⟨rest, rfl⟩
  · exact .inl short
  · rcases List.prefix_cons_iff.mp ((List.prefix_append_right_inj before).mp split) with
      rfl | ⟨more, rfl, within⟩
    · exact .inl (by simp)
    · exact .inr ⟨more, rfl, within⟩

section Begun

variable {options : SuggestOptions} {context : ContextId} {before : List Session.Move} {x : Caller}

theorem run_begun (begun : begin? ((Session.fresh options context).run before) = some x)
    (moves : List Move) :
    (Session.fresh options context).run (before ++ .putBarrier :: others moves) =
      (x.run moves).session := by
  obtain ⟨-, rfl⟩ := begin?_eq_some_iff.mp begun
  simp [(run_session _ moves).1]

theorem enqueued_begun (begun : begin? ((Session.fresh options context).run before) = some x)
    (late : List Session.Move) :
    (Session.fresh options context).enqueued (before ++ .putBarrier :: late) =
      (Session.fresh options context).enqueued before ++
        .barrier x.ticket :: x.session.enqueued late := by
  obtain ⟨there, rfl⟩ := begin?_eq_some_iff.mp begun
  rw [Session.enqueued_append, Session.enqueued]
  simp [Session.enqueues, Option.isSome_iff_ne_none.mpr there]

theorem barrier_notMem_enqueued
    (begun : begin? ((Session.fresh options context).run before) = some x) :
    .barrier x.ticket ∉ (Session.fresh options context).enqueued before := by
  intro put
  obtain ⟨-, rfl⟩ := begin?_eq_some_iff.mp begun
  exact Nat.lt_irrefl _ (Session.ticket_lt_of_enqueued put)

theorem since_begun (begun : begin? ((Session.fresh options context).run before) = some x)
    (moves : List Move) :
    ∃ old new, before = old ++ .start :: new ∧
      (Session.fresh options context).Since old (new ++ .putBarrier :: others moves) := by
  obtain ⟨there, -⟩ := begin?_eq_some_iff.mp begun
  obtain ⟨old, new, split, since⟩ := Session.exists_since rfl there
  refine ⟨old, new, split, since.append ?_⟩
  rintro m (_ | ⟨_, member⟩)
  · rfl
  · exact not_isExclusive_of_others member

/-- The barrier of the caller is reached where the present worker completes it. -/
theorem reached_begun_iff (begun : begin? ((Session.fresh options context).run before) = some x)
    {moves : List Move} {old new : List Session.Move} (split : before = old ++ .start :: new)
    (since : (Session.fresh options context).Since old (new ++ .putBarrier :: others moves)) :
    x.ticket ∈ (x.run moves).session.engine.reached ↔
      .barrier x.ticket ∈ ((Session.fresh options context).run (old ++ [.start])).completed none
        (new ++ .putBarrier :: others moves) := by
  have before_start :
      x.ticket ∉ ((Session.fresh options context).run (old ++ [.start])).engine.reached := by
    intro reached
    have taken := (Session.taken_of_reached options context (old ++ [.start])).2 _ reached
    have put := (Session.taken_prefix_enqueued options context _).subset taken
    refine barrier_notMem_enqueued begun ?_
    have early : before = (old ++ [.start]) ++ new := by simp [split]
    rw [early, Session.enqueued_append]
    exact List.mem_append_left _ put
  rw [← run_begun begun, split, List.append_assoc, List.cons_append, since.mem_reached_iff,
    or_iff_left before_start]

theorem taken_within_enqueued {old new : List Session.Move}
    (split : before = old ++ .start :: new) :
    (Session.fresh options context).taken old <+:
      (Session.fresh options context).enqueued before := by
  rw [split, Session.enqueued_append]
  exact (Session.taken_prefix_enqueued options context old).trans (List.prefix_append _ _)

end Begun

/-- A caller who waits without an error has all the tasks done that were put into the queue before
it began to wait, however the worker, other callers and barriers that nobody waits for any more come
in between: the tasks were taken, and those that no earlier worker took were completed by the
present one, before the barrier. -/
theorem tasks_completed_before_barrier {options : SuggestOptions} {context : ContextId}
    {before : List Session.Move} {x : Caller}
    (begun : begin? ((Session.fresh options context).run before) = some x) {moves : List Move}
    (ok : (x.run moves).waiting = .answered (.ok ())) :
    let s := Session.fresh options context
    s.enqueued before ++ [.barrier x.ticket] <+:
        s.taken (before ++ .putBarrier :: others moves) ∧
      ∃ old new rest, before = old ++ .start :: new ∧
        s.Since old (new ++ .putBarrier :: others moves) ∧
        s.enqueued before = s.taken old ++ rest ∧
        rest ++ [.barrier x.ticket] <+:
          (s.run (old ++ [.start])).completed none (new ++ .putBarrier :: others moves) := by
  intro s
  obtain ⟨old, new, split, since⟩ := since_begun begun moves
  have reached := (heard_run (heard_begun begun) moves).ok ok
  rw [(run_session x moves).2, reached_begun_iff begun split since] at reached
  have taken := since.occupied.2
  rw [← List.cons_append, ← List.append_assoc, ← split] at taken
  obtain ⟨rest, parts⟩ : s.taken old <+: s.enqueued before := taken_within_enqueued split
  have whole := Session.taken_prefix_enqueued options context
    (before ++ .putBarrier :: others moves)
  rw [enqueued_begun begun, ← parts, taken, List.append_assoc,
    List.prefix_append_right_inj] at whole
  rcases prefix_cases ((List.prefix_append _ _).trans whole) with short | ⟨more, same, -⟩
  · have member := short.subset reached
    exact absurd (parts ▸ List.mem_append_right _ member) (barrier_notMem_enqueued begun)
  · refine ⟨?_, old, new, rest, split, since, parts.symm,
      ⟨more, (List.append_assoc ..).trans same.symm⟩⟩
    rw [taken, ← parts, same, List.append_assoc, List.prefix_append_right_inj]
    simp [List.append_assoc, List.prefix_append_right_inj]

/-- A caller who begins to wait after some moves of a new engine. -/
def newCaller (before : List Session.Move) : Caller where
  session := ((Session.fresh {} 0).run before).act .putBarrier
  ticket := ((Session.fresh {} 0).run before).engine.nextTicket

/-- The files of a path are asked for after a barrier for which nobody waits any more. -/
def askAfterBarrier : List Session.Move :=
  [.start, .work fun _ => 0, .putBarrier, .requestLoad "git.json"]

/-- Another caller asks for more files before the worker has done all. -/
def askMeanwhile : List Move :=
  [.other (.work fun _ => 0), .other (.work fun _ => 0), .look false,
    .other (.requestLoad "npm.json"), .other (.work fun _ => 0), .other (.work fun _ => 0),
    .other (.filesRead (.ok {})), .look false, .other (.work fun _ => 0), .look false,
    .other (.work fun _ => 0), .look false, .look false]

theorem tasks_completed_before_barrier_meanwhile :
    begin? ((Session.fresh {} 0).run askAfterBarrier) = some (newCaller askAfterBarrier) ∧
      ((newCaller askAfterBarrier).run askMeanwhile).waiting = .answered (.ok ()) ∧
      [.barrier 0, .load "git.json", .barrier 1] <+:
        (Session.fresh {} 0).taken (askAfterBarrier ++ .putBarrier :: others askMeanwhile) := by
  have begun : begin? ((Session.fresh {} 0).run askAfterBarrier) =
      some (newCaller askAfterBarrier) := by rfl
  have ok : ((newCaller askAfterBarrier).run askMeanwhile).waiting = .answered (.ok ()) := by rfl
  exact ⟨begun, ok, (tasks_completed_before_barrier begun ok).1⟩

/-- A worker that is gone without being told to stop has failed at the task that it took last, and
the barrier of the caller was reached where it is among those taken before. -/
theorem failed_begun {options : SuggestOptions} {context : ContextId}
    {before : List Session.Move} {x : Caller}
    (begun : begin? ((Session.fresh options context).run before) = some x)
    (free : ((Session.fresh options context).run before).engine.isStopping = false)
    {moves : List Move} (gone : (x.run moves).session.engine.activity? = some .finished) :
    ∃ earlier t, t.ticket? = none ∧
      (Session.fresh options context).taken (before ++ .putBarrier :: others moves) =
        earlier ++ [t] ∧
      (x.ticket ∈ (x.run moves).session.engine.reached ↔ .barrier x.ticket ∈ earlier) := by
  obtain ⟨old, new, split, since⟩ := since_begun begun moves
  have kept : (x.run moves).session.engine.isStopping = false := by
    obtain ⟨-, rfl⟩ := begin?_eq_some_iff.mp begun
    rw [(run_session _ moves).1, isStopping,
      Session.stop?_run fun m member => not_isExclusive_of_others member,
      Session.stop?_act rfl, ← isStopping, free]
  obtain ⟨occupied, taken⟩ := since.occupied
  rw [← List.cons_append, ← List.append_assoc, ← split] at occupied taken
  rw [run_begun begun] at occupied
  obtain ⟨t, last, other⟩ := occupied.eq_some_of_failed gone rfl fun _ => kept
  have early : .barrier x.ticket ∉ (Session.fresh options context).taken old := fun member =>
    barrier_notMem_enqueued begun ((taken_within_enqueued split).subset member)
  rw [last, ← List.append_assoc] at taken
  refine ⟨_, t, other, taken, ?_⟩
  rw [reached_begun_iff begun split since, List.mem_append, or_iff_right early]

/-- A caller who waits and hears that the worker is gone cannot tell whether its barrier was
reached: it was, if and only if the worker went on to a task that somebody else put in meanwhile. -/
theorem exited_reached_iff {options : SuggestOptions} {context : ContextId}
    {before : List Session.Move} {x : Caller}
    (begun : begin? ((Session.fresh options context).run before) = some x)
    (free : ((Session.fresh options context).run before).engine.isStopping = false)
    {moves : List Move} (exited : (x.run moves).waiting = .answered (.error .workerExited)) :
    let s := Session.fresh options context
    let taken := s.taken (before ++ .putBarrier :: others moves)
    let reached := (x.run moves).session.engine.hasReached x.ticket
    (reached = false ↔ taken <+: s.enqueued before) ∧
      (reached = true ↔ ∃ served t,
        taken = s.enqueued before ++ .barrier x.ticket :: (served ++ [t]) ∧
          served ++ [t] <+: x.session.enqueued (others moves)) ∧
      (x.session.enqueued (others moves) = [] → reached = false) := by
  intro s taken reached
  have gone := (heard_run (heard_begun begun) moves).exited exited
  obtain ⟨earlier, t, other, last, reaches⟩ := failed_begun begun free gone
  have here : reached = true ↔ .barrier x.ticket ∈ earlier := by
    simpa [reached, hasReached] using reaches
  have fresh := barrier_notMem_enqueued begun
  have whole := Session.taken_prefix_enqueued options context
    (before ++ .putBarrier :: others moves)
  rw [enqueued_begun begun] at whole
  rcases prefix_cases whole with short | ⟨more, same, within⟩
  · have absent : .barrier x.ticket ∉ taken := fun member => fresh (short.subset member)
    have unreached : reached = false := by
      refine Bool.eq_false_iff.mpr fun yes => absent ?_
      simp [taken, s, last, here.mp yes]
    refine ⟨iff_of_true unreached short, iff_of_false ?_ ?_, fun _ => unreached⟩
    · simp [unreached]
    · rintro ⟨served, own, split, -⟩
      exact absent (by simp [split])
  · cases more using List.reverseRecOn with
    | nil =>
        -- the barrier is not the task at which the worker failed
        obtain ⟨-, same⟩ := List.append_inj' (last.symm.trans same) rfl
        obtain rfl : t = .barrier x.ticket := by simpa using same
        cases other
    | append_singleton served own =>
        have member : reached = true := by
          refine here.mpr ?_
          rw [last, ← List.cons_append, ← List.append_assoc] at same
          rw [(List.append_inj' same rfl).1]
          simp
        refine ⟨iff_of_false (by simp [member]) fun short => ?_,
          iff_of_true member ⟨served, own, same, within⟩, fun nothing => ?_⟩
        · exact fresh (short.subset (by simp [taken, s, same]))
        · simp [nothing] at within

def openWorker : List Session.Move :=
  [.start, .work fun _ => 0]

/-- Between two looks of the caller the worker reaches the barrier, and fails at a task that another
caller puts in after it. -/
def failAfterBarrier : List Move :=
  [.look false, .other (.work fun _ => 0), .other (.work fun _ => 0),
    .other (.requestLoad "git.txt"), .other (.work fun _ => 0), .other (.work fun _ => 0),
    .other (.filesRead (.error (.unsupportedFormat "git.txt"))), .other (.work fun _ => 0),
    .other (.work fun _ => 0), .look false]

theorem exited_reached_iff_failAfterBarrier :
    begin? ((Session.fresh {} 0).run openWorker) = some (newCaller openWorker) ∧
      ((Session.fresh {} 0).run openWorker).engine.isStopping = false ∧
      ((newCaller openWorker).run failAfterBarrier).waiting =
        .answered (.error .workerExited) ∧
      ∃ served t,
        (Session.fresh {} 0).taken (openWorker ++ .putBarrier :: others failAfterBarrier) =
            .barrier 0 :: (served ++ [t]) ∧
          served ++ [t] <+: [.load "git.txt"] := by
  have begun : begin? ((Session.fresh {} 0).run openWorker) = some (newCaller openWorker) := by rfl
  have free : ((Session.fresh {} 0).run openWorker).engine.isStopping = false := by rfl
  have exited : ((newCaller openWorker).run failAfterBarrier).waiting =
      .answered (.error .workerExited) := by rfl
  have reached : ((newCaller openWorker).run failAfterBarrier).session.engine.hasReached
      (newCaller openWorker).ticket = true := by rfl
  exact ⟨begun, free, exited, (exited_reached_iff begun free exited).2.1.mp reached⟩

/-- A caller may hear that the worker is gone although it has reached the barrier. -/
theorem reached_barrier_told_lost :
    ¬ ∀ (options : SuggestOptions) (context : ContextId) (before : List Session.Move) (x : Caller),
      begin? ((Session.fresh options context).run before) = some x → ∀ moves,
        (x.run moves).waiting = .answered (.error .workerExited) →
          (x.run moves).session.engine.hasReached x.ticket = false := by
  intro never
  have reached : ((newCaller openWorker).run failAfterBarrier).session.engine.hasReached
      (newCaller openWorker).ticket = true := by rfl
  have lost := never {} 0 openWorker (newCaller openWorker) rfl failAfterBarrier rfl
  rw [reached] at lost
  cases lost

end Caller

end LineCompletion

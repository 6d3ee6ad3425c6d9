import LineCompletion.Proofs.Engine.Moves
import LineCompletion.Proofs.Source.Publications

/-! # Refreshing a dictionary to the end

A worker that nobody interrupts refreshes the sources of a dictionary one after the other, up to the
first that fails. With it goes the worker, and the sources after it are not looked at, however they
would have ended.
-/

namespace LineCompletion

namespace Engine

variable {ω : Type} {host : Host ω}

/-! ## Turns of the worker -/

/-- So many turns of the worker lead from one moment to another. -/
inductive Turns (host : Host ω) : Nat → Engine → ω → Engine → ω → Prop where
  | none (e : Engine) (w : ω) : Turns host 0 e w e w
  | next {n : Nat} {e mid last : Engine} {w during after : ω}
      (turned : e.turn host w = (some mid, during)) (later : Turns host n mid during last after) :
      Turns host (n + 1) e w last after

theorem Turns.trans {m n : Nat} {e mid last : Engine} {w during after : ω}
    (first : Turns host m e w mid during) (second : Turns host n mid during last after) :
    Turns host (n + m) e w last after := by
  induction first with
  | none => exact second
  | next turned _ ih => exact .next turned (ih second)

theorem settleFor_of_turns {n fuel : Nat} {e last : Engine} {w after : ω}
    (turns : Turns host n e w last after) (stuck : last.turn host after = (none, after))
    (enough : n ≤ fuel) : settleFor host fuel e w = (last, after) := by
  induction turns generalizing fuel with
  | none e w =>
      cases fuel with
      | zero => rfl
      | succ fuel => simp only [settleFor, stuck]
  | next turned _ ih =>
      cases fuel with
      | zero => omega
      | succ fuel =>
          simp only [settleFor, turned]
          exact ih stuck (by omega)

/-! ## Attempts to refresh a source -/

/-- Tries to refresh a source if it is due: why it fails, if it does, and what is cached after it.
None if its command does not end in time. -/
def attempt (host : Host ω) (directory : Option String) (s : LiveSource) (caches : Caches) (w : ω) :
    Option (Option EngineError × Caches × ω) :=
  if s.needsRefresh caches (host.clock w) directory then
    let caches := caches.modify s.cell Cache.unmark
    match s.startRefresh caches directory with
    | .done => some (none, caches, w)
    | .failed cause => some (some (.source cause), caches, w)
    | .running r =>
      match host.run w r.context r.command r.directory with
      | (none, _) => none
      | (some (.items items), w) =>
        some (none, r.publish caches items (host.clock w r.context), w)
      | (some (.failed message), w) => some (some (.source (.failed r.command message)), caches, w)
      | (some (.panicked payload), w) => some (some (.panicked payload.message), caches, w)
  else some (none, caches, w)

/-- What an attempt to refresh a source comes to. -/
inductive Attempted (host : Host ω) (directory : Option String) (s : LiveSource) (caches : Caches)
    (w : ω) : Option EngineError → Caches → ω → Prop where
  | passed (fresh : s.needsRefresh caches (host.clock w) directory = false) :
      Attempted host directory s caches w none caches w
  | unbound {cause : SourceError}
      (due : s.needsRefresh caches (host.clock w) directory = true)
      (start : s.startRefresh (caches.modify s.cell Cache.unmark) directory = .failed cause) :
      Attempted host directory s caches w (some (.source cause))
        (caches.modify s.cell Cache.unmark) w
  | gave {r : Refresh} {items : List Item} {after : ω}
      (due : s.needsRefresh caches (host.clock w) directory = true)
      (start : s.startRefresh (caches.modify s.cell Cache.unmark) directory = .running r)
      (ended : host.run w r.context r.command r.directory = (some (.items items), after)) :
      Attempted host directory s caches w none
        (r.publish (caches.modify s.cell Cache.unmark) items (host.clock after r.context)) after
  | failed {r : Refresh} {message : String} {after : ω}
      (due : s.needsRefresh caches (host.clock w) directory = true)
      (start : s.startRefresh (caches.modify s.cell Cache.unmark) directory = .running r)
      (ended : host.run w r.context r.command r.directory = (some (.failed message), after)) :
      Attempted host directory s caches w (some (.source (.failed r.command message)))
        (caches.modify s.cell Cache.unmark) after
  | panicked {r : Refresh} {payload : Payload} {after : ω}
      (due : s.needsRefresh caches (host.clock w) directory = true)
      (start : s.startRefresh (caches.modify s.cell Cache.unmark) directory = .running r)
      (ended : host.run w r.context r.command r.directory = (some (.panicked payload), after)) :
      Attempted host directory s caches w (some (.panicked payload.message))
        (caches.modify s.cell Cache.unmark) after

section Attempt

variable {directory : Option String} {s : LiveSource} {caches last : Caches} {w after : ω}
  {fault : Option EngineError}

theorem attempted_of_attempt
    (ended : attempt host directory s caches w = some (fault, last, after)) :
    Attempted host directory s caches w fault last after := by
  unfold attempt at ended
  by_cases due : s.needsRefresh caches (host.clock w) directory = true
  · simp only [due, if_true] at ended
    cases start : s.startRefresh (caches.modify s.cell Cache.unmark) directory with
    | done => exact absurd start (LiveSource.startRefresh_ne_done due)
    | failed cause =>
        obtain ⟨rfl, rfl, rfl⟩ : some (.source cause) = fault ∧
          caches.modify s.cell Cache.unmark = last ∧ w = after := by simpa [start] using ended
        exact .unbound due start
    | running r =>
        simp only [start] at ended
        split at ended
        · simp at ended
        · rename_i items during gave
          obtain ⟨rfl, rfl, rfl⟩ : none = fault ∧ _ = last ∧ during = after := by
            simpa using ended
          exact .gave due start gave
        · rename_i message during failed
          obtain ⟨rfl, rfl, rfl⟩ : some (.source (.failed r.command message)) = fault ∧
            _ = last ∧ during = after := by simpa using ended
          exact .failed due start failed
        · rename_i payload during broke
          obtain ⟨rfl, rfl, rfl⟩ : some (.panicked payload.message) = fault ∧ _ = last ∧
            during = after := by simpa using ended
          exact .panicked due start broke
  · simp only [due] at ended
    obtain ⟨rfl, rfl, rfl⟩ : none = fault ∧ caches = last ∧ w = after := by simpa using ended
    exact .passed (by simpa using due)

theorem publish_unmark (caches : Caches) (cell : CellId) (context : ContextId) (command : String)
    (directory : Option String) (scope : Scope) (items : List Item) (now : Moment) :
    let unmarked := caches.modify cell Cache.unmark
    Refresh.publish ⟨cell, context, command, directory, scope, (unmarked.get cell).generation⟩
        unmarked items now =
      caches.modify cell fun c => { snapshot := c.snapshot.withItems scope items now } := by
  simp only [Refresh.publish, Caches.modify, Caches.set, Cache.publish, Caches.mk.injEq, if_true,
    beq_self_eq_true]
  funext i
  by_cases here : i = cell <;> simp [here, Cache.unmark]

theorem Attempted.get_of_ne (attempted : Attempted host directory s caches w fault last after)
    {cell : CellId} (other : cell ≠ s.cell) : last.get cell = caches.get cell := by
  cases attempted with
  | passed => rfl
  | unbound | failed | panicked => rw [Caches.get_modify, if_neg other]
  | gave _ start _ =>
      obtain ⟨_, _, _, _, _, _, rfl⟩ := LiveSource.startRefresh_eq_running_iff.mp start
      rw [publish_unmark, Caches.get_modify, if_neg other]

theorem Attempted.snapshot_of_failed {cause : EngineError}
    (attempted : Attempted host directory s caches w (some cause) last after) (cell : CellId) :
    (last.get cell).snapshot = (caches.get cell).snapshot := by
  cases attempted with
  | unbound | failed | panicked => exact caches.snapshot_unmark s.cell cell

end Attempt

/-! ## Refreshes to the end -/

/-- Tries to refresh sources one after the other, up to the first that fails. -/
def refreshUntil (host : Host ω) (directory : Option String) :
    List LiveSource → Caches → ω → Option (Option EngineError × Caches × ω)
  | [], caches, w => some (none, caches, w)
  | s :: rest, caches, w =>
    match attempt host directory s caches w with
    | some (none, caches, w) => refreshUntil host directory rest caches w
    | result => result

/-- Tries to refresh sources one after the other, whether they fail or not. -/
def refreshEach (host : Host ω) (directory : Option String) :
    List LiveSource → Caches → ω → Option (Caches × ω)
  | [], caches, w => some (caches, w)
  | s :: rest, caches, w =>
    match attempt host directory s caches w with
    | some (_, caches, w) => refreshEach host directory rest caches w
    | none => none

/-- What a worker does that goes over sources, after some of them. -/
def afterwards (rest : List LiveSource) (directory : Option String) : Option EngineError → Activity
  | none => .checking rest directory
  | some cause => .failing cause

@[simp] theorem become_become (e : Engine) (a b : Activity) :
    (e.become a).become b = e.become b := by
  cases found : e.worker with
  | none => simp [become, found]
  | some w => simp [become, found]

theorem become_caches_become (e : Engine) (caches : Caches) (a b : Activity) :
    ({ e.become a with caches } : Engine).become b = ({ e with caches } : Engine).become b := by
  cases found : e.worker with
  | none => simp [become, found]
  | some w => simp [become, found]

theorem turn_refreshing {e : Engine} {refresh : Refresh} {rest : List LiveSource}
    {outcome : Outcome} {w after : ω}
    (refreshes : e.activity? = some (.refreshing refresh rest))
    (ended : host.run w refresh.context refresh.command refresh.directory =
      (some outcome, after)) :
    e.turn host w =
      (some (e.ran refresh rest (host.clock after refresh.context) outcome), after) := by
  obtain ⟨stop, found⟩ := worker_of_activity? refreshes
  simp [turn, found, ended]

section Sources

variable {e : Engine} {w after : ω} {directory : Option String} {fault : Option EngineError}
  {caches : Caches}

theorem turns_attempt {s : LiveSource} {rest : List LiveSource}
    (checks : e.activity? = some (.checking (s :: rest) directory))
    (attempted : Attempted host directory s e.caches w fault caches after) :
    ∃ n ≤ 2, Turns host n e w
      (({ e with caches } : Engine).become (afterwards rest directory fault)) after := by
  obtain ⟨stop, found⟩ := worker_of_activity? checks
  have begins (due : s.needsRefresh e.caches (host.clock w) directory = true) :
      e.turn host w = (some (e.beginRefresh s directory rest), w) := by
    simp [turn, step, found, due]
  have refreshes (r : Refresh) :
      (({ e with caches := e.caches.modify s.cell Cache.unmark } : Engine).become
        (.refreshing r rest)).activity? = some (.refreshing r rest) := by
    simp [activity?, found]
  cases attempted with
  | passed fresh =>
      have passes : e.turn host w = (some (e.become (.checking rest directory)), w) := by
        simp [turn, step, found, fresh]
      exact ⟨1, by omega, .next passes (.none _ _)⟩
  | unbound due start =>
      have begins := begins due
      simp only [beginRefresh, start] at begins
      exact ⟨1, by omega, .next begins (.none _ _)⟩
  | gave due start ended =>
      have begins := begins due
      simp only [beginRefresh, start] at begins
      refine ⟨2, Nat.le_refl 2, .next begins (.next ?_ (.none _ _))⟩
      obtain ⟨_, _, _, _, _, _, rfl⟩ := LiveSource.startRefresh_eq_running_iff.mp start
      rw [turn_refreshing (refreshes _) ended]
      simp only [ran, become_caches_become, afterwards]
      rfl
  | failed due start ended | panicked due start ended =>
      have begins := begins due
      simp only [beginRefresh, start] at begins
      refine ⟨2, Nat.le_refl 2, .next begins (.next ?_ (.none _ _))⟩
      rw [turn_refreshing (refreshes _) ended]
      simp only [ran, become_become, afterwards]

theorem become_self {a : Activity} (doing : e.activity? = some a) : e.become a = e := by
  obtain ⟨stop, found⟩ := worker_of_activity? doing
  have same : (e.worker.map fun w => { w with activity := a }) = e.worker := by
    rw [found]
    rfl
  rw [become, same]

theorem turns_refreshUntil {sources : List LiveSource}
    (checks : e.activity? = some (.checking sources directory))
    (ended : refreshUntil host directory sources e.caches w = some (fault, caches, after)) :
    ∃ n ≤ 2 * sources.length, Turns host n e w
      (({ e with caches } : Engine).become (afterwards [] directory fault)) after := by
  induction sources generalizing e w with
  | nil =>
      obtain ⟨rfl, rfl, rfl⟩ : none = fault ∧ e.caches = caches ∧ w = after := by
        simpa [refreshUntil] using ended
      refine ⟨0, Nat.le_refl 0, ?_⟩
      rw [afterwards, become_self (e := { e with caches := e.caches }) checks]
      exact .none e w
  | cons s rest ih =>
      simp only [refreshUntil] at ended
      cases tried : attempt host directory s e.caches w with
      | none => simp [tried] at ended
      | some result =>
          obtain ⟨failure, between, during⟩ := result
          obtain ⟨m, few, first⟩ := turns_attempt checks (attempted_of_attempt tried)
          cases failure with
          | some cause =>
              obtain ⟨rfl, rfl, rfl⟩ : some cause = fault ∧ between = caches ∧ during = after := by
                simpa [tried] using ended
              exact ⟨m, by simp only [List.length_cons]; omega, first⟩
          | none =>
              simp only [tried] at ended
              have checks : (({ e with caches := between } : Engine).become
                  (.checking rest directory)).activity? = some (.checking rest directory) := by
                rw [activity?_become]
                exact congrArg (Option.map _) checks
              obtain ⟨n, enough, later⟩ := ih checks ended
              refine ⟨n + m, by simp only [List.length_cons]; omega, ?_⟩
              rw [become_caches_become] at later
              exact first.trans later

end Sources

/-- The engine with an empty queue whose worker waits, or with the barrier that a worker left that
failed. -/
def settled (e : Engine) (ticket : Nat) : Option EngineError → Engine
  | none => { e with queue := {}, worker := some { activity := .waiting }
                     reached := ticket :: e.reached }
  | some cause => { e with queue := ⟨[.barrier ticket]⟩, worker := some { activity := .finished }
                           fault := some cause, state := .faulted }

theorem turns_settled (host : Host ω) (e : Engine) (ticket : Nat) (directory : Option String)
    (fault : Option EngineError) (w : ω) :
    ∃ n ≤ 3, Turns host n
      { e with queue := ⟨[.barrier ticket]⟩
               worker := some { activity := afterwards [] directory fault } } w
      (e.settled ticket fault) w := by
  cases fault with
  | none =>
      have waits : Turns host 3
          { e with queue := ⟨[.barrier ticket]⟩
                   worker := some { activity := .checking [] directory } }
          w (e.settled ticket none) w :=
        .next rfl (.next rfl (.next rfl (.none _ _)))
      exact ⟨3, Nat.le_refl 3, waits⟩
  | some cause =>
      have leaves : Turns host 2
          { e with queue := ⟨[.barrier ticket]⟩, worker := some { activity := .failing cause } }
          w (e.settled ticket (some cause)) w :=
        .next rfl (.next rfl (.none _ _))
      exact ⟨2, by omega, leaves⟩

/-- A worker waits for a task and there is none, and the next barrier was not reached yet. -/
structure Rests (e : Engine) : Prop where
  worker : e.worker = some { activity := .waiting }
  queue : e.queue = {}
  ahead : e.nextTicket ∉ e.reached

/-- Waiting for the refresh of a dictionary ends with the caches that its sources left, up to the
first that failed. -/
theorem sync_refreshDictionary {e : Engine} (rests : Rests e) {d : Dictionary LiveSource}
    {directory : Option String} {w after : ω} {fault : Option EngineError} {caches : Caches}
    (ended : refreshUntil host directory d.sources e.caches w = some (fault, caches, after)) :
    (e.refreshDictionary d directory).sync host w =
      (if fault.isSome then .error .workerExited else .ok (),
        ({ e with caches, nextTicket := e.nextTicket + 1 } : Engine).settled e.nextTicket fault,
        after) := by
  obtain ⟨worker, queue, ahead⟩ := rests
  let begun : Engine :=
    { e with queue := ⟨[.refreshDictionary d directory, .barrier e.nextTicket]⟩
             worker := some { activity := .waiting }, nextTicket := e.nextTicket + 1 }
  have put : (e.refreshDictionary d directory).putBarrier = .ok (e.nextTicket, begun) := by
    simp [refreshDictionary, enqueue, putBarrier, begun, worker, queue, TaskQueue.push]
  let looks : Engine :=
    { begun with queue := ⟨[.barrier e.nextTicket]⟩
                 worker := some { activity := .checking d.sources directory } }
  -- the worker takes the refresh, goes over the sources and comes to the barrier or to its end
  have takes : Turns host 2 begun w looks w := .next rfl (.next rfl (.none _ _))
  obtain ⟨m, few, goes⟩ := turns_refreshUntil (e := looks) rfl ended
  obtain ⟨n, fewer, settles⟩ := turns_settled host
    { e with caches, nextTicket := e.nextTicket + 1 } e.nextTicket directory fault after
  have stuck : (({ e with caches, nextTicket := e.nextTicket + 1 } : Engine).settled e.nextTicket
      fault).turn host after = (none, after) := by
    cases fault <;> rfl
  have enough : n + (m + 2) ≤ begun.effort := by
    simp only [effort, begun, List.foldl_cons, List.foldl_nil, taskEffort]
    omega
  have settled := settleFor_of_turns ((takes.trans goes).trans settles) stuck enough
  simp only [sync, put, settle, settled]
  cases fault with
  | none => simp [Waiting.poll, hasReached, Engine.settled]
  | some cause =>
      simp [Waiting.poll, Waiting.check, hasReached, Engine.settled, ahead, workerFinished]

/-! ## What is cached in the end -/

/-- A source has the values that its command gave for a working directory. -/
def Refreshed (host : Host ω) (directory : Option String) (caches : Caches) (s : LiveSource) :
    Prop :=
  ∃ command context before after items entry, s.provider = .dynamic command ∧
    s.context = some context ∧
    host.run before context command directory = (some (.items items), after) ∧
    s.cached? caches directory = some entry ∧ entry.items = items

section Attempt

variable {directory : Option String} {s : LiveSource} {caches last : Caches} {w after : ω}

theorem refreshed_of_get_eq (refreshed : Refreshed host directory caches s)
    (same : last.get s.cell = caches.get s.cell) : Refreshed host directory last s := by
  obtain ⟨command, context, before, after, items, entry, provider, bound, ended, cached, equal⟩ :=
    refreshed
  refine ⟨command, context, before, after, items, entry, provider, bound, ended, ?_, equal⟩
  rw [LiveSource.cached?, same]
  exact cached

theorem Attempted.refreshed (attempted : Attempted host directory s caches w none last after)
    (dynamic : s.isDynamic = true) (inScope : (s.policy.scope? directory).isSome = true)
    (empty : (caches.get s.cell).snapshot = {}) : Refreshed host directory last s := by
  cases attempted with
  | passed fresh =>
      have nothing : s.cached? caches directory = none := by
        cases scope : s.policy.scope? directory <;>
          simp [LiveSource.cached?, scope, Cache.get?, empty, Snapshot.get?]
      simp [LiveSource.needsRefresh, dynamic, inScope, nothing] at fresh
  | @gave r items after _ start ended =>
      obtain ⟨command, context, scope, provider, bound, own, rfl⟩ :=
        LiveSource.startRefresh_eq_running_iff.mp start
      let entry : Entry :=
        { items, computedAt := host.clock after context,
          generation := (caches.get s.cell).snapshot.generation + 1 }
      refine ⟨command, context, w, after, items, entry, provider, bound, ended, ?_, rfl⟩
      rw [publish_unmark, LiveSource.cached?, own, Option.bind_some, Caches.get_modify, if_pos rfl,
        Cache.get?, Snapshot.get?, Snapshot.withItems, Snapshot.lookup_put, if_pos rfl]

/-- Where the refreshes of some sources end: after all of them, or at one that fails after those
before it did not. -/
inductive Ends (host : Host ω) (directory : Option String) (caches : Caches) (w : ω)
    (done : List LiveSource) : List LiveSource → Option EngineError → Caches → ω → Prop where
  | all {last : Caches} {after : ω}
      (went : refreshUntil host directory done caches w = some (none, last, after)) :
      Ends host directory caches w done [] none last after
  | failed {source : LiveSource} {rest : List LiveSource} {cause : EngineError}
      {between last : Caches} {during after : ω}
      (went : refreshUntil host directory done caches w = some (none, between, during))
      (fails : attempt host directory source between during = some (some cause, last, after)) :
      Ends host directory caches w done (source :: rest) (some cause) last after

theorem Ends.cons {between : Caches} {during : ω} {done rest : List LiveSource}
    {fault : Option EngineError}
    (tried : attempt host directory s caches w = some (none, between, during))
    (ends : Ends host directory between during done rest fault last after) :
    Ends host directory caches w (s :: done) rest fault last after := by
  cases ends with
  | all went => exact .all (by simp only [refreshUntil, tried, went])
  | failed went fails => exact .failed (by simp only [refreshUntil, tried, went]) fails

/-- The sources before the first that fails have the values of their commands, and nothing is cached
for the others. -/
theorem refreshUntil_cases {sources : List LiveSource} {fault : Option EngineError}
    (distinct : (sources.map (·.cell)).Nodup)
    (empty : ∀ x ∈ sources, (caches.get x.cell).snapshot = {})
    (ended : refreshUntil host directory sources caches w = some (fault, last, after)) :
    ∃ done rest, sources = done ++ rest ∧
      Ends host directory caches w done rest fault last after ∧
      (∀ x ∈ done, x.isDynamic = true → (x.policy.scope? directory).isSome = true →
        Refreshed host directory last x) ∧
      (∀ x ∈ rest, (last.get x.cell).snapshot = {}) ∧
      ∀ cell, cell ∉ sources.map (·.cell) → last.get cell = caches.get cell := by
  induction sources generalizing caches w with
  | nil =>
      obtain ⟨rfl, rfl, rfl⟩ : none = fault ∧ caches = last ∧ w = after := by
        simpa [refreshUntil] using ended
      exact ⟨[], [], rfl, .all rfl, by simp, by simp, fun _ _ => rfl⟩
  | cons s sources ih =>
      obtain ⟨apart, distinct⟩ := List.nodup_cons.mp distinct
      simp only [refreshUntil] at ended
      cases tried : attempt host directory s caches w with
      | none => simp [tried] at ended
      | some result =>
          obtain ⟨failure, between, during⟩ := result
          have attempted := attempted_of_attempt tried
          cases failure with
          | some cause =>
              obtain ⟨rfl, rfl, rfl⟩ : some cause = fault ∧ between = last ∧ during = after := by
                simpa [tried] using ended
              refine ⟨[], s :: sources, rfl, .failed rfl tried, by simp, ?_, ?_⟩
              · intro x member
                rw [attempted.snapshot_of_failed, empty x member]
              · intro cell absent
                exact attempted.get_of_ne fun here => absent (by simp [here])
          | none =>
              simp only [tried] at ended
              -- the attempt wrote to a cache that no later source has
              have others {x : LiveSource} (member : x ∈ sources) : x.cell ≠ s.cell := by
                intro same
                exact apart (List.mem_map.mpr ⟨x, member, same⟩)
              have untouched : ∀ x ∈ sources, (between.get x.cell).snapshot = {} := by
                intro x member
                rw [attempted.get_of_ne (others member), empty x (List.mem_cons_of_mem _ member)]
              obtain ⟨done, rest, rfl, ends, refreshed, nothing, frame⟩ :=
                ih distinct untouched ended
              refine ⟨s :: done, rest, rfl, ends.cons tried, ?_, nothing, ?_⟩
              · intro x member dynamic inScope
                rcases List.mem_cons.mp member with rfl | later
                · exact refreshed_of_get_eq
                    (attempted.refreshed dynamic inScope (empty x List.mem_cons_self))
                    (frame _ apart)
                · exact refreshed x later dynamic inScope
              · intro cell absent
                obtain ⟨other, absent⟩ : cell ≠ s.cell ∧ cell ∉ (done ++ rest).map (·.cell) := by
                  simpa using absent
                rw [frame cell absent, attempted.get_of_ne other]

end Attempt

end Engine

end LineCompletion

import LineCompletion.Proofs.Engine.QueueHistory

/-! # What a move changes

Only files that were read change what is published, and only the command of a refresh or a caller
who writes on its own changes the entries of a cache. What the worker is doing changes with its own
moves, or where a worker is started or dismissed.
-/

namespace LineCompletion

namespace LiveSource

variable {s : LiveSource} {caches last : Caches} {directory : Option String}

theorem startRefresh_eq_failed_iff {cause : SourceError} :
    s.startRefresh caches directory = .failed cause ↔
      s.isDynamic = true ∧ s.context = none ∧ cause = .notBound s.name := by
  unfold startRefresh Source.isDynamic
  cases s.provider with
  | fixed items => simp
  | dynamic command =>
      cases s.context with
      | none => simp [eq_comm]
      | some context => cases s.policy.scope? directory <;> simp

theorem startRefresh_eq_running_iff {refresh : Refresh} :
    s.startRefresh caches directory = .running refresh ↔
      ∃ command context scope, s.provider = .dynamic command ∧ s.context = some context ∧
        s.policy.scope? directory = some scope ∧
        refresh = { cell := s.cell, context, command, directory, scope,
                    generation := (caches.get s.cell).generation } := by
  unfold startRefresh
  cases s.provider with
  | fixed items => simp
  | dynamic command =>
      cases s.context with
      | none => simp
      | some context => cases s.policy.scope? directory <;> simp [eq_comm]

theorem startRefresh_ne_done {clock : Clock}
    (due : s.needsRefresh last clock directory = true) :
    s.startRefresh caches directory ≠ .done := by
  unfold needsRefresh Source.isDynamic at due
  unfold startRefresh
  cases provider : s.provider with
  | fixed items => simp [provider] at due
  | dynamic command =>
      cases s.context with
      | none => simp
      | some context =>
          cases scope : s.policy.scope? directory with
          | none => simp [scope] at due
          | some scope => simp

theorem startRefresh_congr (same : (last.get s.cell).snapshot = (caches.get s.cell).snapshot)
    (directory : Option String) :
    s.startRefresh last directory = s.startRefresh caches directory := by
  unfold startRefresh Cache.generation
  rw [same]

end LiveSource

theorem Caches.snapshot_unmark (caches : Caches) (own cell : CellId) :
    ((caches.modify own Cache.unmark).get cell).snapshot = (caches.get cell).snapshot := by
  rw [Caches.get_modify]
  split
  · rename_i here
    rw [here]
    rfl
  · rfl

namespace Engine

def activity? (e : Engine) : Option Activity :=
  e.worker.map (·.activity)

def snapshotOf (e : Engine) (cell : CellId) : Snapshot :=
  (e.caches.get cell).snapshot

@[simp] theorem activity?_become (e : Engine) (a : Activity) :
    (e.become a).activity? = e.activity?.map fun _ => a := by
  cases found : e.worker with
  | none => simp [activity?, found]
  | some w => simp [activity?, found]

theorem worker_of_activity? {e : Engine} {a : Activity} (doing : e.activity? = some a) :
    ∃ stop, e.worker = some { stop, activity := a } := by
  obtain ⟨⟨stop, activity⟩, found, rfl⟩ := Option.map_eq_some_iff.mp doing
  exact ⟨stop, found⟩

theorem activity?_of_held? {e : Engine} {t : Task} (held : e.held? = some t) :
    e.activity? = some (.holding t) := by
  unfold held? at held
  split at held
  · rename_i found
    obtain rfl := Option.some.inj held
    simp [activity?, found]
  · simp at held

/-- Nothing is published, no cache has other entries, and what is loaded later is made ready as
before. -/
structure Keeps (e next : Engine) : Prop where
  published : next.suggestors = e.suggestors
  entries : ∀ cell, next.snapshotOf cell = e.snapshotOf cell
  options : next.options = e.options
  context : next.context = e.context

namespace Keeps

theorem refl (e : Engine) : Keeps e e :=
  ⟨rfl, fun _ => rfl, rfl, rfl⟩

theorem become (e : Engine) (a : Activity) : Keeps e (e.become a) :=
  ⟨rfl, fun _ => rfl, rfl, rfl⟩

theorem beginRefresh (e : Engine) (s : LiveSource) (directory : Option String)
    (rest : List LiveSource) : Keeps e (e.beginRefresh s directory rest) := by
  have unmarked (cell : CellId) :
      ((e.caches.modify s.cell Cache.unmark).get cell).snapshot = e.snapshotOf cell :=
    e.caches.snapshot_unmark s.cell cell
  simp only [Engine.beginRefresh]
  split <;> exact ⟨rfl, unmarked, rfl, rfl⟩

theorem begin (e : Engine) (t : Task) : Keeps e (e.begin t) := by
  cases t with
  | refreshSource source directory suggested => exact .beginRefresh e source directory []
  | load | refreshDictionary | barrier => exact ⟨rfl, fun _ => rfl, rfl, rfl⟩

theorem step {clock : Clock} {e next : Engine} (stepped : e.step clock = some next) :
    Keeps e next := by
  unfold Engine.step at stepped
  cases found : e.worker with
  | none => simp [found] at stepped
  | some w =>
      obtain ⟨stop, activity⟩ := w
      simp only [found] at stepped
      cases activity with
      | starting | failing | failed =>
          obtain rfl := Option.some.inj stepped
          exact ⟨rfl, fun _ => rfl, rfl, rfl⟩
      | waiting =>
          simp only at stepped
          split at stepped
          · obtain rfl := Option.some.inj stepped
            exact ⟨rfl, fun _ => rfl, rfl, rfl⟩
          · obtain rfl := Option.some.inj stepped
            exact ⟨rfl, fun _ => rfl, rfl, rfl⟩
          · simp at stepped
      | holding t =>
          obtain rfl := Option.some.inj stepped
          exact .begin e t
      | checking sources directory =>
          cases sources with
          | nil =>
              obtain rfl := Option.some.inj stepped
              exact .become e _
          | cons s rest =>
              simp only at stepped
              split at stepped
              · obtain rfl := Option.some.inj stepped
                exact .beginRefresh e s directory rest
              · obtain rfl := Option.some.inj stepped
                exact .become e _
      | loading | refreshing | finished => simp at stepped

end Keeps

/-- What the worker is doing and has reported is as before. -/
structure Stands (e next : Engine) : Prop where
  activity : next.activity? = e.activity?
  fault : next.fault = e.fault
  state : next.state = e.state

theorem loaded_cases (e : Engine) (result : Except LoadError (Library Source)) :
    (∃ cause, e.loaded result = e.become (.failing cause) ∧
        ∀ library ready, result = .ok library →
          prepare e.context e.options e.nextCell library.dictionaries ≠ .ok ready) ∨
      ∃ library suggestors cell, result = .ok library ∧
        prepare e.context e.options e.nextCell library.dictionaries = .ok (suggestors, cell) ∧
        e.loaded result = ({ e with nextCell := cell }.publish suggestors).become .waiting := by
  unfold loaded
  cases result with
  | error cause => exact .inl ⟨.load cause, rfl, by simp⟩
  | ok library =>
      cases prepared : prepare e.context e.options e.nextCell library.dictionaries with
      | error cause =>
          refine .inl ⟨.configuration cause, by simp only [prepared], ?_⟩
          intro own ready same
          obtain rfl := Except.ok.inj same
          simp [prepared]
      | ok ready =>
          exact .inr ⟨library, ready.1, ready.2, rfl, prepared, by simp only [prepared]⟩

end Engine

namespace Session

open Engine

@[simp] theorem run_append (s : Session) (early late : List Move) :
    s.run (early ++ late) = (s.run early).run late :=
  List.foldl_append

theorem taken_append (s : Session) (early late : List Move) :
    s.taken (early ++ late) = s.taken early ++ (s.run early).taken late := by
  induction early generalizing s with
  | nil => rfl
  | cons m early ih => simp only [List.cons_append, taken, ih, run_cons, List.append_assoc]

/-- What a move of a caller changes. -/
inductive Called (e next : Engine) : Move → Prop where
  | apart {m : Move} (stands : Stands e next) (keeps : Keeps e next) : Called e next m
  | wrote {cell : CellId} {snapshot : Snapshot} (stands : Stands e next)
      (same : next = { e with caches := e.caches.modify cell fun c => { c with snapshot } }) :
      Called e next (.writeCache cell snapshot)
  | started (none : e.activity? = none)
      (same : next = { e with worker := some {}, state := .starting }) : Called e next .start
  | dismissed (gone : e.activity? = some .finished) (same : next = e.dismiss) :
      Called e next .dismiss

theorem Called.refl (e : Engine) (m : Move) : Called e e m :=
  .apart ⟨rfl, rfl, rfl⟩ (.refl e)

theorem called_askingStep (clock : Clock) (e : Engine) (a : Asking) (m : Move) :
    Called e (a.step clock e).1 m := by
  cases a with
  | looking sources directory =>
      cases sources with
      | nil => exact .refl e m
      | cons s rest =>
          simp only [Asking.step]
          split <;> exact .refl e m
  | marking s rest directory =>
      refine .apart ⟨rfl, rfl, rfl⟩ ⟨rfl, fun cell => ?_, rfl, rfl⟩
      simp only [snapshotOf, Asking.step, Caches.set]
      split
      · rename_i same
        rw [same]
        rfl
      · rfl
  | queueing s rest directory =>
      exact .apart ⟨rfl, rfl, rfl⟩ ⟨rfl, fun _ => rfl, rfl, rfl⟩

theorem called_act (s : Session) {m : Move} (callers : m.isCallers = true) :
    Called s.engine (s.act m).engine m := by
  cases m with
  | work | filesRead | commandEnded => simp [Move.isCallers] at callers
  | requestLoad | refreshSource | refreshDictionary | setRefreshOnSuggest =>
      exact .apart ⟨rfl, rfl, rfl⟩ ⟨rfl, fun _ => rfl, rfl, rfl⟩
  | writeCache cell snapshot => exact .wrote ⟨rfl, rfl, rfl⟩ rfl
  | suggest request =>
      obtain still | ⟨sources, directory, added⟩ := act_suggest s request
      · rw [still]
        exact .refl s.engine _
      · rw [added]
        exact .refl s.engine _
  | goOn caller clock =>
      simp only [act]
      split
      · exact .refl s.engine _
      · exact called_askingStep clock s.engine _ _
  | putBarrier =>
      cases found : s.engine.worker with
      | none =>
          simp only [act, putBarrier, found]
          exact .refl s.engine _
      | some w =>
          simp only [act, putBarrier, found]
          exact .apart ⟨rfl, rfl, rfl⟩ ⟨rfl, fun _ => rfl, rfl, rfl⟩
  | start =>
      cases found : s.engine.worker with
      | none =>
          simp only [act, Engine.start, found]
          exact .started (by simp [activity?, found]) rfl
      | some w =>
          simp only [act, Engine.start, found]
          exact .refl s.engine _
  | requestStop =>
      cases found : s.engine.worker with
      | none =>
          simp only [act, Engine.requestStop, found]
          exact .refl s.engine _
      | some w =>
          simp only [act, Engine.requestStop, found]
          exact .apart ⟨by simp [activity?, found, Except.toOption], rfl, rfl⟩
            ⟨rfl, fun _ => rfl, rfl, rfl⟩
  | dismiss =>
      simp only [act]
      split
      · rename_i gone
        refine .dismissed ?_ rfl
        unfold workerFinished at gone
        split at gone
        · rename_i found
          simp [activity?, found]
        · simp at gone
      · exact .refl s.engine _

theorem filesRead_cases (s : Session) (result : Except LoadError (Library Source)) :
    ((∀ path, s.engine.activity? ≠ some (.loading path)) ∧ s.act (.filesRead result) = s) ∨
      ∃ path, s.engine.activity? = some (.loading path) ∧
        s.act (.filesRead result) = { s with engine := s.engine.loaded result } := by
  simp only [act, afterFiles?]
  split
  · rename_i stop path found
    exact .inr ⟨path, by simp [activity?, found], rfl⟩
  · rename_i other
    refine .inl ⟨fun path loads => ?_, rfl⟩
    obtain ⟨stop, found⟩ := worker_of_activity? loads
    exact other _ _ found

theorem commandEnded_cases (s : Session) (now : Moment) (outcome : Outcome) :
    s.act (.commandEnded now outcome) = s ∨
      ∃ refresh rest, s.engine.activity? = some (.refreshing refresh rest) ∧
        s.act (.commandEnded now outcome) =
          { s with engine := s.engine.ran refresh rest now outcome } := by
  simp only [act, afterCommand?]
  split
  · rename_i stop refresh rest found
    exact .inr ⟨refresh, rest, by simp [activity?, found], rfl⟩
  · exact .inl rfl

theorem keeps_work (s : Session) (clock : Clock) :
    Keeps s.engine (s.act (.work clock)).engine := by
  cases stepped : s.engine.step clock with
  | none => simpa [act, stepped] using Keeps.refl s.engine
  | some next => simpa [act, stepped] using Keeps.step stepped

def publishes (s : Session) : Move → Option (Library Source)
  | .filesRead (.ok library) =>
    match s.engine.activity? with
    | some (.loading _) =>
      match prepare s.engine.context s.engine.options s.engine.nextCell library.dictionaries with
      | .ok _ => some library
      | .error _ => none
    | _ => none
  | _ => none

/-- What a move publishes: nothing, or what the worker made ready of a library that was read. -/
inductive Publishing (s : Session) (m : Move) : Prop where
  | nothing (free : s.publishes m = none)
      (published : (s.act m).engine.suggestors = s.engine.suggestors)
      (options : (s.act m).engine.options = s.engine.options)
      (context : (s.act m).engine.context = s.engine.context) : Publishing s m
  | ready {path : String} {library : Library Source} {suggestors : List Suggestor} {cell : CellId}
      (publishes : s.publishes m = some library) (read : m = .filesRead (.ok library))
      (loads : s.engine.activity? = some (.loading path))
      (prepared : prepare s.engine.context s.engine.options s.engine.nextCell
        library.dictionaries = .ok (suggestors, cell))
      (same : (s.act m).engine =
        ({ s.engine with nextCell := cell }.publish suggestors).become .waiting) : Publishing s m

theorem Publishing.keeps {s : Session} {m : Move} (free : s.publishes m = none)
    (keeps : Keeps s.engine (s.act m).engine) : Publishing s m :=
  .nothing free keeps.published keeps.options keeps.context

theorem publishing_filesRead (s : Session) (result : Except LoadError (Library Source)) :
    Publishing s (.filesRead result) := by
  obtain ⟨other, still⟩ | ⟨path, loads, read⟩ := filesRead_cases s result
  · have free : s.publishes (.filesRead result) = none := by
      cases result with
      | error cause => rfl
      | ok library =>
          cases found : s.engine.activity? with
          | none => simp only [publishes, found]
          | some a => cases a with
            | loading path => exact absurd found (other path)
            | _ => simp only [publishes, found]
    exact .keeps free (still.symm ▸ .refl s.engine)
  · obtain ⟨cause, fails, broken⟩ | ⟨library, suggestors, cell, rfl, prepared, ready⟩ :=
      loaded_cases s.engine result
    · have free : s.publishes (.filesRead result) = none := by
        cases result with
        | error cause => rfl
        | ok library =>
            simp only [publishes, loads]
            split
            · rename_i prepared
              exact absurd prepared (broken library _ rfl)
            · rfl
      exact .keeps free (by rw [read, fails]; exact .become s.engine _)
    · exact .ready (by simp [publishes, loads, prepared]) rfl loads prepared (by rw [read, ready])

theorem publishing_act (s : Session) (m : Move) : Publishing s m := by
  by_cases callers : m.isCallers = true
  · have free : s.publishes m = none := by
      cases m with
      | filesRead => simp [Move.isCallers] at callers
      | _ => rfl
    cases called_act s callers with
    | apart _ keeps => exact .keeps free keeps
    | wrote _ same | started _ same =>
        exact .nothing free (by rw [same]) (by rw [same]) (by rw [same])
    | dismissed _ same =>
        exact .nothing free (by rw [same, dismiss]) (by rw [same, dismiss])
          (by rw [same, dismiss])
  · cases m with
    | work clock => exact .keeps rfl (keeps_work s clock)
    | filesRead result => exact publishing_filesRead s result
    | commandEnded now outcome =>
        obtain still | ⟨refresh, rest, _, ended⟩ := commandEnded_cases s now outcome
        · exact .keeps rfl (still.symm ▸ .refl s.engine)
        · refine .nothing rfl ?_ ?_ ?_ <;> rw [ended] <;> cases outcome <;> rfl
    | _ => simp [Move.isCallers] at callers

/-- The entries of a cache change only where a caller writes them or a refresh gives values. -/
theorem snapshotOf_act (s : Session) (m : Move) (cell : CellId) :
    (s.act m).engine.snapshotOf cell = s.engine.snapshotOf cell ∨
      (∃ snapshot, m = .writeCache cell snapshot) ∨
      ∃ refresh rest, s.engine.activity? = some (.refreshing refresh rest) ∧
        refresh.cell = cell ∧ ∃ now items, m = .commandEnded now (.items items) := by
  by_cases callers : m.isCallers = true
  · cases called_act s callers with
    | apart _ keeps => exact .inl (keeps.entries cell)
    | @wrote written snapshot _ same =>
        by_cases here : cell = written
        · exact .inr (.inl ⟨snapshot, by rw [here]⟩)
        · exact .inl (by simp [same, snapshotOf, Caches.get_modify, here])
    | started _ same | dismissed _ same =>
        rw [same]
        exact .inl rfl
  · cases m with
    | work clock => exact .inl ((keeps_work s clock).entries cell)
    | filesRead result =>
        obtain ⟨_, still⟩ | ⟨path, _, read⟩ := filesRead_cases s result
        · exact .inl (by rw [still])
        · rw [read]
          obtain ⟨cause, fails, _⟩ | ⟨_, _, _, _, _, ready⟩ := loaded_cases s.engine result
          · exact .inl (by rw [fails]; rfl)
          · exact .inl (by rw [ready]; rfl)
    | commandEnded now outcome =>
        obtain still | ⟨refresh, rest, refreshes, ended⟩ := commandEnded_cases s now outcome
        · exact .inl (by rw [still])
        · cases outcome with
          | failed | panicked => exact .inl (by rw [ended]; rfl)
          | items items =>
              by_cases here : refresh.cell = cell
              · exact .inr (.inr ⟨refresh, rest, refreshes, here, now, items, rfl⟩)
              · refine .inl ?_
                rw [ended]
                simp [snapshotOf, ran, Refresh.publish, Caches.get_modify, Ne.symm here]
    | _ => simp [Move.isCallers] at callers

end Session

end LineCompletion

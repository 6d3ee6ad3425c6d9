import Mathlib.Data.List.Basic
import LineCompletion.Proofs.Engine.Worker

/-! # An engine in use

Callers, the worker and the surroundings take their steps in any order. A suggestion is not one
step: its caller looks at the sources one after the other, marks those that are due and puts their
refreshes into the queue, and the worker goes on in between. Every list of moves is a run; a move
that is not possible changes nothing.
-/

namespace LineCompletion

/-- How far a caller has come who asks for suggestions. -/
inductive Asking where
  /-- It looks at the next of these sources. -/
  | looking (sources : List LiveSource) (directory : Option String)
  /-- It found a source due and tries to mark it. -/
  | marking (source : LiveSource) (rest : List LiveSource) (directory : Option String)
  /-- It marked a source and puts the refresh into the queue. -/
  | queueing (source : LiveSource) (rest : List LiveSource) (directory : Option String)

/-- The next step of a caller who asks for suggestions; none remains where it has seen all. -/
def Asking.step (clock : Clock) (e : Engine) : Asking → Engine × Option Asking
  | .looking [] _ => (e, none)
  | .looking (s :: rest) directory =>
    if s.needsRefresh e.caches clock directory then (e, some (.marking s rest directory))
    else (e, some (.looking rest directory))
  | .marking s rest directory =>
    let marked := (e.caches.get s.cell).mark
    ({ e with caches := e.caches.set s.cell marked.2 },
      some (if marked.1 then .queueing s rest directory else .looking rest directory))
  | .queueing s rest directory =>
    (e.enqueue (.refreshSource s directory true), some (.looking rest directory))

/-- An engine with the suggestions that are under way. -/
structure Session where
  engine : Engine := {}
  asking : List Asking := []

namespace Session

inductive Move where
  /-- A caller asks for the dictionaries of a path. -/
  | requestLoad (path : String)
  /-- A caller asks for the refresh of a source. -/
  | refreshSource (source : LiveSource) (directory : Option String)
  /-- A caller asks for the refresh of the sources of a dictionary. -/
  | refreshDictionary (dictionary : Dictionary LiveSource) (directory : Option String)
  /-- A caller begins to ask for suggestions. -/
  | suggest (request : Request)
  /-- A caller who asks for suggestions goes on. -/
  | goOn (caller : Nat) (clock : Clock)
  /-- A caller who waits for the worker puts a barrier into the queue. -/
  | putBarrier
  /-- A caller says whether suggestions ask for refreshes. -/
  | setRefreshOnSuggest (enabled : Bool)
  /-- A caller starts a worker. -/
  | start
  /-- A caller tells the worker to stop. -/
  | requestStop
  /-- The caller who told the worker to stop finds it gone. -/
  | dismiss
  /-- A caller writes to a cache on its own. -/
  | writeCache (cell : CellId) (snapshot : Snapshot)
  /-- The worker goes on. -/
  | work (clock : Clock)
  /-- The files that the worker waits for were read. -/
  | filesRead (result : Except LoadError (Library Source))
  /-- The command that the worker waits for has ended. -/
  | commandEnded (now : Moment) (outcome : Outcome)

def replace (asking : List Asking) (caller : Nat) : Option Asking → List Asking
  | none => asking.eraseIdx caller
  | some a => asking.set caller a

/-- The session after a move. -/
def act (s : Session) : Move → Session
  | .requestLoad path => { s with engine := s.engine.requestLoad path }
  | .refreshSource source directory =>
    { s with engine := s.engine.refreshSource source directory }
  | .refreshDictionary dictionary directory =>
    { s with engine := s.engine.refreshDictionary dictionary directory }
  | .suggest request =>
    match s.engine.suggestorFor request.command with
    | none => s
    | some g =>
      if s.engine.refreshOnSuggest then
        { s with asking := s.asking ++ [.looking g.dictionary.sources request.directory] }
      else s
  | .goOn caller clock =>
    match s.asking[caller]? with
    | none => s
    | some a =>
      { engine := (a.step clock s.engine).1
        asking := replace s.asking caller (a.step clock s.engine).2 }
  | .putBarrier =>
    match s.engine.putBarrier with
    | .ok (_, e) => { s with engine := e }
    | .error _ => s
  | .setRefreshOnSuggest enabled =>
    { s with engine := { s.engine with refreshOnSuggest := enabled } }
  | .start => { s with engine := (s.engine.start.toOption).getD s.engine }
  | .requestStop => { s with engine := (s.engine.requestStop.toOption).getD s.engine }
  | .dismiss => if s.engine.workerFinished then { s with engine := s.engine.dismiss } else s
  | .writeCache cell snapshot =>
    { s with engine := { s.engine with
        caches := s.engine.caches.modify cell fun c => { c with snapshot } } }
  | .work clock => { s with engine := (s.engine.step clock).getD s.engine }
  | .filesRead result => { s with engine := (s.engine.afterFiles? result).getD s.engine }
  | .commandEnded now outcome =>
    { s with engine := (s.engine.afterCommand? now outcome).getD s.engine }

def run (s : Session) (moves : List Move) : Session :=
  moves.foldl act s

/-- A new engine that nobody uses yet. -/
def fresh (options : SuggestOptions) (context : ContextId) : Session :=
  { engine := { options, context } }

@[simp] theorem run_nil (s : Session) : s.run [] = s := rfl

@[simp] theorem run_cons (s : Session) (m : Move) (moves : List Move) :
    s.run (m :: moves) = (s.act m).run moves := rfl

def Move.isCallers : Move → Bool
  | .work _ | .filesRead _ | .commandEnded .. => false
  | _ => true

/-- What the worker does in its surroundings is a move. -/
theorem turn_eq_act {ω : Type} {host : Host ω} {s : Session} {w after : ω} {next : Engine}
    (turned : s.engine.turn host w = (some next, after)) :
    ∃ m, m.isCallers = false ∧ s.act m = { s with engine := next } := by
  unfold Engine.turn at turned
  cases found : s.engine.worker with
  | none => simp [found] at turned
  | some worker =>
      obtain ⟨stop, activity⟩ := worker
      simp only [found] at turned
      split at turned
      · rename_i path
        refine ⟨.filesRead (host.load w path), rfl, ?_⟩
        simp only [act, Engine.afterFiles?, found, Option.getD_some,
          Option.some.inj (Prod.mk.inj turned).1]
      · rename_i refresh rest
        split at turned
        · simp at turned
        · rename_i outcome later ended
          refine ⟨.commandEnded (host.clock later refresh.context) outcome, rfl, ?_⟩
          simp only [act, Engine.afterCommand?, found, Option.getD_some,
            Option.some.inj (Prod.mk.inj turned).1]
      · refine ⟨.work (host.clock w), rfl, ?_⟩
        simp only [act, (Prod.mk.inj turned).1, Option.getD_some]

/-- A caller whom nobody interrupts asks for the refreshes that are due. -/
theorem goOn_schedule (clock : Clock) (directory : Option String) (sources : List LiveSource)
    (e : Engine) :
    ∃ n, run { engine := e, asking := [.looking sources directory] }
        (List.replicate n (.goOn 0 clock)) =
      { engine := sources.foldl (Engine.schedule clock directory) e } := by
  induction sources generalizing e with
  | nil => exact ⟨1, rfl⟩
  | cons s rest ih =>
      obtain ⟨n, later⟩ := ih (Engine.schedule clock directory e s)
      rw [List.foldl_cons, ← later]
      by_cases due : s.needsRefresh e.caches clock directory = true
      · cases marked : (e.caches.get s.cell).refreshQueued with
        | true =>
            refine ⟨n + 2, ?_⟩
            simp [List.replicate_succ, act, Asking.step, replace, Engine.schedule, due, marked,
              Cache.mark]
        | false =>
            refine ⟨n + 3, ?_⟩
            simp [List.replicate_succ, act, Asking.step, replace, Engine.schedule, due, marked,
              Cache.mark]
      · refine ⟨n + 1, ?_⟩
        simp [List.replicate_succ, act, Asking.step, replace, Engine.schedule, due]

theorem suggest_eq_run (e : Engine) (clock : Clock) (request : Request) :
    ∃ n, run { engine := e } (.suggest request :: List.replicate n (.goOn 0 clock)) =
      { engine := (e.suggest clock request).2 } := by
  cases found : e.suggestorFor request.command with
  | none => exact ⟨0, by simp [act, Engine.suggest, found]⟩
  | some g =>
      cases enabled : e.refreshOnSuggest with
      | false => exact ⟨0, by simp [act, Engine.suggest, found, enabled]⟩
      | true =>
          obtain ⟨n, asked⟩ := goOn_schedule clock request.directory g.dictionary.sources e
          refine ⟨n, ?_⟩
          simpa [act, Engine.suggest, found, enabled] using asked

theorem act_suggest (s : Session) (request : Request) :
    s.act (.suggest request) = s ∨ ∃ sources directory, s.act (.suggest request) =
      { s with asking := s.asking ++ [.looking sources directory] } := by
  simp only [act]
  split
  · exact .inl rfl
  · rename_i g found
    split
    · exact .inr ⟨g.dictionary.sources, request.directory, rfl⟩
    · exact .inl rfl

/-- The moves that touch neither the queue nor the marks nor a caller who asks for suggestions. -/
def Move.isQuiet : Move → Bool
  | .setRefreshOnSuggest _ | .start | .requestStop | .dismiss | .writeCache .. | .filesRead _
  | .commandEnded .. => true
  | _ => false

theorem act_quiet {s : Session} {m : Move} (quiet : m.isQuiet = true) :
    s.engine.Undisturbed (s.act m).engine ∧ (s.act m).asking = s.asking := by
  cases m with
  | setRefreshOnSuggest enabled => exact ⟨⟨rfl, rfl, fun _ => rfl⟩, rfl⟩
  | start =>
      refine ⟨Engine.Undisturbed.getD fun e started => ?_, rfl⟩
      cases result : s.engine.start with
      | error cause => simp [result, Except.toOption] at started
      | ok next =>
          obtain rfl := Option.some.inj ((congrArg Except.toOption result).symm.trans started)
          exact .start result
  | requestStop =>
      refine ⟨Engine.Undisturbed.getD fun e told => ?_, rfl⟩
      cases result : s.engine.requestStop with
      | error cause => simp [result, Except.toOption] at told
      | ok next =>
          obtain rfl := Option.some.inj ((congrArg Except.toOption result).symm.trans told)
          exact .requestStop result
  | dismiss =>
      simp only [act]
      split
      · rename_i gone
        exact ⟨.dismiss gone, rfl⟩
      · exact ⟨.refl _, rfl⟩
  | writeCache cell snapshot =>
      refine ⟨⟨rfl, rfl, fun i => ?_⟩, rfl⟩
      simp only [act, Engine.isMarked, Caches.get_modify]
      split
      · rename_i same
        rw [same]
      · rfl
  | filesRead result => exact ⟨.getD fun _ => .afterFiles, rfl⟩
  | commandEnded now outcome => exact ⟨.getD fun _ => .afterCommand, rfl⟩
  | _ => simp [Move.isQuiet] at quiet

end Session

end LineCompletion

import LineCompletion.Proofs.Engine.Published
import LineCompletion.Proofs.Engine.Settling

/-! # Completions whose sources fail

A completion loads its dictionaries, refreshes the sources of the one that handles the command word
and prints what that suggests then. A source that fails ends the refresh: those before it have their
values, and for those after it nothing is cached, though their commands might have succeeded.
-/

namespace LineCompletion

/-- What a worker does that is asked to load dictionaries only. -/
def Activity.isLoad : Activity → Bool
  | .starting | .waiting | .holding (.load _) | .loading _ | .failing _ | .failed
  | .finished => true
  | _ => false

namespace Engine

variable {ω : Type} {host : Host ω}

/-! ## The engine after loading -/

/-- How far a worker has come with the loads before the first barrier. -/
inductive Phase (e : Engine) : Prop where
  | busy {a : Activity} {paths : List String} (worker : e.worker = some { activity := a })
      (loads : a.isLoad = true) (queue : e.queue = ⟨paths.map .load ++ [.barrier 0]⟩)
      (reached : e.reached = [])
  | last (worker : e.worker = some { activity := .holding (.barrier 0) }) (queue : e.queue = {})
      (reached : e.reached = [])
  | done (worker : e.worker = some { activity := .waiting }) (queue : e.queue = {})
      (reached : e.reached = [0])

/-- Nothing is cached or asked for, and all that is published was given its caches. -/
def Unused (e : Engine) : Prop :=
  e.caches = {} ∧ e.refreshOnSuggest = false ∧ e.nextTicket = 1 ∧
    ∀ g ∈ e.suggestors, ∃ d cell, g.dictionary =
      (Dictionary.attach d cell).1.bindSources e.context

theorem unused_loaded {e : Engine} (unused : Unused e)
    (result : Except LoadError (Library Source)) : Unused (e.loaded result) := by
  obtain ⟨cause, fails, _⟩ | ⟨library, suggestors, cell, _, prepared, ready⟩ :=
    loaded_cases e result
  · rw [fails]
    exact unused
  · rw [ready]
    obtain ⟨caches, quiet, ticket, attached⟩ := unused
    refine ⟨caches, quiet, ticket, fun g member => ?_⟩
    rcases List.mem_append.mp member with kept | new
    · exact attached g (List.mem_of_mem_filter kept)
    · obtain ⟨d, _, serves⟩ := exists_serves (serves_of_prepare prepared) new
      obtain ⟨cell, rfl⟩ := serves.same
      exact ⟨d, cell, rfl⟩

/-- Every turn of the worker up to the barrier is for a load. -/
theorem phase_turn {e next : Engine} {w after : ω} (phase : Phase e) (unused : Unused e)
    (turned : e.turn host w = (some next, after)) : Phase next ∧ Unused next := by
  cases phase with
  | done worker queue reached => simp [turn, step, worker, queue, TaskQueue.pop] at turned
  | last worker queue reached =>
      obtain ⟨rfl, rfl⟩ : _ = next ∧ w = after := by
        simpa [turn, step, worker, begin] using turned
      exact ⟨.done (by simp) queue (by simp [become, reached]), unused⟩
  | @busy a paths worker loads queue reached =>
      have busy (e' : Engine) (b : Activity) (same : e'.worker = e.worker)
          (loads : b.isLoad = true) (waiting : e'.queue = e.queue)
          (before : e'.reached = e.reached) : Phase (e'.become b) :=
        .busy (a := b) (by simp [same, worker]) loads (waiting.trans queue) (before.trans reached)
      cases a with
      | starting | failing | failed =>
          obtain ⟨rfl, rfl⟩ : _ = next ∧ w = after := by simpa [turn, step, worker] using turned
          exact ⟨busy _ _ worker.symm rfl rfl rfl, unused⟩
      | waiting =>
          cases paths with
          | nil =>
              obtain ⟨rfl, rfl⟩ : _ = next ∧ w = after := by
                simpa [turn, step, worker, queue, TaskQueue.pop] using turned
              exact ⟨.last (by simp) rfl reached, unused⟩
          | cons path paths =>
              obtain ⟨rfl, rfl⟩ : _ = next ∧ w = after := by
                simpa [turn, step, worker, queue, TaskQueue.pop] using turned
              exact ⟨.busy (a := .holding (.load path)) (by simp) rfl rfl reached, unused⟩
      | holding t =>
          cases t with
          | load path =>
              obtain ⟨rfl, rfl⟩ : _ = next ∧ w = after := by
                simpa [turn, step, worker, begin] using turned
              exact ⟨busy _ _ rfl rfl rfl rfl, unused⟩
          | refreshSource | refreshDictionary | barrier => simp [Activity.isLoad] at loads
      | loading path =>
          obtain ⟨rfl, rfl⟩ : e.loaded (host.load w path) = next ∧ w = after := by
            simpa [turn, worker] using turned
          refine ⟨?_, unused_loaded unused _⟩
          obtain ⟨cause, fails, _⟩ | ⟨_, _, _, _, _, ready⟩ := loaded_cases e (host.load w path)
          · rw [fails]
            exact busy _ _ rfl rfl rfl rfl
          · rw [ready]
            exact busy _ _ rfl rfl rfl rfl
      | finished => simp [turn, step, worker] at turned
      | checking | refreshing => simp [Activity.isLoad] at loads

theorem surroundings_turn {e : Engine} {w : ω}
    (quiet : ∀ refresh rest, e.activity? ≠ some (.refreshing refresh rest)) :
    (e.turn host w).2 = w := by
  unfold turn
  cases found : e.worker with
  | none => rfl
  | some worker =>
      obtain ⟨stop, activity⟩ := worker
      cases activity with
      | refreshing refresh rest => exact absurd (by simp [activity?, found]) (quiet refresh rest)
      | _ => rfl

theorem phase_settleFor {fuel : Nat} {e last : Engine} {w after : ω} (phase : Phase e)
    (unused : Unused e) (settled : settleFor host fuel e w = (last, after)) :
    Phase last ∧ Unused last ∧ after = w := by
  induction fuel generalizing e with
  | zero =>
      obtain ⟨rfl, rfl⟩ := Prod.mk.inj settled
      exact ⟨phase, unused, rfl⟩
  | succ fuel ih =>
      have still : (e.turn host w).2 = w := by
        refine surroundings_turn fun refresh rest refreshes => ?_
        obtain ⟨stop, found⟩ := worker_of_activity? refreshes
        cases phase with
        | last worker | done worker => simp [worker] at found
        | busy worker loads =>
            obtain ⟨_, rfl⟩ := Worker.mk.inj (Option.some.inj (worker.symm.trans found))
            simp [Activity.isLoad] at loads
      cases turned : e.turn host w with
      | mk next during =>
          rw [turned] at still
          obtain rfl : during = w := still
          cases next with
          | none =>
              simp only [settleFor, turned] at settled
              obtain ⟨rfl, rfl⟩ := Prod.mk.inj settled
              exact ⟨phase, unused, rfl⟩
          | some next =>
              simp only [settleFor, turned] at settled
              obtain ⟨phase, unused⟩ := phase_turn phase unused turned
              exact ih phase unused settled

theorem ofSettings_eq (options : SuggestOptions) (refresh : Bool) (paths : List String) :
    ofSettings options refresh paths =
      { options, refreshOnSuggest := refresh, queue := ⟨paths.map .load⟩ } := by
  have requested (e : Engine) :
      paths.foldl requestLoad e = { e with queue := ⟨e.queue.tasks ++ paths.map .load⟩ } := by
    induction paths generalizing e with
    | nil => simp
    | cons path paths ih => simp [ih, requestLoad, enqueue, TaskQueue.push]
  rw [ofSettings, requested]
  simp

/-- An engine that has loaded its dictionaries waits, with nothing cached. -/
theorem rests_of_sync {options : SuggestOptions} {paths : List String} {started e : Engine}
    {w after : ω} (start : (ofSettings options false paths).start = .ok started)
    (loaded : started.sync host w = (.ok (), e, after)) : Rests e ∧ Unused e ∧ after = w := by
  rw [ofSettings_eq] at start
  obtain rfl := Except.ok.inj start
  let begun : Engine :=
    { options, refreshOnSuggest := false, queue := ⟨paths.map .load ++ [.barrier 0]⟩
      worker := some {}, state := .starting, nextTicket := 1 }
  have put : Engine.putBarrier { options, refreshOnSuggest := false, queue := ⟨paths.map .load⟩
                                 worker := some {}, state := .starting } = .ok (0, begun) := rfl
  simp only [sync, put, settle] at loaded
  cases settled : settleFor host begun.effort begun w with
  | mk last during =>
      obtain ⟨phase, unused, rfl⟩ := phase_settleFor (.busy (a := .starting) rfl rfl rfl rfl)
        ⟨rfl, rfl, rfl, by simp [begun]⟩ settled
      rw [settled] at loaded
      have unreached (before : last.reached = []) : False := by
        cases gone : last.workerFinished <;>
          simp [Waiting.poll, hasReached, before, Waiting.check, gone] at loaded
      cases phase with
      | busy _ _ _ before | last _ _ before => exact (unreached before).elim
      | done worker queue reached =>
          obtain ⟨rfl, rfl⟩ : last = e ∧ during = after := by
            simpa [Waiting.poll, hasReached, reached] using loaded
          exact ⟨⟨worker, queue, by simp [unused.2.2.1, reached]⟩, unused, rfl⟩

end Engine

namespace Cli

/-! ## The answer of a completion -/

def limitOf (s : Settings) : Option Nat :=
  s.execution.timeoutSeconds.map fun n => n.toNat * 1000

def requestOf (c : Completion) : LineCompletion.Request :=
  { line := lineOf c, directory := c.directory }

/-- The files when a completion begins to wait for the worker. -/
def begin (files : Files) (c : Completion) : Surroundings :=
  { files, deadline := c.seconds.toNat * 1000 }

/-- The settings of a completion and the engine that has loaded its dictionaries, if all goes
well. -/
def loaded? [Codec] [ScriptRunner] (files : Files) (c : Completion) : Option (Settings × Engine) :=
  match settingsOf files c with
  | .error _ => none
  | .ok settings =>
    if settings.dictionaries.isEmpty || (lineOf c).tokens.isEmpty
        || (deadline? leastUptime c.seconds).isNone then none
    else
      match (Engine.ofSettings settings.matching false settings.dictionaries).start with
      | .error _ => none
      | .ok started =>
        match wait (limitOf settings) c.seconds.toNat started { files } with
        | (.ok (), e, _) => some (settings, e)
        | _ => none

section Completion

variable [Codec] [ScriptRunner] {files : Files} {c : Completion} {settings : Settings} {e : Engine}

theorem wait_begin (time : c.seconds.toNat ≠ 0) (limit : Option Nat) (e : Engine) :
    wait limit c.seconds.toNat e (begin files c) = e.sync (host limit) (begin files c) := by
  simp [wait, time, begin]

/-- What a completion answers with an engine that has loaded its dictionaries and waits. -/
theorem complete_eq_answer (loaded : loaded? files c = some (settings, e)) :
    complete files c = answer (limitOf settings) c (requestOf c) e (begin files c) ∧
      c.seconds.toNat ≠ 0 ∧ e.Rests ∧ e.Unused := by
  unfold loaded? at loaded
  split at loaded
  · simp at loaded
  · rename_i own given
    split at loaded
    · simp at loaded
    · rename_i sound
      split at loaded
      · simp at loaded
      · rename_i started start
        split at loaded
        · rename_i ready w waited
          obtain ⟨rfl, rfl⟩ : own = settings ∧ ready = e := by simpa using loaded
          have time : c.seconds.toNat ≠ 0 := by
            intro none
            simp [wait, none] at waited
          have synced : started.sync (host (limitOf own)) (begin files c) = (.ok (), ready, w) := by
            simpa [wait, time, begin] using waited
          obtain ⟨rests, unused, rfl⟩ := Engine.rests_of_sync start synced
          refine ⟨?_, time, rests, unused⟩
          have waited : wait (own.execution.timeoutSeconds.map fun n => n.toNat * 1000)
              c.seconds.toNat started { files } = (.ok (), ready, begin files c) := waited
          simp only [Bool.or_eq_true, not_or, Bool.not_eq_true] at sound
          simp [complete, given, sound, start, waited, limitOf, requestOf]
        · simp at loaded

/-- A completion that does not fail has loaded its dictionaries. -/
theorem loaded_of_complete (answered : (complete files c).status = 0) :
    ∃ settings e, loaded? files c = some (settings, e) := by
  simp only [complete] at answered
  split at answered
  · simp [Report.failure] at answered
  · rename_i settings given
    split at answered
    · simp [Report.failure] at answered
    · rename_i dictionaries
      split at answered
      · simp [Report.failure] at answered
      · rename_i tokens
        split at answered
        · simp at answered
        · rename_i deadline
          split at answered
          · simp [Report.failure] at answered
          · rename_i started start
            split at answered
            · simp [Report.failure] at answered
            · rename_i e w waited
              refine ⟨settings, e, ?_⟩
              have waited : wait (limitOf settings) c.seconds.toNat started { files } =
                (.ok (), e, w) := waited
              simp [loaded?, given, dictionaries, tokens, deadline, start, waited]

variable {s : Suggestor} {fault : Option EngineError} {caches : Caches} {later : Surroundings}

/-- A completion prints what is suggested with the values of the sources before the first that
fails. -/
theorem complete_of_refreshUntil (loaded : loaded? files c = some (settings, e))
    (selected : e.suggestorFor (requestOf c).command = some s)
    (ended : Engine.refreshUntil (host (limitOf settings)) c.directory s.dictionary.sources {}
      (begin files c) = some (fault, caches, later)) :
    complete files c =
      { output := render c.format
          (s.predict caches ((host (limitOf settings)).clock later) (requestOf c)).toList
        warning := fault.map fun cause =>
          EngineError.workerExited.message ++ ": " ++ cause.message } := by
  obtain ⟨answered, time, rests, unused⟩ := complete_eq_answer loaded
  obtain ⟨empty, quiet, -, -⟩ := unused
  rw [answered]
  rw [← empty] at ended
  have synced := Engine.sync_refreshDictionary rests ended
  have waited := (wait_begin time (limitOf settings)
    (e.refreshDictionary s.dictionary (requestOf c).directory)).trans synced
  let last : Engine :=
    ({ e with caches, nextTicket := e.nextTicket + 1 } : Engine).settled e.nextTicket fault
  have suggested (clock : Clock) :
      (last.suggest clock (requestOf c)).1 = (s.predict caches clock (requestOf c)).toList := by
    have found : last.suggestorFor (requestOf c).command = some s := by
      cases fault <;> exact selected
    have still : last.refreshOnSuggest = false := by
      cases fault <;> exact quiet
    have cached : last.caches = caches := by
      cases fault <;> rfl
    simp [Engine.suggest, found, still, cached]
  simp only [answer, selected, waited]
  cases fault with
  | none =>
      simp only [Option.isSome_none, Bool.false_eq_true, if_false, Option.map_none]
      rw [← suggested]
  | some cause =>
      simp only [Option.isSome_some, if_true, Option.map_some]
      rw [← suggested]
      rfl

/-- How a completion ends that refreshed the sources of a suggestor up to the first that failed. -/
structure EndsAtFailure (files : Files) (c : Completion) (settings : Settings) (s : Suggestor)
    (fault : Option EngineError) (caches : Caches) (later : Surroundings) : Prop where
  /-- It prints what is suggested with the values that are cached then. -/
  prints : complete files c =
    { output := render c.format
        (s.predict caches ((host (limitOf settings)).clock later) (requestOf c)).toList
      warning := fault.map fun cause =>
        EngineError.workerExited.message ++ ": " ++ cause.message }
  /-- The sources before the first that failed have the values of their commands, and nothing is
  cached for that one and those after it. -/
  cached : ∃ done rest, s.dictionary.sources = done ++ rest ∧
    Engine.Ends (host (limitOf settings)) c.directory {} (begin files c) done rest fault caches
      later ∧
    (∀ x ∈ done, x.isDynamic = true → (x.policy.scope? c.directory).isSome = true →
      Engine.Refreshed (host (limitOf settings)) c.directory caches x) ∧
    ∀ x ∈ rest, (caches.get x.cell).snapshot = {}

/-- A completion whose commands all end in time prints what is suggested with the values of the
sources before the first that fails, and with no others. -/
theorem completion_ends_at_failing_source (loaded : loaded? files c = some (settings, e))
    (selected : e.suggestorFor (requestOf c).command = some s)
    (ended : Engine.refreshUntil (host (limitOf settings)) c.directory s.dictionary.sources {}
      (begin files c) = some (fault, caches, later)) :
    EndsAtFailure files c settings s fault caches later := by
  refine ⟨complete_of_refreshUntil loaded selected ended, ?_⟩
  obtain ⟨_, _, _, _, _, _, attached⟩ := complete_eq_answer loaded
  obtain ⟨d, cell, same⟩ := attached s (List.mem_of_find?_eq_some selected)
  have distinct : (s.dictionary.sources.map (·.cell)).Nodup := by
    rw [same]
    exact Dictionary.nodup_cells_attach d cell e.context
  obtain ⟨done, rest, parts, ends, refreshed, nothing, _⟩ :=
    Engine.refreshUntil_cases distinct (fun _ _ => rfl) ended
  exact ⟨done, rest, parts, ends, refreshed, nothing⟩

end Completion

def twoSources (first second : String) : Files where
  entries := [(["tool.json"], .file (Text.Utf8.encode <|
    ["\x7b\"name\":\"tool\",\"keys\":[\"tool\"],\"platforms\":[\"all\"],\"parameters\":[",
      "\x7b\"name\":\"Tag\",\"keys\":[\"--tag\"],\"type\":\"value\",\"source\":",
      "\x7b\"name\":\"Tags\",\"kind\":\"dynamic\",\"command\":\"", first, "\"\x7d\x7d,",
      "\x7b\"name\":\"Branch\",\"keys\":[\"--branch\"],\"type\":\"value\",\"source\":",
      "\x7b\"name\":\"Branches\",\"kind\":\"dynamic\",\"command\":\"", second,
      "\"\x7d\x7d]\x7d"].flatMap String.toList))]

def completeTool (line : String) : Completion :=
  { dictionaries := ["tool.json"], line }

theorem completion_ends_at_failing_source_tag :
    ∃ settings e s cause caches later,
      loaded? (twoSources "echo v1" "exit 7") (completeTool "tool --tag ") = some (settings, e) ∧
      e.suggestorFor (requestOf (completeTool "tool --tag ")).command = some s ∧
      Engine.refreshUntil (host (limitOf settings)) none s.dictionary.sources {}
        (begin (twoSources "echo v1" "exit 7") (completeTool "tool --tag ")) =
          some (some cause, caches, later) ∧
      EndsAtFailure (twoSources "echo v1" "exit 7") (completeTool "tool --tag ") settings s
        (some cause) caches later := by
  have fails :
      ((loaded? (twoSources "echo v1" "exit 7") (completeTool "tool --tag ")).bind fun l =>
        (l.2.suggestorFor (requestOf (completeTool "tool --tag ")).command).bind fun s =>
          (Engine.refreshUntil (host (limitOf l.1)) none s.dictionary.sources {}
            (begin (twoSources "echo v1" "exit 7") (completeTool "tool --tag "))).map fun r =>
              r.1.isSome) = some true := by
    decide +kernel
  obtain ⟨⟨settings, e⟩, loaded, fails⟩ := Option.bind_eq_some_iff.mp fails
  obtain ⟨s, selected, fails⟩ := Option.bind_eq_some_iff.mp fails
  obtain ⟨⟨fault, caches, later⟩, ended, fails⟩ := Option.map_eq_some_iff.mp fails
  obtain ⟨cause, rfl⟩ := Option.isSome_iff_exists.mp fails
  exact ⟨settings, e, s, cause, caches, later, loaded, selected, ended,
    completion_ends_at_failing_source loaded selected ended⟩

/-- Where the source declared first fails, the values of the second are missing. -/
theorem later_source_not_refreshed :
    ¬ ∀ (files : Files) (c : Completion) (settings : Settings) (e : Engine) (s : Suggestor)
        (each : Caches) (later : Surroundings),
      loaded? files c = some (settings, e) →
      e.suggestorFor (requestOf c).command = some s →
      Engine.refreshEach (host (limitOf settings)) c.directory s.dictionary.sources {}
        (begin files c) = some (each, later) →
      (complete files c).output = render c.format
        (s.predict each ((host (limitOf settings)).clock later) (requestOf c)).toList := by
  intro promised
  have printed : (complete (twoSources "exit 7" "echo main") (completeTool "tool --branch ")).output
      = "" := by
    decide +kernel
  have expected :
      ((loaded? (twoSources "exit 7" "echo main") (completeTool "tool --branch ")).bind fun l =>
        (l.2.suggestorFor (requestOf (completeTool "tool --branch ")).command).bind fun s =>
          (Engine.refreshEach (host (limitOf l.1)) none s.dictionary.sources {}
            (begin (twoSources "exit 7" "echo main") (completeTool "tool --branch "))).map fun r =>
              render .text (s.predict r.1 ((host (limitOf l.1)).clock r.2)
                (requestOf (completeTool "tool --branch "))).toList) =
        some "tool --branch main\n" := by
    decide +kernel
  obtain ⟨⟨settings, e⟩, loaded, expected⟩ := Option.bind_eq_some_iff.mp expected
  obtain ⟨s, selected, expected⟩ := Option.bind_eq_some_iff.mp expected
  obtain ⟨⟨each, later⟩, ended, expected⟩ := Option.map_eq_some_iff.mp expected
  have same := promised _ _ settings e s each later loaded selected ended
  rw [printed] at same
  have different := same.trans expected
  simp at different

end Cli

end LineCompletion

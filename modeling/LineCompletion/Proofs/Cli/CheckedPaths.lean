import LineCompletion.Proofs.Engine.Reloading

/-! # Paths that a check accepts

A check of some paths and a worker that loads them look at the same files in two ways. The check
wants every dictionary in order, also those that do not apply to the platform, and the worker passes
over these. So the worker never fails at a path that was accepted, whoever asks for it and whenever,
and what it has published in the end has the names that the paths have for the platform.
-/

namespace LineCompletion

/-- A path holds dictionaries that can be read and are all in order. -/
def Files.Accepts [Codec] (files : Files) (path : String) : Prop :=
  ∃ library, Library.ofPath files path = .ok library ∧
    ∀ d ∈ library.dictionaries, d.validate = .ok ()

/-- Some of the paths has a dictionary of a name that applies to the platform. -/
def Files.Offers [Codec] (files : Files) (paths : List String) (name : String) : Prop :=
  ∃ path ∈ paths, ∃ library, Library.ofPath files path = .ok library ∧
    ∃ d ∈ library.dictionaries, d.supports Platforms.current = true ∧ d.name = name

/-! ## What the check accepts -/

namespace Cli

def Findings.look [Codec] (files : Files) (f : Findings) (path : String) : Findings :=
  match Library.ofPath files path with
  | .error e => { f with problems := e.message :: f.problems }
  | .ok library => library.dictionaries.foldl Findings.add f

theorem problems_foldl {α : Type} {step : Findings → α → Findings} {Sound : α → Prop}
    (each : ∀ f a, (step f a).problems = [] ↔ f.problems = [] ∧ Sound a) (f : Findings)
    (as : List α) : (as.foldl step f).problems = [] ↔ f.problems = [] ∧ ∀ a ∈ as, Sound a := by
  induction as generalizing f with
  | nil => simp
  | cons a rest ih => rw [List.foldl_cons, ih, each, List.forall_mem_cons, and_assoc]

theorem problems_add (f : Findings) (d : Dictionary Source) :
    (f.add d).problems = [] ↔ f.problems = [] ∧ d.validate = .ok () := by
  unfold Findings.add
  cases d.validate <;> simp

theorem problems_look [Codec] (files : Files) (f : Findings) (path : String) :
    (f.look files path).problems = [] ↔ f.problems = [] ∧ files.Accepts path := by
  unfold Findings.look Files.Accepts
  cases Library.ofPath files path with
  | error e => simp
  | ok library => simp [problems_foldl problems_add]

/-- A check does not fail exactly where it accepts every path. -/
theorem validate_accepts_iff [Codec] (files : Files) (paths : List String) :
    (validate files paths).status = 0 ↔ ∀ path ∈ paths, files.Accepts path := by
  have found : (validate files paths).status = 0 ↔
      (paths.foldl (Findings.look files) {}).problems = [] := by
    unfold validate
    show (if (paths.foldl (Findings.look files) {}).problems.isEmpty = true then
      _ else _ : Report).status = 0 ↔ _
    split
    · rename_i none
      simpa using none
    · rename_i some
      simpa [Report.failure] using some
  rw [found, problems_foldl (problems_look files)]
  simp

end Cli

/-! ## Loading accepted paths -/

theorem Files.offers_concat [Codec] {files : Files} {done : List String} {path name : String}
    {library : Library Source} (read : Library.ofPath files path = .ok library) :
    files.Offers (done ++ [path]) name ↔
      files.Offers done name ∨ name ∈ library.applicable.map (·.name) := by
  simp only [Files.Offers, List.mem_append, List.mem_singleton, or_and_right, exists_or,
    exists_eq_left, read, Except.ok.injEq]
  simp [Library.applicable, and_assoc]

namespace Engine

/-- Published dictionaries have names of their own, which are those that some paths have for the
platform. -/
structure Offering [Codec] (files : Files) (paths : List String) (suggestors : List Suggestor) :
    Prop where
  distinct : (suggestors.map (·.dictionary.name)).Nodup
  names : ∀ name, name ∈ suggestors.map (·.dictionary.name) ↔ files.Offers paths name

/-- How far a worker has come that loads paths and does not fail, with the path under way. -/
inductive Stage (e : Engine) : List String → Prop where
  | unstarted (worker : e.worker = none) (state : e.state = .stopped) : Stage e []
  | starting (worker : e.worker = some { activity := .starting }) (state : e.state = .starting) :
      Stage e []
  | waiting (worker : e.worker = some { activity := .waiting }) (state : e.state = .running) :
      Stage e []
  | holding {path : String} (worker : e.worker = some { activity := .holding (.load path) })
      (state : e.state = .running) : Stage e [path]
  | loading {path : String} (worker : e.worker = some { activity := .loading path })
      (state : e.state = .running) : Stage e [path]

/-- Of the paths that were asked for some are loaded, at most one is under way, and the others
wait. -/
structure Feeding [Codec] (files : Files) (asked : List String) (e : Engine) : Prop where
  fault : e.fault = none
  parts : ∃ done current rest, asked = done ++ current ++ rest ∧ e.queue.tasks = rest.map .load ∧
    Offering files done e.suggestors ∧ e.Stage current

variable {files : Files} {asked : List String} {e next : Engine}

theorem Stage.congr {current : List String} (stage : e.Stage current)
    (worker : next.worker = e.worker) (state : next.state = e.state) : next.Stage current := by
  cases stage with
  | unstarted doing told => exact .unstarted (worker.trans doing) (state.trans told)
  | starting doing told => exact .starting (worker.trans doing) (state.trans told)
  | waiting doing told => exact .waiting (worker.trans doing) (state.trans told)
  | holding doing told => exact .holding (worker.trans doing) (state.trans told)
  | loading doing told => exact .loading (worker.trans doing) (state.trans told)

namespace Feeding

variable [Codec]

theorem requestLoad (feeding : e.Feeding files asked) (path : String) :
    (e.requestLoad path).Feeding files (asked ++ [path]) := by
  obtain ⟨fault, done, current, rest, parts, queue, offering, stage⟩ := feeding
  refine ⟨fault, done, current, rest ++ [path], by simp [parts], ?_, offering, stage.congr rfl rfl⟩
  simp [Engine.requestLoad, enqueue, TaskQueue.push, queue]

theorem start (feeding : e.Feeding files asked) (started : e.start = .ok next) :
    next.Feeding files asked := by
  obtain ⟨fault, done, current, rest, parts, queue, offering, stage⟩ := feeding
  unfold Engine.start at started
  cases stage with
  | unstarted worker =>
      obtain rfl : _ = next := by simpa [worker] using started
      exact ⟨fault, done, [], rest, parts, queue, offering, .starting rfl rfl⟩
  | starting worker | waiting worker | holding worker | loading worker =>
      simp [worker] at started

theorem step {clock : Clock} (feeding : e.Feeding files asked)
    (stepped : e.step clock = some next) : next.Feeding files asked := by
  obtain ⟨fault, done, current, rest, parts, queue, offering, stage⟩ := feeding
  unfold Engine.step at stepped
  cases stage with
  | unstarted worker | loading worker => simp [worker] at stepped
  | starting worker =>
      obtain rfl : _ = next := by simpa [worker] using stepped
      exact ⟨fault, done, [], rest, parts, queue, offering, .waiting (by simp) rfl⟩
  | waiting worker state =>
      cases rest with
      | nil => simp [worker, TaskQueue.pop, queue] at stepped
      | cons path rest =>
          obtain rfl : _ = next := by simpa [worker, TaskQueue.pop, queue] using stepped
          exact ⟨fault, done, [path], rest, by simpa using parts, rfl, offering,
            .holding (by simp) state⟩
  | @holding path worker state =>
      obtain rfl : _ = next := by simpa [worker, begin] using stepped
      exact ⟨fault, done, [path], rest, parts, queue, offering, .loading (by simp [worker]) state⟩

/-- A path that is accepted is loaded, and all its names for the platform are published. -/
theorem loaded {path : String} (feeding : e.Feeding files asked)
    (accepts : ∀ path ∈ asked, files.Accepts path) (loads : e.loadingPath? = some path) :
    (e.loaded (Library.ofPath files path)).Feeding files asked ∧
      (e.loaded (Library.ofPath files path)).activity? = some .waiting ∧
      (e.loaded (Library.ofPath files path)).queue = e.queue := by
  obtain ⟨fault, done, current, rest, parts, queue, offering, stage⟩ := feeding
  simp only [loadingPath?, activity?] at loads
  cases stage with
  | unstarted worker | starting worker | waiting worker | holding worker =>
      simp [worker] at loads
  | @loading own worker state =>
      obtain rfl : own = path := by simpa [worker] using loads
      obtain ⟨library, read, valid⟩ := accepts own (by simp [parts])
      obtain ⟨suggestors, cell, prepared, -⟩ :=
        prepare_valid e.context e.options e.nextCell fun d stored _ => valid d stored
      have serves := names_of_serves (serves_of_prepare prepared)
      simp only [Engine.loaded, read, prepared]
      refine ⟨⟨fault, done ++ [own], [], rest, by simpa using parts, queue, ⟨?_, fun name => ?_⟩,
        .waiting (by simp [worker, publish]) state⟩, by simp [activity?, worker, publish], rfl⟩
      · refine nodup_publish offering.distinct ?_
        rw [serves]
        exact List.Nodup.sublist (List.filter_sublist.map _) (Library.distinct_ofPath read)
      · rw [Files.offers_concat read, ← offering.names, Library.applicable, ← serves]
        exact mem_names_publish { e with nextCell := cell } suggestors name

end Feeding

/-! ## A worker that nobody interrupts -/

/-- The steps of a worker until it waits with an empty queue, where it loads paths only: it takes
each, begins it and goes on with the files. -/
def stepsLeft (e : Engine) : Nat :=
  3 * e.queue.size + match e.activity? with
    | some .starting | some (.loading _) => 1
    | some (.holding _) => 2
    | _ => 0

variable [Codec] {ω : Type} {host : Host ω} {w : ω}

/-- A worker that loads accepted paths waits with an empty queue, or takes one of its steps. -/
theorem Feeding.turn (feeding : e.Feeding files asked)
    (accepts : ∀ path ∈ asked, files.Accepts path)
    (reads : ∀ path ∈ asked, host.load w path = Library.ofPath files path)
    (present : e.worker.isSome = true) :
    (e.activity? = some .waiting ∧ e.queue.tasks = [] ∧ e.turn host w = (none, w)) ∨
      ∃ next, e.turn host w = (some next, w) ∧ next.Feeding files asked ∧
        next.worker.isSome = true ∧ next.stepsLeft + 1 = e.stepsLeft := by
  have goesOn (next : Engine) (step : e.step (host.clock w) = some next)
      (turned : e.turn host w = (e.step (host.clock w), w)) (there : next.worker.isSome = true)
      (less : next.stepsLeft + 1 = e.stepsLeft) :
      ∃ next, e.turn host w = (some next, w) ∧ next.Feeding files asked ∧
        next.worker.isSome = true ∧ next.stepsLeft + 1 = e.stepsLeft :=
    ⟨next, step ▸ turned, feeding.step step, there, less⟩
  obtain ⟨done, current, rest, parts, queue, -, stage⟩ := feeding.parts
  cases stage with
  | unstarted worker => simp [worker] at present
  | starting worker =>
      refine .inr (goesOn ({ e with state := .running }.become .waiting) ?_ ?_ ?_ ?_)
      · simp [Engine.step, worker]
      · simp [Engine.turn, worker]
      · simp [worker]
      · simp [stepsLeft, activity?, worker]
  | waiting worker =>
      cases rest with
      | nil =>
          refine .inl ⟨by simp [activity?, worker], queue, ?_⟩
          simp [Engine.turn, Engine.step, worker, TaskQueue.pop, queue]
      | cons path rest =>
          let taken : Engine := { e with queue := ⟨rest.map .load⟩ }
          refine .inr (goesOn (taken.become (.holding (.load path))) ?_ ?_ ?_ ?_)
          · simp [Engine.step, worker, TaskQueue.pop, queue, taken]
          · simp [Engine.turn, worker]
          · simp [worker, taken]
          · have before : e.stepsLeft = 3 * (rest.length + 1) := by
              simp [stepsLeft, activity?, worker, TaskQueue.size, queue]
            have after : (taken.become (.holding (.load path))).stepsLeft =
                3 * rest.length + 2 := by
              simp [stepsLeft, activity?, worker, TaskQueue.size, taken]
            omega
  | @holding path worker =>
      refine .inr (goesOn (e.become (.loading path)) ?_ ?_ ?_ ?_)
      · simp [Engine.step, worker, begin]
      · simp [Engine.turn, worker]
      · simp [worker]
      · simp [stepsLeft, activity?, worker]
  | @loading path worker =>
      have doing : e.activity? = some (.loading path) := by simp [activity?, worker]
      have loads : e.loadingPath? = some path := by simp [loadingPath?, doing]
      obtain ⟨loaded, waits, queue⟩ := feeding.loaded accepts loads
      obtain ⟨stop, there⟩ := worker_of_activity? waits
      refine .inr ⟨_, ?_, loaded, by simp [there], ?_⟩
      · simp [Engine.turn, worker, reads path (by simp [parts])]
      · simp only [stepsLeft, waits, queue, doing]

theorem Feeding.settleFor {fuel : Nat} (feeding : e.Feeding files asked)
    (accepts : ∀ path ∈ asked, files.Accepts path)
    (reads : ∀ path ∈ asked, host.load w path = Library.ofPath files path)
    (present : e.worker.isSome = true) (enough : e.stepsLeft ≤ fuel) :
    let last := (settleFor host fuel e w).1
    last.Feeding files asked ∧ last.activity? = some .waiting ∧ last.queue.tasks = [] := by
  induction fuel generalizing e with
  | zero =>
      obtain ⟨waits, empty, -⟩ | ⟨next, -, -, -, less⟩ := feeding.turn accepts reads present
      · exact ⟨feeding, waits, empty⟩
      · omega
  | succ fuel ih =>
      obtain ⟨waits, empty, turned⟩ | ⟨next, turned, later, there, less⟩ :=
        feeding.turn accepts reads present
      · simp only [Engine.settleFor, turned]
        exact ⟨feeding, waits, empty⟩
      · simp only [Engine.settleFor, turned]
        exact ih later there (by omega)

theorem Feeding.stepsLeft_le (feeding : e.Feeding files asked) : e.stepsLeft ≤ e.effort := by
  obtain ⟨done, current, rest, parts, queue, -, -⟩ := feeding.parts
  have total (k : Nat) : (rest.map Task.load).foldl (fun n t => n + taskEffort t) k =
      k + 6 * rest.length := by
    clear parts queue
    induction rest generalizing k with
    | nil => rfl
    | cons path rest ih =>
        rw [List.map_cons, List.foldl_cons, ih, taskEffort, List.length_cons]
        omega
  have few : e.stepsLeft ≤ 3 * rest.length + 2 := by
    simp only [stepsLeft, TaskQueue.size, queue, List.length_map]
    split <;> omega
  rw [effort, queue, total]
  omega

/-- A worker has loaded some paths and waits: it is healthy, and what it published has the names of
these paths. -/
structure HasLoaded (files : Files) (paths : List String) (e : Engine) : Prop where
  healthy : e.isHealthy = true
  fault : e.fault = none
  waits : e.activity? = some .waiting
  empty : e.queue.isEmpty = true
  offering : Offering files paths e.suggestors

theorem Feeding.hasLoaded (feeding : e.Feeding files asked) (waits : e.activity? = some .waiting)
    (empty : e.queue.tasks = []) : e.HasLoaded files asked := by
  obtain ⟨fault, done, current, rest, rfl, queue, offering, stage⟩ := feeding
  obtain rfl : rest = [] := by simpa [empty] using queue
  simp only [activity?] at waits
  cases stage with
  | unstarted worker | starting worker | holding worker | loading worker => simp [worker] at waits
  | waiting worker state =>
      refine ⟨?_, fault, waits, ?_, by simpa using offering⟩
      · simp only [isHealthy, worker, health, Health.isHealthy, state]
        rfl
      · simp [TaskQueue.isEmpty, empty]

theorem Feeding.not_faulted (feeding : e.Feeding files asked) : e.state ≠ .faulted := by
  obtain ⟨done, current, rest, -, -, -, stage⟩ := feeding.parts
  cases stage with
  | unstarted _ state | starting _ state | waiting _ state | holding _ state | loading _ state =>
      simp [state]

end Engine

namespace Session

open Engine

/-- Callers ask for some of the paths and start a worker, it goes on, and what is read for it is
what the files hold. -/
inductive Feeds [Codec] (files : Files) (paths : List String) (s : Session) : Move → Prop where
  | asks {path : String} (own : path ∈ paths) : Feeds files paths s (.requestLoad path)
  | starts : Feeds files paths s .start
  | works (clock : Clock) : Feeds files paths s (.work clock)
  | reads {path : String} (loads : s.engine.loadingPath? = some path) :
      Feeds files paths s (.filesRead (Library.ofPath files path))

/-- All of some moves are of this kind. -/
inductive Fed [Codec] (files : Files) (paths : List String) : Session → List Move → Prop where
  | nil (s : Session) : Fed files paths s []
  | cons {s : Session} {m : Move} {moves : List Move} (feeds : Feeds files paths s m)
      (later : Fed files paths (s.act m) moves) : Fed files paths s (m :: moves)

def asks : Move → List String
  | .requestLoad path => [path]
  | _ => []

/-- The paths that callers ask for with some moves. -/
def asked (moves : List Move) : List String :=
  moves.flatMap asks

section Run

variable [Codec] {files : Files} {paths earlier : List String} {s : Session} {m : Move}
  {moves : List Move}

theorem feeding_act (feeding : s.engine.Feeding files earlier)
    (accepts : ∀ path ∈ earlier, files.Accepts path) (feeds : Feeds files paths s m) :
    (s.act m).engine.Feeding files (earlier ++ asks m) := by
  cases feeds with
  | @asks path own => exact feeding.requestLoad path
  | starts =>
      simp only [asks, List.append_nil, act]
      cases started : s.engine.start with
      | error cause => exact feeding
      | ok e => exact feeding.start started
  | works clock =>
      simp only [asks, List.append_nil, act]
      cases stepped : s.engine.step clock with
      | none => exact feeding
      | some e => exact feeding.step stepped
  | @reads path loads =>
      simp only [asks, List.append_nil]
      obtain ⟨other, -⟩ | ⟨own, -, read⟩ := filesRead_cases s (Library.ofPath files path)
      · exact absurd (activity?_of_loadingPath? loads) (other path)
      · rw [read]
        exact (feeding.loaded accepts loads).1

theorem asked_within (fed : Fed files paths s moves) : ∀ path ∈ asked moves, path ∈ paths := by
  induction fed with
  | nil => simp [asked]
  | cons feeds _ ih =>
      intro path member
      rw [asked, List.flatMap_cons] at member
      rcases List.mem_append.mp member with now | later
      · cases feeds with
        | asks own =>
            obtain rfl := List.mem_singleton.mp now
            exact own
        | starts | works | reads => simp [asks] at now
      · exact ih path later

theorem feeding_run (feeding : s.engine.Feeding files earlier)
    (within : ∀ path ∈ earlier, path ∈ paths) (accepts : ∀ path ∈ paths, files.Accepts path)
    (fed : Fed files paths s moves) :
    (s.run moves).engine.Feeding files (earlier ++ asked moves) := by
  induction fed generalizing earlier with
  | nil => simpa [asked] using feeding
  | @cons s m moves feeds later ih =>
      have next := feeding_act feeding (fun path member => accepts path (within path member)) feeds
      rw [run_cons, asked, List.flatMap_cons, ← List.append_assoc]
      refine ih next fun path member => ?_
      rcases List.mem_append.mp member with before | now
      · exact within path before
      · exact asked_within (.cons feeds (.nil _)) path (by simpa [asked] using now)

/-- The paths that a check accepts never make the worker fail, in whatever order callers ask for
them and the worker goes on. Once it is started and nobody interrupts it, it loads all of them, and
what is published then has the names that these paths have for the platform. -/
theorem accepted_paths_load (accepted : (Cli.validate files paths).status = 0)
    (options : SuggestOptions) (context : ContextId)
    (fed : Fed files paths (fresh options context) moves) {ω : Type} {host : Host ω} {w : ω}
    (reads : ∀ path ∈ paths, host.load w path = Library.ofPath files path) :
    let e := ((fresh options context).run moves).engine
    (e.fault = none ∧ e.state ≠ .faulted) ∧
      (e.worker.isSome = true → (e.settle host w).1.HasLoaded files (asked moves)) := by
  have accepts := (Cli.validate_accepts_iff files paths).mp accepted
  have start : (fresh options context).engine.Feeding files [] :=
    ⟨rfl, [], [], [], rfl, rfl, ⟨List.nodup_nil, by simp [fresh, Files.Offers]⟩, .unstarted rfl rfl⟩
  have feeding := feeding_run start (by simp) accepts fed
  rw [List.nil_append] at feeding
  have within := asked_within fed
  refine ⟨⟨feeding.fault, feeding.not_faulted⟩, fun present => ?_⟩
  obtain ⟨last, waits, empty⟩ := feeding.settleFor (fun path own => accepts path (within path own))
    (fun path own => reads path (within path own)) present feeding.stepsLeft_le
  exact last.hasLoaded waits empty

end Run

/-- Two files, one of them given twice. -/
def shortFormPaths : List String :=
  ["commands/b.json", "commands/a.json", "commands/b.json"]

def askForShortForms : List Move :=
  [.requestLoad "commands/b.json", .start, .work fun _ => 0, .requestLoad "commands/a.json",
    .work fun _ => 0, .requestLoad "commands/b.json"]

theorem accepted_paths_load_shortForms :
    (Cli.validate Files.shortForms shortFormPaths).status = 0 ∧
      Fed Files.shortForms shortFormPaths (fresh {} 0) askForShortForms ∧
      (∀ path ∈ shortFormPaths, (Cli.host none).load { files := Files.shortForms } path =
        Library.ofPath Files.shortForms path) ∧
      let e := ((fresh {} 0).run askForShortForms).engine
      (e.fault = none ∧ e.state ≠ .faulted) ∧ e.worker.isSome = true ∧
        (e.settle (Cli.host none) { files := Files.shortForms }).1.HasLoaded Files.shortForms
          (asked askForShortForms) := by
  have accepted : (Cli.validate Files.shortForms shortFormPaths).status = 0 := by decide +kernel
  have fed : Fed Files.shortForms shortFormPaths (fresh {} 0) askForShortForms :=
    .cons (.asks (by decide)) <| .cons .starts <| .cons (.works _) <| .cons (.asks (by decide)) <|
      .cons (.works _) <| .cons (.asks (by decide)) <| .nil _
  have reads : ∀ path ∈ shortFormPaths, (Cli.host none).load { files := Files.shortForms } path =
      Library.ofPath Files.shortForms path := fun _ _ => rfl
  obtain ⟨safe, loads⟩ := accepted_paths_load accepted {} 0 fed reads
  exact ⟨accepted, fed, reads, safe, rfl, loads rfl⟩

end Session

end LineCompletion

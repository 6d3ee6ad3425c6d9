import LineCompletion.Engine.Queue
import LineCompletion.Library.Load
import LineCompletion.Source.Refresh
import LineCompletion.Suggest.Predictions

/-!
# The engine

Callers put tasks into a queue; one worker does them in order and stops for good at the first that
fails, leaving the others queued. Loaded dictionaries are published as a whole, and suggestions read
what is published and cached without waiting for the worker. The worker goes by small steps, so that
callers may act between any two of them.
-/

namespace LineCompletion

inductive EngineError where
  | alreadyStarted
  | notStarted
  | configuration (e : ConfigurationError)
  | load (e : LoadError)
  | source (e : SourceError)
  | panicked (message : String)
  | syncTimeout
  | workerExited
  deriving Repr, DecidableEq, BEq, Inhabited

def EngineError.message : EngineError → String
  | .alreadyStarted => "execution engine is already started"
  | .notStarted => "execution engine is not started"
  | .configuration e => "invalid dictionary: " ++ e.message
  | .load e => e.message
  | .source e => "value source refresh failed: " ++ e.message
  | .panicked message => "worker panicked: " ++ message
  | .syncTimeout => "timed out waiting for queued commands"
  | .workerExited => "worker exited before processing queued commands"

/-- What the worker is asked to do. -/
inductive Task where
  | load (path : String)
  | refreshSource (source : LiveSource) (directory : Option String) (suggested : Bool)
  | refreshDictionary (dictionary : Dictionary LiveSource) (directory : Option String)
  | barrier (ticket : Nat)
  deriving Repr, Inhabited

inductive WorkerState where
  /-- There is no worker, or it was stopped. -/
  | stopped
  /-- It does not do tasks yet. -/
  | starting
  /-- It does tasks. -/
  | running
  /-- A task failed and it is gone. -/
  | faulted
  deriving Repr, DecidableEq, BEq, Inhabited

def WorkerState.name : WorkerState → String
  | .stopped => "Stopped"
  | .starting => "Starting"
  | .running => "Running"
  | .faulted => "Faulted"

/-- What the worker is doing. -/
inductive Activity where
  /-- It has not begun. -/
  | starting
  /-- It asks for a task. -/
  | waiting
  /-- It has taken a task and not begun it. -/
  | holding (task : Task)
  /-- It waits for the files of a path. -/
  | loading (path : String)
  /-- It looks at sources for a working directory, one after the other. -/
  | checking (sources : List LiveSource) (directory : Option String)
  /-- It waits for a command, after which it looks at more sources. -/
  | refreshing (refresh : Refresh) (rest : List LiveSource)
  /-- Its task has failed. -/
  | failing (e : EngineError)
  /-- It has told why its task failed. -/
  | failed
  /-- It is gone. -/
  | finished
  deriving Repr, Inhabited

structure Worker where
  stop : Bool := false
  activity : Activity := .starting
  deriving Repr, Inhabited

/-- The engine and all that it shares with its worker. -/
structure Engine where
  /-- The tasks that wait. -/
  queue : TaskQueue Task := {}
  /-- The worker, until it is stopped. -/
  worker : Option Worker := none
  /-- The reported state of the worker. -/
  state : WorkerState := .stopped
  /-- Why a task failed last. -/
  fault : Option EngineError := none
  /-- The published dictionaries in order. -/
  suggestors : List Suggestor := []
  /-- The tickets of the barriers that were reached. -/
  reached : List Nat := []
  /-- The next ticket. -/
  nextTicket : Nat := 0
  /-- All caches. -/
  caches : Caches := {}
  /-- The number of the next cache. -/
  nextCell : CellId := 0
  /-- The options of suggestions. -/
  options : SuggestOptions := {}
  /-- The context that all sources are bound to. -/
  context : ContextId := 0
  /-- Whether a suggestion asks for the refreshes that are due. -/
  refreshOnSuggest : Bool := true
  deriving Inhabited

/-- What the engine reports of itself. -/
structure Health where
  state : WorkerState
  fault : Option EngineError
  queued : Nat
  dictionaries : Nat
  deriving Repr, Inhabited

def Health.isHealthy (h : Health) : Bool :=
  h.state == .starting || h.state == .running

namespace Engine

def enqueue (e : Engine) (t : Task) : Engine :=
  { e with queue := e.queue.push t }

def requestLoad (e : Engine) (path : String) : Engine :=
  e.enqueue (.load path)

def refreshSource (e : Engine) (s : LiveSource) (directory : Option String) : Engine :=
  e.enqueue (.refreshSource s directory false)

def refreshDictionary (e : Engine) (d : Dictionary LiveSource) (directory : Option String) :
    Engine :=
  e.enqueue (.refreshDictionary d directory)

def ofSettings (options : SuggestOptions) (refreshOnSuggest : Bool) (paths : List String) :
    Engine :=
  paths.foldl requestLoad { options, refreshOnSuggest }

def start (e : Engine) : Except EngineError Engine :=
  match e.worker with
  | some _ => .error .alreadyStarted
  | none => .ok { e with worker := some {}, state := .starting }

def requestStop (e : Engine) : Except EngineError Engine :=
  match e.worker with
  | none => .error .notStarted
  | some w => .ok { e with worker := some { w with stop := true } }

def workerFinished (e : Engine) : Bool :=
  match e.worker with
  | some { activity := .finished, .. } => true
  | _ => false

def dismiss (e : Engine) : Engine :=
  { e with worker := none, state := .stopped }

def health (e : Engine) : Health :=
  { state := e.state, fault := e.fault, queued := e.queue.size
    dictionaries := e.suggestors.length }

def isHealthy (e : Engine) : Bool :=
  e.worker.isSome && e.health.isHealthy

def display (e : Engine) : String :=
  "ExecutionEngine \x7b state: " ++ e.state.name ++ ", queued: " ++ toString e.queue.size
    ++ ", refresh_on_suggest: " ++ (if e.refreshOnSuggest then "true" else "false") ++ " \x7d"

/-! ## Suggestions -/

/-- The published dictionary that handles a command word. -/
def suggestorFor (e : Engine) (command : String) : Option Suggestor :=
  e.suggestors.find? fun s => s.handles command

/-- Asks for the refresh of a source that is due, unless one is queued already. -/
def schedule (clock : Clock) (directory : Option String) (e : Engine) (s : LiveSource) : Engine :=
  if s.needsRefresh e.caches clock directory then
    let marked := (e.caches.get s.cell).mark
    let e := { e with caches := e.caches.set s.cell marked.2 }
    if marked.1 then e.enqueue (.refreshSource s directory true) else e
  else e

/-- The suggestions for a request, and the engine after the refreshes they ask for. -/
def suggest (e : Engine) (clock : Clock) (request : Request) : List Suggestion × Engine :=
  match e.suggestorFor request.command with
  | none => ([], e)
  | some s =>
    let e :=
      if e.refreshOnSuggest then
        s.dictionary.sources.foldl (schedule clock request.directory) e
      else e
    ((s.predict e.caches clock request).toList, e)

/-! ## The worker -/

def become (e : Engine) (a : Activity) : Engine :=
  { e with worker := e.worker.map fun w => { w with activity := a } }

/-- Publishes dictionaries: those of the same names are replaced, and the new ones come last. -/
def publish (e : Engine) (loaded : List Suggestor) : Engine :=
  let kept := e.suggestors.filter fun s =>
    !loaded.any fun l => l.dictionary.name == s.dictionary.name
  { e with suggestors := kept ++ loaded }

/-- Gets dictionaries ready that support the current platform, up to the first that breaks a
rule. -/
def prepare (context : ContextId) (options : SuggestOptions) (next : CellId) :
    List (Dictionary Source) → Except ConfigurationError (List Suggestor × CellId)
  | [] => .ok ([], next)
  | d :: rest =>
    if !d.supports Platforms.current then prepare context options next rest
    else
      let attached := d.attach next
      match attached.1.bindTo (some context) with
      | .error e => .error e
      | .ok dictionary =>
        match prepare context options attached.2 rest with
        | .error e => .error e
        | .ok (suggestors, next) => .ok ({ dictionary, options } :: suggestors, next)

/-- Begins to refresh a source, whose queued mark is removed first. -/
def beginRefresh (e : Engine) (s : LiveSource) (directory : Option String)
    (rest : List LiveSource) : Engine :=
  let e := { e with caches := e.caches.modify s.cell Cache.unmark }
  match s.startRefresh e.caches directory with
  | .done => e.become (.checking rest directory)
  | .failed cause => e.become (.failing (.source cause))
  | .running refresh => e.become (.refreshing refresh rest)

def begin (e : Engine) : Task → Engine
  | .load path => e.become (.loading path)
  | .refreshSource source directory _ => e.beginRefresh source directory []
  | .refreshDictionary dictionary directory =>
    e.become (.checking dictionary.sources directory)
  | .barrier ticket => { e with reached := ticket :: e.reached }.become .waiting

/-- A step of the worker that needs nothing from outside; none if it waits or there is none. -/
def step (clock : Clock) (e : Engine) : Option Engine :=
  match e.worker with
  | none => none
  | some w =>
    match w.activity with
    | .starting => some ({ e with state := .running }.become .waiting)
    | .waiting =>
      match e.queue.pop w.stop with
      | (.stopped, _) => some ({ e with state := .stopped }.become .finished)
      | (.task t, queue) => some ({ e with queue }.become (.holding t))
      | (.waits, _) => none
    | .holding t => some (e.begin t)
    | .checking [] _ => some (e.become .waiting)
    | .checking (s :: rest) directory =>
      if s.needsRefresh e.caches clock directory then some (e.beginRefresh s directory rest)
      else some (e.become (.checking rest directory))
    | .failing cause => some ({ e with fault := some cause }.become .failed)
    | .failed => some ({ e with state := .faulted }.become .finished)
    | .loading _ | .refreshing .. | .finished => none

def loaded (e : Engine) (result : Except LoadError (Library Source)) : Engine :=
  match result with
  | .error cause => e.become (.failing (.load cause))
  | .ok library =>
    match prepare e.context e.options e.nextCell library.dictionaries with
    | .error cause => e.become (.failing (.configuration cause))
    | .ok (suggestors, nextCell) => ({ e with nextCell }.publish suggestors).become .waiting

/-- Goes on after the command of a refresh has ended. -/
def ran (e : Engine) (refresh : Refresh) (rest : List LiveSource) (now : Moment)
    (outcome : Outcome) : Engine :=
  match outcome with
  | .items items =>
    { e with caches := refresh.publish e.caches items now }.become
      (.checking rest refresh.directory)
  | .failed message => e.become (.failing (.source (.failed refresh.command message)))
  | .panicked payload => e.become (.failing (.panicked payload.message))

/-! ## Waiting for the worker -/

/-- Puts a barrier into the queue; the first answer is its ticket. -/
def putBarrier (e : Engine) : Except EngineError (Nat × Engine) :=
  match e.worker with
  | none => .error .notStarted
  | some _ =>
    .ok (e.nextTicket, { e.enqueue (.barrier e.nextTicket) with nextTicket := e.nextTicket + 1 })

def hasReached (e : Engine) (ticket : Nat) : Bool :=
  e.reached.contains ticket

end Engine

/-- What a caller does who waits for a barrier. -/
inductive Waiting where
  /-- The caller looks whether the barrier is reached. -/
  | polling
  /-- The caller looks whether the worker is gone. -/
  | checking
  /-- The caller has an answer. -/
  | answered (result : Except EngineError Unit)

namespace Waiting

def poll (e : Engine) (ticket : Nat) : Waiting :=
  if e.hasReached ticket then .answered (.ok ()) else .checking

/-- Looks whether the worker is gone, and whether the time is up. -/
def check (e : Engine) (timeUp : Bool) : Waiting :=
  if e.workerFinished then .answered (.error .workerExited)
  else if timeUp then .answered (.error .syncTimeout)
  else .polling

end Waiting

end LineCompletion

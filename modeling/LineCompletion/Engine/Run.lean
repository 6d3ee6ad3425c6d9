import LineCompletion.Engine.Basic

/-!
# Running the engine

The worker with what it asks of its surroundings: the time, the files and the commands. It is run
until it waits for a task or a command, or is gone.
-/

namespace LineCompletion

/-- What the worker asks of its surroundings. -/
structure Host (ω : Type) where
  /-- The time. -/
  clock : ω → Clock
  /-- The dictionaries of a path. -/
  load : ω → String → Except LoadError (Library Source)
  /-- The end of a command, if it has ended. -/
  run : ω → ContextId → String → Option String → Option Outcome × ω

namespace Engine

variable {ω : Type}

/-- One step of the worker with what it asks for; none if it waits, with the surroundings after
what it asked. -/
def turn (host : Host ω) (e : Engine) (w : ω) : Option Engine × ω :=
  match e.worker with
  | none => (none, w)
  | some worker =>
    match worker.activity with
    | .loading path => (some (e.loaded (host.load w path)), w)
    | .refreshing refresh rest =>
      match host.run w refresh.context refresh.command refresh.directory with
      | (none, w) => (none, w)
      | (some outcome, w) => (some (e.ran refresh rest (host.clock w refresh.context) outcome), w)
    | _ => (e.step (host.clock w), w)

/-- Runs the worker for at most so many steps. -/
def settleFor (host : Host ω) : Nat → Engine → ω → Engine × ω
  | 0, e, w => (e, w)
  | fuel + 1, e, w =>
    match e.turn host w with
    | (none, w) => (e, w)
    | (some next, w) => settleFor host fuel next w

/-- A bound on the steps that a task takes. -/
def taskEffort : Task → Nat
  | .load _ => 6
  | .refreshSource .. => 8
  | .refreshDictionary d _ => 3 * d.sources.length + 8
  | .barrier _ => 4

/-- A bound on the steps until the worker waits for a task. -/
def effort (e : Engine) : Nat :=
  let current := match e.worker with
    | some { activity := .holding t, .. } => taskEffort t
    | some { activity := .checking sources _, .. } => 3 * sources.length
    | some { activity := .refreshing _ rest, .. } => 3 * rest.length
    | _ => 0
  e.queue.tasks.foldl (fun n t => n + taskEffort t) (current + 16)

/-- Runs the worker until it waits or is gone. -/
def settle (host : Host ω) (e : Engine) (w : ω) : Engine × ω :=
  settleFor host e.effort e w

/-- Waits until the worker has done all tasks queued so far. A command that does not end uses up
the time. -/
def sync (host : Host ω) (e : Engine) (w : ω) : Except EngineError Unit × Engine × ω :=
  match e.putBarrier with
  | .error cause => (.error cause, e, w)
  | .ok (ticket, e) =>
    let (e, w) := settle host e w
    let result := match Waiting.poll e ticket with
      | .answered result => result
      | _ =>
        match Waiting.check e true with
        | .answered result => result
        | _ => .error .syncTimeout
    (result, e, w)

def stop (host : Host ω) (e : Engine) (w : ω) : Except EngineError Unit × Engine × ω :=
  match e.requestStop with
  | .error cause => (.error cause, e, w)
  | .ok e =>
    let (e, w) := settle host e w
    (.ok (), e.dismiss, w)

end Engine

end LineCompletion

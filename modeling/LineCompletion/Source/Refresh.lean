import LineCompletion.Source.Live

/-!
# Refreshing a source

A refresh begins by noting the generation of the cache, waits for the command of the source, and
ends by publishing the values unless the cache has changed meanwhile.
-/

namespace LineCompletion

inductive SourceError where
  | notBound (source : String)
  | failed (command message : String)
  deriving Repr, DecidableEq, BEq, Inhabited

def SourceError.message : SourceError → String
  | .notBound source => "value source `" ++ source ++ "` is not bound to an execution context"
  | .failed command message => "command `" ++ command ++ "` failed: " ++ message

/-- What a breakdown leaves behind. -/
inductive Payload where
  /-- A text that stands in the program. -/
  | literal (text : String)
  /-- A text that was made on the way. -/
  | made (text : String)
  | other
  deriving Repr, DecidableEq, BEq, Inhabited

/-- What is told of a breakdown; only a text can be told. -/
def Payload.message : Payload → String
  | .literal text => text
  | .made text => text
  | .other => "unknown panic payload"

instance : Coe String Payload := ⟨.made⟩

instance : Coe Payload String := ⟨Payload.message⟩

/-- How the command of a source ends. -/
inductive Outcome where
  /-- It gives values. -/
  | items (items : List Item)
  /-- It fails. -/
  | failed (message : String)
  /-- What runs it breaks down, or cannot tell the time of its end. -/
  | panicked (payload : Payload)
  deriving Repr, DecidableEq, BEq, Inhabited

/-- A refresh whose command is running. -/
structure Refresh where
  /-- The cache to publish in. -/
  cell : CellId
  /-- The context that runs the command. -/
  context : ContextId
  /-- The command. -/
  command : String
  /-- The directory it runs in. -/
  directory : Option String
  /-- The scope of its values. -/
  scope : Scope
  /-- The generation of the cache when the refresh began. -/
  generation : Nat
  deriving Repr, DecidableEq, BEq, Inhabited

inductive RefreshStart where
  | done
  | failed (e : SourceError)
  | running (r : Refresh)
  deriving Repr, DecidableEq, BEq, Inhabited

/-- Begins a refresh for a working directory. A source that lists its values needs none, and one
whose values belong to directories needs a directory. -/
def LiveSource.startRefresh (s : LiveSource) (caches : Caches) (directory : Option String) :
    RefreshStart :=
  match s.provider with
  | .fixed _ => .done
  | .dynamic command =>
    match s.context with
    | none => .failed (.notBound s.name)
    | some context =>
      match s.policy.scope? directory with
      | none => .done
      | some scope =>
        .running { cell := s.cell, context, command, directory, scope,
                   generation := (caches.get s.cell).generation }

/-- Publishes the values of a refresh at a time, unless the cache has changed since it began. -/
def Refresh.publish (r : Refresh) (caches : Caches) (items : List Item) (now : Moment) : Caches :=
  caches.modify r.cell fun c => (c.publish r.generation r.scope items now).2

end LineCompletion

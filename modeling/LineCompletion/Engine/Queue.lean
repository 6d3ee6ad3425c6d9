/-!
# Task queues

Tasks in the order in which they were put in, taken out by one worker that can be told to stop.
-/

namespace LineCompletion

/-- Tasks that wait. -/
structure TaskQueue (α : Type) where
  tasks : List α := []
  deriving Repr, DecidableEq, BEq, Inhabited

/-- What a worker gets that asks for a task. -/
inductive Popped (α : Type) where
  | stopped
  | task (a : α)
  | waits
  deriving Repr, DecidableEq, BEq, Inhabited

namespace TaskQueue

variable {α : Type}

def push (q : TaskQueue α) (a : α) : TaskQueue α :=
  { tasks := q.tasks ++ [a] }

def size (q : TaskQueue α) : Nat :=
  q.tasks.length

def isEmpty (q : TaskQueue α) : Bool :=
  q.tasks.isEmpty

/-- Asks for a task. A worker told to stop gets none even where some wait. -/
def pop (q : TaskQueue α) (stop : Bool) : Popped α × TaskQueue α :=
  if stop then (.stopped, q)
  else match q.tasks with
    | [] => (.waits, q)
    | a :: rest => (.task a, { tasks := rest })

end TaskQueue

end LineCompletion

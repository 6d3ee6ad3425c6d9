import LineCompletion.Shell.Octets

/-!
# Scripts

The commands of the shell as trees. What stands inside a substitution keeps its text and is read
when the substitution is made.
-/

namespace LineCompletion.Shell

inductive ParameterRule where
  | value
  | size
  | orElse (orEmpty : Bool) (text : Octets)
  | orSet (orEmpty : Bool) (text : Octets)
  | orFail (orEmpty : Bool) (text : Octets)
  | andThen (orEmpty : Bool) (text : Octets)
  | dropStart (longest : Bool) (pattern : Octets)
  | dropEnd (longest : Bool) (pattern : Octets)
  deriving Repr, DecidableEq, BEq, Inhabited

/-- A part of a word; a quoted part is neither split nor matched with file names. -/
inductive Segment where
  | text (octets : Octets) (quoted : Bool)
  | parameter (name : Octets) (rule : ParameterRule) (quoted : Bool)
  | command (script : Octets) (quoted : Bool)
  | arithmetic (expression : Octets) (quoted : Bool)
  deriving Repr, DecidableEq, BEq, Inhabited

abbrev Word := List Segment

inductive RedirectionKind where
  | read
  | write
  | append
  | copy
  | document
  deriving Repr, DecidableEq, BEq, Inhabited

structure Redirection where
  descriptor : Nat
  kind : RedirectionKind
  target : Word
  deriving Repr, DecidableEq, BEq, Inhabited

/-- A command. -/
inductive Command where
  | simple (line : Nat) (assignments : List (Octets × Word)) (words : List Word)
      (redirections : List Redirection)
  | sequence (first second : Command)
  | both (first second : Command)
  | either (first second : Command)
  | negated (command : Command)
  | background (command : Command)
  | pipe (first second : Command)
  | subshell (body : Command)
  | redirected (body : Command) (redirections : List Redirection)
  | branch (test yes no : Command)
  | loop (untilSuccess : Bool) (test body : Command)
  | each (name : Octets) (words : Option (List Word)) (body : Command)
  | choice (subject : Word) (arms : List (List Word × Command))
  | define (name : Octets) (body : Command)
  | nothing
  deriving Repr, Inhabited

end LineCompletion.Shell

import LineCompletion.Line.Quote
import LineCompletion.Text.Character

/-!
# Matching typed text

The text under the cursor and how it is compared with a candidate. Both ways compare lowercase
forms.
-/

namespace LineCompletion

structure Typed where
  text : String := ""
  quote : Quote := .bare
  flagsOnly : Bool := false
  deriving Repr, DecidableEq, BEq, Inhabited

/-- Where in a candidate the typed text must stand. -/
inductive MatchMode where
  | leading
  | anywhere
  deriving Repr, DecidableEq, BEq, Inhabited

namespace MatchMode

def name : MatchMode → String
  | .leading => "prefix"
  | .anywhere => "contains"

/-- The modes in the order in which documents name them. -/
def all : List MatchMode := [.leading, .anywhere]

/-- Whether one list stands somewhere in another. -/
def occursIn (part : List Char) : List Char → Bool
  | [] => part.isEmpty
  | c :: rest => part.isPrefixOf (c :: rest) || occursIn part rest

/-- Whether a candidate matches the typed text; every candidate matches the empty text. -/
def admits (mode : MatchMode) (candidate typed : String) : Bool :=
  if typed.isEmpty then true
  else
    let candidate := Text.lowerAfter [] candidate.toList
    let typed := Text.lowerAfter [] typed.toList
    match mode with
    | .leading => typed.isPrefixOf candidate
    | .anywhere => occursIn typed candidate

end MatchMode

end LineCompletion

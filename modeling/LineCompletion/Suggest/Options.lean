import LineCompletion.Document.Record
import LineCompletion.Source.Basic
import LineCompletion.Suggest.Match

/-!
# Options of suggestions

How text is compared and what becomes of expired values, and how both are read from a document.
-/

namespace LineCompletion

/-- How text is compared and what becomes of expired values. -/
structure SuggestOptions where
  /-- Where typed text must stand in a candidate. -/
  mode : MatchMode := .leading
  /-- What is done with expired values. -/
  staleness : Staleness := .advisory
  deriving Repr, DecidableEq, BEq, Inhabited

namespace SuggestOptions

structure Draft where
  /-- The mode, once given. -/
  mode : Option MatchMode := none
  /-- The rule for expired values, once given. -/
  staleness : Option Staleness := none
  deriving Repr, Inhabited

/-- How options are read from a record that calls the mode as told. -/
def reader (expected modeField : String) (format : Format) : RecordReader Draft :=
  { expected
    fields := [modeField, "staleness"]
    read := fun depth name value d =>
      if name == modeField then do
        let mode ← once (duplicateField name) d.mode
          (value.name MatchMode.all MatchMode.name format depth)
        return { d with mode }
      else do
        let staleness ← once (duplicateField name) d.staleness
          (value.name Staleness.all Staleness.name format depth)
        return { d with staleness } }

def Draft.finish (d : Draft) : SuggestOptions :=
  { mode := d.mode.getD .leading, staleness := d.staleness.getD .advisory }

def ofNode (format : Format) (depth : Nat) (n : Node) : Except DocumentError SuggestOptions :=
  ((reader "struct SuggestOptions" "match_mode" format).readNode format depth {} n).map
    Draft.finish

end SuggestOptions

end LineCompletion

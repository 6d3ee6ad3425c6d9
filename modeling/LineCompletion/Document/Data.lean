import LineCompletion.Number.Double
import LineCompletion.Text.Quoted

/-!
# Document values and schema errors

Values as they stand in a document, and the ways in which they can fail to be what a schema wants.
-/

namespace LineCompletion

/-- A value of a document, whatever its format. -/
inductive Data where
  | null
  | bool (b : Bool)
  | int (n : Int)
  | real (d : Option Double)
  | text (s : String)
  | list (xs : List Data)
  | map (entries : List (Data × Data))
  deriving Repr, Inhabited

/-- What stands at a place of a document, as messages name it. -/
inductive Found where
  | null
  | bool (b : Bool)
  | int (n : Int)
  | real (d : Option Double)
  | text (s : String)
  | list
  | map
  deriving Repr, DecidableEq, BEq, Inhabited

namespace Found

def ofData : Data → Found
  | .null => .null
  | .bool b => .bool b
  | .int n => .int n
  | .real d => .real d
  | .text s => .text s
  | .list _ => .list
  | .map _ => .map

def describe : Found → String
  | .null => "null"
  | .bool b => "boolean `" ++ (if b then "true" else "false") ++ "`"
  | .int n => "integer `" ++ toString n ++ "`"
  | .real d => "floating point" ++ d.elim "" fun d => " `" ++ d.text ++ "`"
  | .text s => "string " ++ Text.quoted s
  | .list => "sequence"
  | .map => "map"

end Found

inductive SchemaError where
  | missingField (name : String)
  | duplicateField (name : String)
  | invalidType (found : Found) (expected : String)
  | invalidValue (found : Found) (expected : String)
  | unknownVariant (name : String) (known : List String)
  | invalidLength (length : Nat) (expected : String)
  deriving Repr, DecidableEq, BEq, Inhabited

namespace SchemaError

/-- Names that are known, as messages list them. -/
def oneOf : List String → String
  | [] => "none"
  | [a] => "`" ++ a ++ "`"
  | [a, b] => "`" ++ a ++ "` or `" ++ b ++ "`"
  | names => "one of " ++ ", ".intercalate (names.map fun n => "`" ++ n ++ "`")

def message : SchemaError → String
  | .missingField name => "missing field `" ++ name ++ "`"
  | .duplicateField name => "duplicate field `" ++ name ++ "`"
  | .invalidType found expected =>
    "invalid type: " ++ found.describe ++ ", expected " ++ expected
  | .invalidValue found expected =>
    "invalid value: " ++ found.describe ++ ", expected " ++ expected
  | .unknownVariant name known =>
    "unknown variant `" ++ name ++ "`, expected " ++ oneOf known
  | .invalidLength length expected =>
    "invalid length " ++ toString length ++ ", expected " ++ expected

end SchemaError

inductive Flaw where
  /-- Something stands where it must not. -/
  | malformed
  /-- The text ends too early. -/
  | truncated
  deriving Repr, DecidableEq, BEq, Inhabited

/-- Why a document cannot be read as a value of a schema. -/
inductive DocumentError where
  | flaw (f : Flaw)
  | schema (e : SchemaError)
  deriving Repr, DecidableEq, BEq, Inhabited

end LineCompletion

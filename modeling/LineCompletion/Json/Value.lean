import LineCompletion.Document.Node
import LineCompletion.Text.Utf8

/-!
# JSON values

Values with ordered members, their text, and their form as a document.
-/

namespace LineCompletion

inductive Json where
  | null
  | bool (b : Bool)
  | int (n : Int)
  | text (s : String)
  | list (xs : List Json)
  | map (members : List (String × Json))
  deriving Repr, Inhabited

namespace Json

/-- A member that is left out when its value is missing. -/
def optional (name : String) (value : Option Json) : List (String × Json) :=
  match value with
  | none => []
  | some v => [(name, v)]

def texts (ss : List String) : Json :=
  .list (ss.map .text)

def escapeChar (c : Char) : List Char :=
  if c == '"' || c == '\\' then ['\\', c]
  else if c == '\n' then ['\\', 'n']
  else if c == '\r' then ['\\', 'r']
  else if c == '\t' then ['\\', 't']
  else if c.toNat == 0x08 then ['\\', 'b']
  else if c.toNat == 0x0C then ['\\', 'f']
  else if c.toNat < 0x20 then
    ['\\', 'u', '0', '0'] ++ (if c.toNat < 0x10 then ['0'] else []) ++ Nat.toDigits 16 c.toNat
  else [c]

def quote (s : String) : String :=
  String.ofList ('"' :: s.toList.flatMap escapeChar ++ ['"'])

def indent (depth : Nat) : String :=
  String.ofList (List.replicate (2 * depth) ' ')

mutual

/-- The text of a value with each element and each member on a line of its own. -/
def pretty (depth : Nat) : Json → String
  | .null => "null"
  | .bool b => if b then "true" else "false"
  | .int n => toString n
  | .text s => quote s
  | .list [] => "[]"
  | .list (x :: xs) =>
    "[\n" ++ indent (depth + 1) ++ pretty (depth + 1) x ++ prettyItems (depth + 1) xs
      ++ "\n" ++ indent depth ++ "]"
  | .map [] => "\x7b\x7d"
  | .map ((name, x) :: members) =>
    "\x7b\n" ++ indent (depth + 1) ++ quote name ++ ": " ++ pretty (depth + 1) x
      ++ prettyMembers (depth + 1) members ++ "\n" ++ indent depth ++ "\x7d"

def prettyItems (depth : Nat) : List Json → String
  | [] => ""
  | x :: rest => ",\n" ++ indent depth ++ pretty depth x ++ prettyItems depth rest

def prettyMembers (depth : Nat) : List (String × Json) → String
  | [] => ""
  | (name, x) :: rest =>
    ",\n" ++ indent depth ++ quote name ++ ": " ++ pretty depth x ++ prettyMembers depth rest

end

mutual

def toNode : Json → Node
  | .null => .scalar { data := some .null, text := none }
  | .bool b => .scalar { data := some (.bool b), text := none }
  | .int n => .scalar { data := some (.int n), text := none }
  | .text s => .scalar { data := some (.text s), text := some s }
  | .list xs => .list (toItems xs)
  | .map members => .map (toMembers members)

def toItems : List Json → Items
  | [] => .done
  | x :: rest => .more (toNode x) (toItems rest)

def toMembers : List (String × Json) → Members
  | [] => .done
  | (name, x) :: rest =>
    .more (.scalar { data := some (.text name), text := some name }) (toNode x) (toMembers rest)

end

end Json

end LineCompletion

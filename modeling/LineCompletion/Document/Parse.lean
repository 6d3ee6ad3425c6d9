import LineCompletion.Json.Read
import LineCompletion.Yaml.Read
import LineCompletion.Yaml.Write

/-!
# Texts as documents

What reads the texts of documents and writes those of records is a parameter of everything that
works with files. All that is asked of it is that it reads what it has written.
-/

namespace LineCompletion

/-- What reads and writes the texts of documents. -/
class Codec where
  /-- The tree of a text. -/
  parse (format : Format) (bytes : List UInt8) : Document
  /-- The YAML text of a record. -/
  emit (members : List (String × Json)) : String

mutual

/-- A place of a document shows a value to those who read it as a value of its kind. -/
inductive Node.Shows : Json → Node → Prop
  | bool {b : Bool} {n : Node} (reads : n.bool = .ok b) : Node.Shows (.bool b) n
  | word {k : UInt64} {n : Node} (written : n.isNull = false) (reads : n.word = .ok k) :
      Node.Shows (.int k.toNat) n
  | text {s : String} {n : Node} (reads : n.text = .ok s) : Node.Shows (.text s) n
  | texts {ss : List String} {items : Items} (reads : items.each Node.text = .ok ss) :
      Node.Shows (Json.texts ss) (.list items)
  | map {ms : List (String × Json)} {nodes : Members} (members : Members.Show ms nodes) :
      Node.Shows (.map ms) (.map nodes)

/-- The pairs of a map show members to those who read them one after the other. -/
inductive Members.Show : List (String × Json) → Members → Prop
  | done : Members.Show [] .done
  | more {name : String} {x : Json} {ms : List (String × Json)} {key value : Node}
      {rest : Members} (named : key.text = .ok name) (shows : Node.Shows x value)
      (others : Members.Show ms rest) :
      Members.Show ((name, x) :: ms) (.more key value rest)

end

namespace Json

/-- A value of a single word. -/
inductive IsWord (words : List String) : Json → Prop
  | truth (b : Bool) : IsWord words (.bool b)
  | number (k : UInt64) : IsWord words (.int k.toNat)
  | name {s : String} (known : s ∈ words) : IsWord words (.text s)

/-- A record of values of a kind. -/
structure IsRecord (words : List String) (Kind : Json → Prop) (members : List (String × Json)) :
    Prop where
  filled : members ≠ []
  distinct : (members.map Prod.fst).Nodup
  names : ∀ m ∈ members, m.1 ∈ words
  values : ∀ m ∈ members, Kind m.2

/-- A value that a record of a file may have: a word, any text, a list of texts, or a record of
words. -/
inductive IsField (words : List String) : Json → Prop
  | word {x : Json} (isWord : IsWord words x) : IsField words x
  | text (s : String) : IsField words (.text s)
  | texts (ss : List String) : IsField words (Json.texts ss)
  | record {ms : List (String × Json)} (isRecord : IsRecord words (IsWord words) ms) :
      IsField words (.map ms)

end Json

/-- The text that is written of a record of some words is read back as the record. -/
def Codec.Faithful [Codec] (words : List String) : Prop :=
  ∀ members, Json.IsRecord words (Json.IsField words) members →
    ∃ nodes, Codec.parse .yaml (Text.Utf8.encode (Codec.emit members).toList) =
      { root := .map nodes } ∧ Members.Show members nodes

def Document.parse (format : Format) (bytes : List UInt8) : Document :=
  match format with
  | .json => Json.document bytes
  | .yaml => Yaml.document bytes

instance : Codec where
  parse := Document.parse
  emit := Yaml.ofMembers

end LineCompletion

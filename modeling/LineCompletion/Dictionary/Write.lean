import LineCompletion.Dictionary.Read
import LineCompletion.Json.Value

/-!
# Writing dictionaries

The JSON form of a dictionary. Empty texts and lists are left out where reading supplies them.
-/

namespace LineCompletion

/-- A member that is left out when its text is empty. -/
def Json.unlessEmpty (name text : String) : List (String × Json) :=
  if text.isEmpty then [] else [(name, .text text)]

namespace Item

def toJson (i : Item) : Json :=
  .map (("name", .text i.name) :: Json.unlessEmpty "description" i.description)

end Item

namespace CachePolicy

def toJson (p : CachePolicy) : Json :=
  .map (Json.optional "by_time_secs" (p.ttlSeconds.map fun n => .int n.toNat)
    ++ [("by_current_working_directory", .bool p.perDirectory)])

end CachePolicy

namespace Source

/-- The members that say how a source finds its values. -/
def providerMembers : Provider → List (String × Json)
  | .fixed items => [("kind", .text Tag.fixed.name), ("items", .list (items.map Item.toJson))]
  | .dynamic command => [("kind", .text Tag.dynamic.name), ("command", .text command)]

def toJson (s : Source) : Json :=
  .map (("name", .text s.name) :: providerMembers s.provider ++ [("cache", s.policy.toJson)])

end Source

namespace Parameter

def kindMembers : Kind Source → List (String × Json)
  | .command => [("type", .text Tag.command.name)]
  | .flag => [("type", .text Tag.flag.name)]
  | .value source separator =>
    ("type", .text Tag.value.name) :: Json.optional "source" (source.map Source.toJson)
      ++ [("separator", .text separator.name)]

mutual

def toJson : Parameter Source → Json
  | node keys name description recursive kind children =>
    .map ((if keys.isEmpty then [] else [("keys", Json.texts keys)])
      ++ [("name", .text name)]
      ++ Json.unlessEmpty "description" description
      ++ (if recursive then [("recursive", .bool true)] else [])
      ++ kindMembers kind
      ++ (if children.isEmpty then [] else [("parameters", .list (listToJson children))]))

def listToJson : List (Parameter Source) → List Json
  | [] => []
  | p :: rest => toJson p :: listToJson rest

end

end Parameter

namespace Platforms

def toJson (p : Platforms) : Json :=
  Json.texts (p.names.map Name.text)

end Platforms

namespace Dictionary

def toJson (d : Dictionary Source) : Json :=
  .map ([("keys", Json.texts d.keys), ("platforms", d.platforms.toJson), ("name", .text d.name)]
    ++ Json.unlessEmpty "description" d.description
    ++ [("parameters", .list (Parameter.listToJson d.parameters))])

end Dictionary

end LineCompletion

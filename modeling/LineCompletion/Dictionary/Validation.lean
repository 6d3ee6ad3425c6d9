import LineCompletion.Dictionary.Basic
import LineCompletion.Text.Character

/-!
# Validation

The rules a dictionary must keep before it is used, checked in a fixed order up to the first that
is broken.
-/

namespace LineCompletion

/-- The parts that every dictionary must have. -/
inductive RootField where
  | keys
  | platforms
  | name
  | parameters
  deriving Repr, DecidableEq, BEq, Inhabited

def RootField.text : RootField → String
  | .keys => "keys"
  | .platforms => "platforms"
  | .name => "name"
  | .parameters => "parameters"

/-- Why a dictionary cannot be used. -/
inductive ConfigurationError where
  /-- A part is missing or empty. -/
  | missingField (field : RootField)
  /-- The named dictionary is to be initialized without anything that runs commands. -/
  | missingExecutionContext (dictionary : String)
  /-- A parameter of the scope has a blank name. -/
  | missingParameterName (scope : String)
  /-- The parameter lacks a key, or has a blank one. -/
  | missingKeys (parameter : String)
  /-- Two keys of the scope are equal in lowercase; the later is given. -/
  | duplicateKey (scope key : String)
  deriving Repr, DecidableEq, BEq, Inhabited

def ConfigurationError.message : ConfigurationError → String
  | .missingField field => "dictionary field `" ++ field.text ++ "` is missing or empty"
  | .missingExecutionContext dictionary =>
    "dictionary `" ++ dictionary ++ "` cannot be initialized without an execution context"
  | .missingParameterName scope => "parameter in scope `" ++ scope ++ "` has an empty name"
  | .missingKeys parameter => "parameter `" ++ parameter ++ "` must define at least one key"
  | .duplicateKey scope key => "duplicate key `" ++ key ++ "` in scope `" ++ scope ++ "`"

namespace Validation

/-- The lowercase keys of a scope after those of one parameter are added; each must be new. -/
def addKeys (scope parameter : String) :
    List String → List String → Except ConfigurationError (List String)
  | seen, [] => .ok seen
  | seen, key :: rest =>
    if Text.allBlank key then .error (.missingKeys parameter)
    else
      let lowered := Text.lower key
      if seen.contains lowered then .error (.duplicateKey scope key)
      else addKeys scope parameter (lowered :: seen) rest

def scopeText (path : List String) : String :=
  " ".intercalate path

variable {σ : Type}

mutual

/-- Checks one parameter of the scope whose path is given, and all below it. The answer is the
scope's keys with those of this parameter. -/
def checkParameter (path seen : List String) :
    Parameter σ → Except ConfigurationError (List String)
  | .node keys name _ _ kind children =>
    if Text.allBlank name then .error (.missingParameterName (scopeText path))
    else if keys.isEmpty && !(Parameter.node keys name "" false kind []).isValue then
      .error (.missingKeys name)
    else
      match addKeys (scopeText path) name seen keys with
      | .error e => .error e
      | .ok seen =>
        match checkParameters (path ++ [name]) [] children with
        | .error e => .error e
        | .ok _ => .ok seen

def checkParameters (path seen : List String) :
    List (Parameter σ) → Except ConfigurationError (List String)
  | [] => .ok seen
  | p :: rest =>
    match checkParameter path seen p with
    | .error e => .error e
    | .ok seen => checkParameters path seen rest

end

end Validation

/-- Checks a dictionary; the error is the first rule broken. -/
def Dictionary.validate {σ : Type} (d : Dictionary σ) : Except ConfigurationError Unit :=
  if d.keys.all Text.allBlank then .error (.missingField .keys)
  else if d.platforms.isEmpty then .error (.missingField .platforms)
  else if Text.allBlank d.name then .error (.missingField .name)
  else if d.parameters.isEmpty then .error (.missingField .parameters)
  else
    match Validation.checkParameters [d.name] [] d.parameters with
    | .error e => .error e
    | .ok _ => .ok ()

end LineCompletion

import LineCompletion.Suggest.Options
import LineCompletion.Suggest.Walk
import LineCompletion.Source.Live

/-!
# Predictions

The suggestions for a request: each is the whole line with one more word in place of the one under
the cursor. They are produced one at a time.
-/

namespace LineCompletion

variable {σ : Type}

inductive SuggestionKind where
  | command
  | flag
  | value
  deriving Repr, DecidableEq, BEq, Inhabited

def SuggestionKind.name : SuggestionKind → String
  | .command => "command"
  | .flag => "flag"
  | .value => "value"

structure Suggestion where
  /-- The whole line. -/
  text : String
  /-- What the added word is, for a reader. -/
  description : Option String := none
  /-- What the added word completes. -/
  kind : SuggestionKind
  deriving Repr, DecidableEq, BEq, Inhabited

/-- A candidate whose values are at hand. -/
inductive Choice (σ : Type) where
  | key (parameter : Parameter σ)
  | values (items : List Item) (assignmentKey : Option String)
  deriving Repr, Inhabited

def Candidate.resolve (items : Parameter σ → List Item) : Candidate σ → Choice σ
  | .key p => .key p
  | .values p assignmentKey => .values (items p) assignmentKey

/-- A sequence of suggestions yet to be produced. -/
structure Predictions (σ : Type) where
  /-- The words before the completed one, joined by blanks. -/
  lead : String := ""
  /-- The text under the cursor. -/
  typed : Typed := {}
  /-- How it is compared. -/
  mode : MatchMode := .leading
  /-- What is still to be looked at. -/
  choices : List (Choice σ) := []
  /-- Suggestions of a choice that was looked at. -/
  buffered : List Suggestion := []
  deriving Repr, Inhabited

namespace Predictions

def nonempty (text : String) : Option String :=
  if text.isEmpty then none else some text

/-- Whether a key is wanted for the text under the cursor. -/
def admitsKey (p : Predictions σ) (key : String) : Bool :=
  (!p.typed.flagsOnly || key.toList.head? == some '-') && p.mode.admits key p.typed.text

def keySuggestion (p : Predictions σ) (parameter : Parameter σ) : Option Suggestion :=
  (parameter.keys.find? p.admitsKey).map fun key =>
    { text := p.lead ++ " " ++ Literal.write key p.typed.quote
      description := nonempty parameter.description
      kind := match parameter.kind with
        | .command => .command
        | _ => .flag }

def valueSuggestion (p : Predictions σ) (assignmentKey : Option String) (item : Item) :
    Suggestion :=
  let literal := Literal.write item.name p.typed.quote
  let word := match assignmentKey with
    | some key => key ++ "=" ++ literal
    | none => literal
  { text := p.lead ++ " " ++ word, description := nonempty item.description, kind := .value }

def valueSuggestions (p : Predictions σ) (items : List Item) (assignmentKey : Option String) :
    List Suggestion :=
  (items.filter fun item => p.mode.admits item.name p.typed.text).map
    (p.valueSuggestion assignmentKey)

def ofChoice (p : Predictions σ) : Choice σ → List Suggestion
  | .key parameter => (p.keySuggestion parameter).toList
  | .values items assignmentKey => p.valueSuggestions items assignmentKey

def toList (p : Predictions σ) : List Suggestion :=
  p.buffered ++ p.choices.flatMap p.ofChoice

/-- Looks at choices up to the first that has a suggestion. -/
def advance (p : Predictions σ) : List (Choice σ) → Option (Suggestion × Predictions σ)
  | [] => none
  | .key parameter :: rest =>
    match p.keySuggestion parameter with
    | some s => some (s, { p with choices := rest, buffered := [] })
    | none => advance p rest
  | .values items assignmentKey :: rest =>
    match p.valueSuggestions items assignmentKey with
    | s :: more => some (s, { p with choices := rest, buffered := more })
    | [] => advance p rest

def next? (p : Predictions σ) : Option (Suggestion × Predictions σ) :=
  match p.buffered with
  | s :: more => some (s, { p with buffered := more })
  | [] => p.advance p.choices

/-- The first suggestions, at most so many. -/
def take : Nat → Predictions σ → List Suggestion
  | 0, _ => []
  | n + 1, p =>
    match p.next? with
    | none => []
    | some (s, rest) => s :: take n rest

def joinWords (words : List String) : String :=
  " ".intercalate words

end Predictions

namespace Dictionary

/-- The completed words of a line after the command word, and the word under the cursor if there is
one. -/
def splitCursor (rest : List Token) (trailingSpace : Bool) : List Token × Option Token :=
  if trailingSpace then (rest, none)
  else match rest.getLast? with
    | none => (rest, none)
    | some last => (rest.dropLast, some last)

/-- The suggestions for a line, given what each parameter offers; none unless the dictionary handles
the command word. -/
def predictWith (d : Dictionary σ) (mode : MatchMode) (items : Parameter σ → List Item)
    (line : TokenLine) : Predictions σ :=
  match line.tokens with
  | [] => { mode }
  | command :: rest =>
    if !d.matchesKey command.text then { mode }
    else
      let (completed, current) := splitCursor rest line.trailingSpace
      let walk := completed.foldl Walk.consume (Walk.start d.parameters)
      let words := (command :: completed).map (·.raw)
      let made (words : List String) (typed : Typed) (candidates : List (Candidate σ)) :
          Predictions σ :=
        { lead := Predictions.joinWords words
          typed, mode
          choices := candidates.map (Candidate.resolve items) }
      match current with
      | none => made words {} (walk.enumerate false)
      | some token =>
        match walk.complete token with
        | .consumed walk => made (words ++ [token.raw]) {} (walk.enumerate false)
        | .filter typed => made words typed (walk.enumerate typed.flagsOnly)
        | .values p assignmentKey typed => made words typed [.values p assignmentKey]

end Dictionary

/-- A dictionary with the options its suggestions follow. -/
structure Suggestor where
  dictionary : Dictionary LiveSource
  options : SuggestOptions := {}
  deriving Repr, Inhabited

namespace Suggestor

def handles (s : Suggestor) (command : String) : Bool :=
  s.dictionary.matchesKey command

/-- What a parameter offers for a working directory. -/
def itemsOf (s : Suggestor) (caches : Caches) (clock : Clock) (directory : Option String)
    (p : Parameter LiveSource) : List Item :=
  match p.source? with
  | none => []
  | some source => (source.offer caches clock directory s.options.staleness).items

def predict (s : Suggestor) (caches : Caches) (clock : Clock) (request : Request) :
    Predictions LiveSource :=
  s.dictionary.predictWith s.options.mode (s.itemsOf caches clock request.directory) request.line

end Suggestor

end LineCompletion

import LineCompletion.Text.Utf8
import LineCompletion.Yaml.Token

/-!
# Reading YAML

The tree of a YAML text. The text is one document; an alias stands for the value of its anchor.
-/

namespace LineCompletion.Yaml

/-- What reading values needs to know: the tokens left, the anchors met and the handles of tags. -/
structure Reader where
  tokens : List Token
  anchors : List (String × Node) := []
  handles : List (String × String) := []
  deriving Inhabited

namespace Reader

def pop (r : Reader) : Reader :=
  { r with tokens := r.tokens.drop 1 }

def next (r : Reader) (p : Token → Bool) : Bool :=
  r.tokens.head?.any p

def meets (r : Reader) (t : Token) : Bool :=
  r.tokens.head? == some t

end Reader

structure Properties where
  anchor : Option String := none
  tag : Option String := none
  deriving Repr, Inhabited

/-- Reads an anchor and a tag in either order, each at most once. -/
def readProperties (r : Reader) : Option (Properties × Reader) :=
  let resolve (handle suffix : String) : Option String :=
    if handle.isEmpty then some suffix
    else match r.handles.lookup handle with
      | some lead => some (lead ++ suffix)
      | none =>
        if handle == "!" then some ("!" ++ suffix)
        else if handle == "!!" then some ("tag:yaml.org,2002:" ++ suffix)
        else none
  match r.tokens with
  | .anchor a :: .tag h s :: rest => do
    let tag ← resolve h s
    some ({ anchor := some a, tag := some tag }, { r with tokens := rest })
  | .tag h s :: .anchor a :: rest => do
    let tag ← resolve h s
    some ({ anchor := some a, tag := some tag }, { r with tokens := rest })
  | .anchor a :: rest => some ({ anchor := some a }, { r with tokens := rest })
  | .tag h s :: rest => do
    let tag ← resolve h s
    some ({ tag := some tag }, { r with tokens := rest })
  | _ => some ({}, r)

def Tag.ofText (tag : Option String) : Tag :=
  match tag with
  | none => .unset
  | some t =>
    if t.startsWith "tag:yaml.org,2002:" then
      let name := (t.drop 18).toString
      if name == "str" then .text else .core name
    else if t.startsWith "!" then .own
    else .text

def emptyNode (p : Properties) : Node :=
  .scalar (scalar (Tag.ofText p.tag) true "")

def Reader.note (r : Reader) (p : Properties) (n : Node) : Node × Reader :=
  match p.anchor with
  | none => (n, r)
  | some a => (n, { r with anchors := (a, n) :: r.anchors })

/-- Notes an anchor whose value has parts yet to be read. Inside them it stands for a value without
end, which can be passed over but not read. -/
def Reader.noteOpen (r : Reader) (p : Properties) : Reader :=
  (r.note p (.refused .malformed none)).2

/-- Sets the value of the anchor that was noted after the given number of anchors. -/
def Reader.noteClosed (r : Reader) (p : Properties) (count : Nat) (n : Node) : Node × Reader :=
  match p.anchor with
  | none => (n, r)
  | some a => (n, { r with anchors := r.anchors.set (r.anchors.length - 1 - count) (a, n) })

/-- Whether a token cannot begin a value inside a block map. -/
def endsBlockValue (t : Token) : Bool :=
  t == .key || t == .value || t == .blockEnd

/-- Whether a token cannot begin a value inside a flow map. -/
def endsFlowMap (t : Token) : Bool :=
  t == .flowEntry || t == .flowMapEnd

/-- Whether a token cannot begin a value inside a flow list. -/
def endsFlowList (t : Token) : Bool :=
  t == .flowEntry || t == .flowListEnd

mutual

/-- Reads a value. A block may only begin where it is told; in a map a list may stand at the
indentation of its key. -/
def readNode (block atKey : Bool) : Nat → Reader → Option (Node × Reader)
  | 0, _ => none
  | fuel + 1, r =>
    match r.tokens with
    | .alias name :: _ => do
      let n ← r.anchors.lookup name
      some (n, r.pop)
    | _ => do
      let (p, r) ← readProperties r
      let opened := r.noteOpen p
      let count := r.anchors.length
      match r.tokens with
      | .scalar text plain :: _ =>
        some (r.pop.note p (.scalar (scalar (Tag.ofText p.tag) plain text)))
      | .flowListStart :: _ =>
        let (items, r) ← readFlowItems true fuel opened.pop
        some (r.noteClosed p count (.list items))
      | .flowMapStart :: _ =>
        let (members, r) ← readFlowMembers true fuel opened.pop
        some (r.noteClosed p count (.map members))
      | t :: _ =>
        if t == .blockEntry && atKey then
          let (items, r) ← readPlainItems fuel opened
          some (r.noteClosed p count (.list items))
        else if t == .blockList && block then
          let (items, r) ← readBlockItems fuel opened.pop
          some (r.noteClosed p count (.list items))
        else if t == .blockMap && block then
          let (members, r) ← readBlockMembers fuel opened.pop
          some (r.noteClosed p count (.map members))
        else if p.anchor.isSome || p.tag.isSome then some (r.note p (emptyNode p))
        else none
      | [] => if p.anchor.isSome || p.tag.isSome then some (r.note p (emptyNode p)) else none

/-- Reads a value unless a token shows that there is none. -/
def readOptional (ends : Token → Bool) (block atKey : Bool) :
    Nat → Reader → Option (Node × Reader)
  | 0, _ => none
  | fuel + 1, r => if r.next ends then some (emptyNode {}, r) else readNode block atKey fuel r

def readBlockItems : Nat → Reader → Option (Items × Reader)
  | 0, _ => none
  | fuel + 1, r =>
    if r.meets .blockEnd then some (.done, r.pop)
    else if r.meets .blockEntry then do
      let (item, r) ←
        readOptional (fun t => t == .blockEntry || t == .blockEnd) true false fuel r.pop
      let (rest, r) ← readBlockItems fuel r
      some (.more item rest, r)
    else none

/-- Reads the elements of a list at the indentation of its key. -/
def readPlainItems : Nat → Reader → Option (Items × Reader)
  | 0, _ => none
  | fuel + 1, r =>
    if r.meets .blockEntry then do
      let (item, r) ←
        readOptional (fun t => t == .blockEntry || endsBlockValue t) true false fuel r.pop
      let (rest, r) ← readPlainItems fuel r
      some (.more item rest, r)
    else some (.done, r)

def readBlockMembers : Nat → Reader → Option (Members × Reader)
  | 0, _ => none
  | fuel + 1, r =>
    if r.meets .blockEnd then some (.done, r.pop)
    else if r.meets .key then do
      let (key, r) ← readOptional endsBlockValue true true fuel r.pop
      let (value, r) ←
        if r.meets .value then readOptional endsBlockValue true true fuel r.pop
        else some (emptyNode {}, r)
      let (rest, r) ← readBlockMembers fuel r
      some (.more key value rest, r)
    else none

/-- Reads the elements of a list in flow form after its bracket or after an element. -/
def readFlowItems (first : Bool) : Nat → Reader → Option (Items × Reader)
  | 0, _ => none
  | fuel + 1, r =>
    if r.meets .flowListEnd then some (.done, r.pop)
    else do
      let r ← if first then some r else if r.meets .flowEntry then some r.pop else none
      if r.meets .flowListEnd then some (.done, r.pop)
      else
        let (item, r) ←
          if r.meets .key then do
            let (key, r) ←
              readOptional (fun t => t == .value || endsFlowList t) false false fuel r.pop
            let (value, r) ←
              if r.meets .value then readOptional endsFlowList false false fuel r.pop
              else some (emptyNode {}, r)
            some (Node.map (.more key value .done), r)
          else readNode false false fuel r
        let (rest, r) ← readFlowItems false fuel r
        some (.more item rest, r)

/-- Reads the pairs of a map in flow form after its brace or after a pair. -/
def readFlowMembers (first : Bool) : Nat → Reader → Option (Members × Reader)
  | 0, _ => none
  | fuel + 1, r =>
    if r.meets .flowMapEnd then some (.done, r.pop)
    else do
      let r ← if first then some r else if r.meets .flowEntry then some r.pop else none
      if r.meets .flowMapEnd then some (.done, r.pop)
      else
        let (key, value, r) ←
          if r.meets .key then do
            let (key, r) ←
              readOptional (fun t => t == .value || endsFlowMap t) false false fuel r.pop
            let (value, r) ←
              if r.meets .value then readOptional endsFlowMap false false fuel r.pop
              else some (emptyNode {}, r)
            some (key, value, r)
          else do
            let (key, r) ← readNode false false fuel r
            some (key, emptyNode {}, r)
        let (rest, r) ← readFlowMembers false fuel r
        some (.more key value rest, r)

end

/-- Reads the directives before a document: at most one version, which must be known, and the
handles of tags, none of them twice. -/
def readDirectives (versioned : Bool) (handles : List (String × String)) :
    List Token → Option Reader
  | .version major minor :: rest =>
    if versioned || major != 1 || (minor != 1 && minor != 2) then none
    else readDirectives true handles rest
  | .handle name lead :: rest =>
    if (handles.lookup name).isSome then none
    else readDirectives versioned ((name, lead) :: handles) rest
  | tokens => some { tokens, handles }

def endsDocument (t : Token) : Bool :=
  match t with
  | .version .. | .handle .. | .documentStart | .documentEnd => true
  | _ => false

/-- Reads the value of a document that is the only one of its text. -/
def readDocument (tokens : List Token) : Option Node := do
  let fuel := 8 * tokens.length + 16
  let start : Reader := { tokens }
  let directed := start.next fun t => t == .documentStart || (endsDocument t && t != .documentEnd)
  let (root, r) ←
    if tokens.isEmpty then some (emptyNode {}, start)
    else if directed then do
      let r ← readDirectives false [] tokens
      if !r.meets .documentStart then none
      else
        let r := r.pop
        if r.tokens.isEmpty then some (emptyNode {}, r)
        else readOptional endsDocument true false fuel r
    else readNode true false fuel start
  if r.tokens.all (· == .documentEnd) then some root else none

/-- The tree of a YAML text. A text that is no document has nothing to read. -/
def document (bytes : List UInt8) : Document :=
  let root := do
    let cs ← Text.Utf8.decode? bytes
    readDocument (← Token.ofText cs)
  { root := root.getD (.refused .malformed (some .malformed)) }

end LineCompletion.Yaml

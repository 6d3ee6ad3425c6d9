import LineCompletion.Dictionary.Write
import LineCompletion.Proofs.Document.Depth

/-! # Reading dictionaries that were written

What is left out where it is empty is what reading supplies for it, at every level of the tree. So a
written dictionary reads back, as long as it is not nested deeper than documents may be.
-/

namespace LineCompletion

open Json

theorem Platforms.ofNames_names (p : Platforms) : ofNames p.names = p := by
  obtain ⟨windows, linux, macos⟩ := p
  cases windows <;> cases linux <;> cases macos <;> rfl

theorem Data.word_int (n : UInt64) : Data.word (.int n.toNat) = .ok n := by
  have small : (n.toNat : Int) < 18446744073709551616 := by
    have := n.toNat_lt
    omega
  simp [Data.word, small]

theorem getD_unlessEmpty (text : String) :
    (if text.isEmpty then none else some text).getD "" = text := by
  by_cases empty : text = "" <;> simp [empty]

/-! ## The parts of a source -/

theorem Item.ofData_toJson (i : Item) : ofData i.toJson.toData = .ok i := by
  obtain ⟨name, description⟩ := i
  by_cases empty : description = ""
  · subst empty
    rfl
  · simp [toJson, toData, membersData, Json.unlessEmpty, empty, ofData, Data.readEntries,
      Data.field?, fields, readField, once, Data.string, Draft.finish, bind, Except.bind, pure,
      Except.pure, Except.map]

namespace CachePolicy

theorem readField_ttl (n : UInt64) (d : Draft) (fresh : d.ttlSeconds = none) :
    readField "by_time_secs" (.int n.toNat) d = .ok { d with ttlSeconds := some (some n) } := by
  have word : once (SchemaError.duplicateField "by_time_secs") d.ttlSeconds
      ((Data.word (.int n.toNat)).map some) = .ok (some (some n)) := by
    rw [Data.word_int, fresh]
    rfl
  simp only [readField, beq_self_eq_true, if_true, word, bind, Except.bind, pure, Except.pure]

theorem readField_perDirectory (perDirectory : Bool) (d : Draft) (fresh : d.perDirectory = none) :
    readField "by_current_working_directory" (.bool perDirectory) d =
      .ok { d with perDirectory := some perDirectory } := by
  simp [readField, fresh, once, Data.truth, bind, Except.bind, pure, Except.pure, Except.map]

theorem ofData_toJson (p : CachePolicy) : ofData p.toJson.toData = .ok p := by
  have directory (perDirectory : Bool) (d : Draft) (fresh : d.perDirectory = none) :
      Data.readEntries fields readField d
          [(.text "by_current_working_directory", .bool perDirectory)] =
        .ok { d with perDirectory := some perDirectory } :=
    Data.readEntries_field (by simp [fields]) (readField_perDirectory perDirectory d fresh) []
  obtain ⟨ttlSeconds, perDirectory⟩ := p
  cases ttlSeconds with
  | none =>
      simp only [toJson, Json.optional, Option.map_none, List.nil_append, toData, membersData,
        ofData, directory]
      rfl
  | some n =>
      have ttl (rest : List (Data × Data)) :
          Data.readEntries fields readField {} ((.text "by_time_secs", .int n.toNat) :: rest) =
            Data.readEntries fields readField { ttlSeconds := some (some n) } rest :=
        Data.readEntries_field (by simp [fields]) (readField_ttl n {} rfl) rest
      simp only [toJson, Json.optional, Option.map_some, List.cons_append, List.nil_append, toData,
        membersData, ofData, ttl, directory]
      rfl

end CachePolicy

namespace Source

theorem variant_tag (t : Tag) : Data.variant Tag.all Tag.name (.text t.name) = .ok t := by
  cases t <;> rfl

theorem ofData_toJson (s : Source) : ofData s.toJson.toData = .ok s := by
  obtain ⟨name, provider, policy⟩ := s
  cases provider with
  | fixed items =>
      have listed := Data.listOf_itemsData Item.ofData_toJson items
      simp [toJson, providerMembers, toData, membersData, ofData, Data.index?, Data.readEntries,
        Data.field?, readField, once, Data.string, CachePolicy.ofData_toJson, providerOfEntries,
        Data.tag, listed, variant_tag, bind, Except.bind, pure, Except.pure, Except.map]
  | dynamic command =>
      simp [toJson, providerMembers, toData, membersData, ofData, Data.index?, Data.readEntries,
        Data.field?, readField, once, Data.string, CachePolicy.ofData_toJson, providerOfEntries,
        Data.tag, variant_tag, bind, Except.bind, pure, Except.pure, Except.map]

end Source

namespace Parameter

/-! ## What a parameter is -/

theorem variant_tag (t : Tag) : Data.variant Tag.all Tag.name (.text t.name) = .ok t := by
  cases t <;> rfl

theorem readValueField_source (s : Source) (d : ValueDraft) (fresh : d.source = none) :
    readValueField "source" s.toJson.toData d = .ok { d with source := some (some s) } := by
  have read := Source.ofData_toJson s
  obtain ⟨entries, written⟩ : ∃ entries, s.toJson.toData = .map entries :=
    ⟨_, by rw [Source.toJson, toData]⟩
  rw [written] at read ⊢
  simp [readValueField, fresh, once, read, bind, Except.bind, pure, Except.pure, Except.map]

theorem readValueField_separator (s : Separator) (d : ValueDraft) (fresh : d.separator = none) :
    readValueField "separator" (Json.text s.name).toData d =
      .ok { d with separator := some s } := by
  have read : Separator.ofData (.text s.name) = .ok s := by cases s <;> rfl
  simp [toData, readValueField, fresh, once, read, bind, Except.bind, pure, Except.pure, Except.map]

theorem kindOfEntries_kindMembers (kind : Kind Source) :
    kindOfEntries (membersData (kindMembers kind)) = .ok kind := by
  cases kind with
  | command => rfl
  | flag => rfl
  | value source separator =>
      cases source with
      | none => cases separator <;> rfl
      | some source =>
          have tagged : Data.tag "type" (Data.variant Tag.all Tag.name) none
              (membersData (kindMembers (.value (some source) separator))) = .ok Tag.value := by
            simp [kindMembers, Json.optional, membersData, toData, Data.tag, variant_tag, once,
              Except.map]
          have parts : Data.readEntries ["source", "separator"] readValueField {}
              (membersData (kindMembers (.value (some source) separator))) =
                .ok { source := some (some source), separator := some separator } := by
            simp only [kindMembers, Json.optional, Option.map_some, List.cons_append,
              List.nil_append, membersData]
            rw [Data.readEntries_other (by simp),
              Data.readEntries_field (by simp) (readValueField_source source {} rfl),
              Data.readEntries_field (by simp) (readValueField_separator separator _ rfl)]
            rfl
          simp only [kindOfEntries, tagged, parts, bind, Except.bind, pure, Except.pure]
          rfl

/-! ## The tree -/

def Draft.of : Parameter Source → Draft
  | node keys name description recursive kind children =>
    { keys := if keys.isEmpty then none else some keys
      name := some name
      description := if description.isEmpty then none else some description
      recursive := if recursive then some true else none
      children := if children.isEmpty then none else some children
      others := membersData (kindMembers kind) }

theorem Draft.finish_of (p : Parameter Source) : (Draft.of p).finish = .ok p := by
  obtain ⟨keys, name, description, recursive, kind, children⟩ := p
  have givenKeys : (if keys.isEmpty then none else some keys).getD [] = keys := by
    cases keys <;> rfl
  have givenRecursive : (if recursive then some true else none).getD false = recursive := by
    cases recursive <;> rfl
  have givenChildren : (if children.isEmpty then none else some children).getD [] = children := by
    cases children <;> rfl
  simp only [Draft.of, finish, kindOfEntries_kindMembers, givenKeys, getD_unlessEmpty,
    givenRecursive, givenChildren, Option.getD_some]

theorem ofMembers_append (limit : Nat) (draft : Draft) (before after : List (String × Json)) :
    ofMembers limit draft (toMembers (before ++ after)) =
      (ofMembers limit draft (toMembers before)).bind fun draft =>
        ofMembers limit draft (toMembers after) := by
  induction before generalizing draft with
  | nil => rfl
  | cons member rest ih =>
      obtain ⟨name, x⟩ := member
      simp only [List.cons_append, toMembers, ofMembers, Node.text]
      cases name == "parameters" with
      | true =>
          simp only [if_true]
          cases draft.children.isSome with
          | true => rfl
          | false =>
              simp only [Bool.false_eq_true, if_false]
              cases listOfNode limit x.toNode with
              | error e => rfl
              | ok children => exact ih _
      | false =>
          simp only [Bool.false_eq_true, if_false]
          cases readField limit name x.toNode draft with
          | error e => rfl
          | ok draft => exact ih draft

/-- Reading members of a parameter leads from one draft to another, unless they are nested too
deep. -/
def Reads (limit : Nat) (draft : Draft) (members : List (String × Json)) (next : Draft) : Prop :=
  ofMembers limit draft (toMembers members) = within (membersDepth members) limit next

section Reads

variable {limit : Nat} {draft next last : Draft}

theorem reads_nil : Reads limit draft [] draft := by
  simp [Reads, toMembers, ofMembers, membersDepth]

theorem Reads.append {before after : List (String × Json)} (first : Reads limit draft before next)
    (second : Reads limit next after last) : Reads limit draft (before ++ after) last := by
  unfold Reads at first ⊢
  rw [ofMembers_append, first, membersDepth_append]
  exact within_bind second

theorem reads_field {name : String} {x : Json} (other : name ≠ "parameters")
    (read : readField limit name x.toNode draft = within x.depth limit next) :
    Reads limit draft [(name, x)] next := by
  simp only [Reads, toMembers, ofMembers, Node.text, beq_iff_eq, other, if_false, read,
    membersDepth, Nat.max_zero]
  by_cases fits : x.depth ≤ limit
  · simp [within, fits]
  · simp [within, fits]

theorem reads_keys (keys : List String) (fresh : draft.keys = none) :
    Reads limit draft (if keys.isEmpty then [] else [("keys", Json.texts keys)])
      { draft with keys := if keys.isEmpty then none else some keys } := by
  cases empty : keys.isEmpty with
  | true => simpa [← fresh] using reads_nil
  | false =>
      refine reads_field (by decide) ?_
      simp only [readField, beq_self_eq_true, if_true, Node.texts_toNode]
      exact within_once _ fresh (fun keys => { draft with keys }) _ _ keys

theorem reads_name (name : String) (fresh : draft.name = none) :
    Reads limit draft [("name", .text name)] { draft with name := some name } := by
  refine reads_field (by decide) ?_
  simp only [readField, String.reduceBEq, Bool.false_eq_true, if_false, if_true,
    Node.text_toNode limit]
  exact within_once _ fresh (fun name => { draft with name }) _ _ name

theorem reads_description (description : String) (fresh : draft.description = none) :
    Reads limit draft (Json.unlessEmpty "description" description)
      { draft with description := if description.isEmpty then none else some description } := by
  unfold Json.unlessEmpty
  cases empty : description.isEmpty with
  | true => simpa [← fresh] using reads_nil
  | false =>
      refine reads_field (by decide) ?_
      simp only [readField, String.reduceBEq, Bool.false_eq_true, if_false, if_true,
        Node.text_toNode limit]
      exact within_once _ fresh (fun description => { draft with description }) _ _ description

theorem reads_recursive (recursive : Bool) (fresh : draft.recursive = none) :
    Reads limit draft (if recursive then [("recursive", .bool true)] else [])
      { draft with recursive := if recursive then some true else none } := by
  cases recursive with
  | false => simpa [← fresh] using reads_nil
  | true =>
      refine reads_field (by decide) ?_
      simp only [readField, String.reduceBEq, Bool.false_eq_true, if_false, if_true,
        Node.bool_toNode limit]
      exact within_once _ fresh (fun recursive => { draft with recursive }) _ _ true

theorem reads_children {children : List (Parameter Source)} (fresh : draft.children = none)
    (read : listOfNode limit (Json.list (listToJson children)).toNode =
      within (Json.list (listToJson children)).depth limit children) :
    Reads limit draft
      (if children.isEmpty then [] else [("parameters", .list (listToJson children))])
      { draft with children := if children.isEmpty then none else some children } := by
  cases empty : children.isEmpty with
  | true => simpa [← fresh] using reads_nil
  | false =>
      simp only [Reads, Bool.false_eq_true, if_false, toMembers, ofMembers, Node.text,
        beq_self_eq_true, if_true, fresh, Option.isSome_none, read, membersDepth, Nat.max_zero]
      by_cases fits : (Json.list (listToJson children)).depth ≤ limit
      · simp [within, fits]
      · simp [within, fits]

theorem reads_others {members : List (String × Json)}
    (kept : ∀ m ∈ members, m.1 ∉ ["keys", "name", "description", "recursive", "parameters"]) :
    Reads limit draft members { draft with others := draft.others ++ membersData members } := by
  induction members generalizing draft with
  | nil => simpa [membersData] using reads_nil
  | cons member rest ih =>
      obtain ⟨name, x⟩ := member
      have other := kept _ (List.mem_cons_self ..)
      simp only [List.mem_cons, List.not_mem_nil, or_false, not_or] at other
      have first : Reads limit draft [(name, x)]
          { draft with others := draft.others ++ [(.text name, x.toData)] } := by
        refine reads_field other.2.2.2.2 ?_
        simp only [readField, beq_iff_eq, other, if_false, Node.data_toNode]
        exact within_map _ _ _ _
      have both := first.append (ih fun m member => kept m (List.mem_cons_of_mem _ member))
      simpa [membersData] using both

end Reads

theorem others_kindMembers (kind : Kind Source) : ∀ m ∈ kindMembers kind,
    m.1 ∉ ["keys", "name", "description", "recursive", "parameters"] := by
  cases kind with
  | command => simp [kindMembers]
  | flag => simp [kindMembers]
  | value source separator => cases source <;> simp [kindMembers, Json.optional]

theorem listOfNode_toNode {ps : List (Parameter Source)}
    (read : ∀ limit, ofItems limit (toItems (listToJson ps)) =
      within (itemsDepth (listToJson ps)) limit ps) (limit : Nat) :
    listOfNode limit (Json.list (listToJson ps)).toNode =
      within (Json.list (listToJson ps)).depth limit ps := by
  cases limit with
  | zero => simp [toNode, listOfNode, Node.descend, depth]
  | succ limit => simp [toNode, listOfNode, Node.descend, depth, read]

mutual

theorem ofNode_toJson (limit : Nat) : (p : Parameter Source) →
    ofNode limit p.toJson.toNode = within p.toJson.depth limit p
  | node keys name description recursive kind children => by
      cases limit with
      | zero => simp [toJson, toNode, ofNode, Node.descend, depth]
      | succ limit =>
          have below := listOfNode_toNode (fun limit => ofItems_listToJson limit children) limit
          have read :
              Reads limit {} _ (Draft.of (node keys name description recursive kind children)) :=
            (((((reads_keys keys rfl).append (reads_name name rfl)).append
              (reads_description description rfl)).append (reads_recursive recursive rfl)).append
              (reads_others (others_kindMembers kind))).append (reads_children rfl below)
          unfold Reads at read
          simp only [toJson, toNode, ofNode, Node.descend, depth, within_succ_succ, read]
          generalize membersDepth _ = deep
          by_cases fits : deep ≤ limit
          · simp only [within, fits, if_true, Draft.finish_of]
          · simp only [within, fits, if_false]

theorem ofItems_listToJson (limit : Nat) : (ps : List (Parameter Source)) →
    ofItems limit (toItems (listToJson ps)) = within (itemsDepth (listToJson ps)) limit ps
  | [] => by simp [listToJson, toItems, ofItems, itemsDepth]
  | p :: rest => by
      simp only [listToJson, toItems, ofItems, itemsDepth, ofNode_toJson limit p,
        ofItems_listToJson limit rest, within_max]
      by_cases fits : p.toJson.depth ≤ limit
      · by_cases restFits : itemsDepth (listToJson rest) ≤ limit
        · simp only [within, fits, restFits, if_true]
        · simp only [within, fits, restFits, if_true, if_false]
      · simp only [within, fits, if_false]

end

end Parameter

namespace Dictionary

/-! ## The whole -/

theorem platformsOfNode_toNode (limit : Nat) (p : Platforms) :
    platformsOfNode .json limit p.toJson.toNode = within p.toJson.depth limit p := by
  have names : p.toJson = .list (p.names.map fun n => .text n.text) := by
    simp [Platforms.toJson, Json.texts]
  have read (limit : Nat) (n : Platforms.Name) :
      Node.name Platforms.Name.every Platforms.Name.text .json limit (Json.text n.text).toNode =
        .ok n := by
    cases n <;> rfl
  rw [platformsOfNode, names, Node.listOf_toNode (fun _ => rfl) read, within_map,
    Platforms.ofNames_names]

variable {limit : Nat} {draft : Draft}

theorem reads_keys (keys : List String) (fresh : draft.keys = none) :
    (reader .json).Reads limit draft [("keys", Json.texts keys)]
      { draft with keys := some keys } := by
  refine RecordReader.reads_field (by decide) ?_
  simp only [reader, beq_self_eq_true, if_true, Node.texts_toNode]
  exact within_once _ fresh (fun keys => { draft with keys }) _ _ keys

theorem reads_platforms (platforms : Platforms) (fresh : draft.platforms = none) :
    (reader .json).Reads limit draft [("platforms", platforms.toJson)]
      { draft with platforms := some platforms } := by
  refine RecordReader.reads_field (by decide) ?_
  simp only [reader, String.reduceBEq, Bool.false_eq_true, if_false, if_true,
    platformsOfNode_toNode]
  exact within_once _ fresh (fun platforms => { draft with platforms }) _ _ platforms

theorem reads_name (name : String) (fresh : draft.name = none) :
    (reader .json).Reads limit draft [("name", .text name)] { draft with name := some name } := by
  refine RecordReader.reads_field (by decide) ?_
  simp only [reader, String.reduceBEq, Bool.false_eq_true, if_false, if_true,
    Node.text_toNode limit]
  exact within_once _ fresh (fun name => { draft with name }) _ _ name

theorem reads_description (description : String) (fresh : draft.description = none) :
    (reader .json).Reads limit draft (Json.unlessEmpty "description" description)
      { draft with description := if description.isEmpty then none else some description } := by
  unfold Json.unlessEmpty
  cases empty : description.isEmpty with
  | true => simpa [← fresh] using RecordReader.reads_nil draft
  | false =>
      refine RecordReader.reads_field (by decide) ?_
      simp only [reader, String.reduceBEq, Bool.false_eq_true, if_false, if_true,
        Node.text_toNode limit]
      exact within_once _ fresh (fun description => { draft with description }) _ _ description

theorem reads_parameters (parameters : List (Parameter Source)) (fresh : draft.parameters = none) :
    (reader .json).Reads limit draft [("parameters", .list (Parameter.listToJson parameters))]
      { draft with parameters := some parameters } := by
  refine RecordReader.reads_field (by decide) ?_
  have read := Parameter.listOfNode_toNode
    (fun limit => Parameter.ofItems_listToJson limit parameters) limit
  simp only [reader, String.reduceBEq, Bool.false_eq_true, if_false, read]
  exact within_once _ fresh (fun parameters => { draft with parameters }) _ _ parameters

def Draft.of (d : Dictionary Source) : Draft where
  keys := some d.keys
  platforms := some d.platforms
  name := some d.name
  description := if d.description.isEmpty then none else some d.description
  parameters := some d.parameters

theorem Draft.finish_of (d : Dictionary Source) : (Draft.of d).finish = d := by
  simp only [finish, of, Option.getD_some, getD_unlessEmpty]

theorem ofNode_toJson (d : Dictionary Source) :
    ofNode .json d.toJson.toNode = within d.toJson.depth Format.json.maxDepth d := by
  have read (limit : Nat) : (reader .json).Reads limit {} _ (Draft.of d) :=
    (((reads_keys d.keys rfl).append (reads_platforms d.platforms rfl)).append
      ((reads_name d.name rfl).append (reads_description d.description rfl))).append
      (reads_parameters d.parameters rfl)
  have whole : (reader .json).readNode .json Format.json.maxDepth {} d.toJson.toNode =
      within d.toJson.depth Format.json.maxDepth (Draft.of d) :=
    RecordReader.readNode_toNode read .json Format.json.maxDepth
  rw [ofNode, whole, within_map, Draft.finish_of]

/-- A written dictionary reads back, if it is nested no deeper than documents may be. -/
theorem written_reads_back (d : Dictionary Source) :
    Document.read (ofNode .json) { root := d.toJson.toNode } =
      if d.toJson.depth ≤ Format.json.maxDepth then .ok d else .error (.flaw .malformed) := by
  rw [Document.read, ofNode_toJson, within]
  by_cases fits : d.toJson.depth ≤ Format.json.maxDepth
  · simp [fits]
  · simp [fits]

end Dictionary

end LineCompletion

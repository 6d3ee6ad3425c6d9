import LineCompletion.Document.Record
import LineCompletion.Json.Value

/-! # Reading values that were written

A value nests its lists and maps so deep, and a reader has so much depth left. What reads the parts
of a written value back fails only where the depth does not suffice, and always in the same way.
-/

namespace LineCompletion

namespace Json

mutual

/-- How deep lists and maps are nested in a value. -/
def depth : Json → Nat
  | .null => 0
  | .bool _ => 0
  | .int _ => 0
  | .text _ => 0
  | .list xs => itemsDepth xs + 1
  | .map members => membersDepth members + 1

def itemsDepth : List Json → Nat
  | [] => 0
  | x :: rest => max (depth x) (itemsDepth rest)

def membersDepth : List (String × Json) → Nat
  | [] => 0
  | (_, x) :: rest => max (depth x) (membersDepth rest)

end

mutual

def toData : Json → Data
  | .null => .null
  | .bool b => .bool b
  | .int n => .int n
  | .text s => .text s
  | .list xs => .list (itemsData xs)
  | .map members => .map (membersData members)

def itemsData : List Json → List Data
  | [] => []
  | x :: rest => toData x :: itemsData rest

def membersData : List (String × Json) → List (Data × Data)
  | [] => []
  | (name, x) :: rest => (.text name, toData x) :: membersData rest

end

theorem membersDepth_append (before after : List (String × Json)) :
    membersDepth (before ++ after) = max (membersDepth before) (membersDepth after) := by
  induction before with
  | nil => simp [membersDepth]
  | cons member rest ih => simp [membersDepth, ih, Nat.max_assoc]

end Json

/-- What reading a value of some depth comes to where only so much is left. -/
def within {α : Type} (depth limit : Nat) (a : α) : Except DocumentError α :=
  if depth ≤ limit then .ok a else .error (.flaw .malformed)

section Within

variable {α β : Type}

@[simp] theorem within_zero (limit : Nat) (a : α) : within 0 limit a = .ok a := by
  simp [within]

@[simp] theorem within_succ_zero (depth : Nat) (a : α) :
    within (depth + 1) 0 a = .error (.flaw .malformed) := by
  simp [within]

@[simp] theorem within_succ_succ (depth limit : Nat) (a : α) :
    within (depth + 1) (limit + 1) a = within depth limit a := by
  simp [within]

theorem within_map (f : α → β) (depth limit : Nat) (a : α) :
    (within depth limit a).map f = within depth limit (f a) := by
  unfold within
  split <;> rfl

theorem within_once (duplicate : DocumentError) {before : Option α} (fresh : before = none)
    (set : Option α → β) (depth limit : Nat) (a : α) :
    (once duplicate before (within depth limit a) >>= fun given => pure (set given)) =
      within depth limit (set (some a)) := by
  rw [fresh]
  by_cases fits : depth ≤ limit
  · simp only [once, within, fits, if_true]
    rfl
  · simp only [once, within, fits, if_false]
    rfl

theorem within_max (first second limit : Nat) (a : α) :
    within (max first second) limit a =
      if first ≤ limit then within second limit a else .error (.flaw .malformed) := by
  simp only [within, Nat.max_le]
  by_cases fits : first ≤ limit
  · simp only [fits, true_and, if_true]
  · simp only [fits, false_and, if_false]

theorem within_bind {f : α → Except DocumentError β} {first second limit : Nat} {a : α} {b : β}
    (next : f a = within second limit b) :
    (within first limit a).bind f = within (max first second) limit b := by
  rw [within_max]
  by_cases fits : first ≤ limit
  · simp [within, Except.bind, fits, next]
  · simp [within, Except.bind, fits]

end Within

namespace Node

open Json

mutual

theorem data_toNode (limit : Nat) : (j : Json) →
    j.toNode.data limit = within j.depth limit j.toData
  | .null => by simp [toNode, data, depth, toData]
  | .bool b => by simp [toNode, data, depth, toData]
  | .int n => by simp [toNode, data, depth, toData]
  | .text s => by simp [toNode, data, depth, toData]
  | .list xs => by
      cases limit with
      | zero => simp [toNode, data, descend, depth]
      | succ limit =>
          simp only [toNode, data, descend, depth, toData, within_succ_succ,
            dataItems_toItems limit xs, within_map]
  | .map members => by
      cases limit with
      | zero => simp [toNode, data, descend, depth]
      | succ limit =>
          simp only [toNode, data, descend, depth, toData, within_succ_succ,
            dataMembers_toMembers limit members, within_map]

theorem dataItems_toItems (limit : Nat) : (xs : List Json) →
    dataItems limit (toItems xs) = within (itemsDepth xs) limit (itemsData xs)
  | [] => by simp [toItems, dataItems, itemsDepth, itemsData]
  | x :: rest => by
      simp only [toItems, dataItems, itemsDepth, itemsData, data_toNode limit x,
        dataItems_toItems limit rest, within_map]
      rw [within_max]
      by_cases fits : x.depth ≤ limit
      · simp [within, fits]
      · simp [within, fits]

theorem dataMembers_toMembers (limit : Nat) : (members : List (String × Json)) →
    dataMembers limit (toMembers members) =
      within (membersDepth members) limit (membersData members)
  | [] => by simp [toMembers, dataMembers, membersDepth, membersData]
  | (name, x) :: rest => by
      simp only [toMembers, dataMembers, data, membersDepth, membersData, data_toNode limit x,
        dataMembers_toMembers limit rest, within_map]
      rw [within_max]
      by_cases fits : x.depth ≤ limit
      · simp [within, fits]
      · simp [within, fits]

end

end Node

section Lists

open Json

variable {α : Type} {form : α → Json}

theorem Items.each_toItems {f : Node → Except DocumentError α}
    (read : ∀ a, f (form a).toNode = .ok a) (as : List α) :
    each f (toItems (as.map form)) = .ok as := by
  induction as with
  | nil => rfl
  | cons a rest ih => simp [toItems, each, read, ih, Except.map]

theorem Json.itemsDepth_map (flat : ∀ a, (form a).depth = 0) (as : List α) :
    itemsDepth (as.map form) = 0 := by
  induction as with
  | nil => rfl
  | cons a rest ih => simp [itemsDepth, flat, ih]

theorem Node.listOf_toNode {f : Nat → Node → Except DocumentError α}
    (flat : ∀ a, (form a).depth = 0) (read : ∀ limit a, f limit (form a).toNode = .ok a)
    (limit : Nat) (as : List α) :
    (Json.list (as.map form)).toNode.listOf limit f =
      within (Json.list (as.map form)).depth limit as := by
  cases limit with
  | zero => simp [toNode, listOf, descend, depth]
  | succ limit =>
      simp [toNode, listOf, descend, depth, itemsDepth_map flat, Items.each_toItems (read limit)]

theorem Node.text_toNode (limit : Nat) (s : String) :
    (Json.text s).toNode.text = within (Json.text s).depth limit s := by
  simp [toNode, text, depth]

theorem Node.bool_toNode (limit : Nat) (b : Bool) :
    (Json.bool b).toNode.bool = within (Json.bool b).depth limit b := by
  simp [toNode, bool, depth]

theorem Node.texts_toNode (limit : Nat) (ss : List String) :
    (Json.texts ss).toNode.texts limit = within (Json.texts ss).depth limit ss :=
  listOf_toNode (fun _ => rfl) (fun _ _ => rfl) limit ss

theorem Data.listOf_itemsData {f : Data → Except SchemaError α}
    (read : ∀ a, f (form a).toData = .ok a) (as : List α) :
    (Data.list (itemsData (as.map form))).listOf f = .ok as := by
  induction as with
  | nil => rfl
  | cons a rest ih =>
      simp only [listOf, List.map_cons, itemsData, List.mapM_cons, read] at ih ⊢
      rw [ih]
      rfl

end Lists

section Members

open Json

variable {δ : Type}

theorem Data.readEntries_field {fields : List String}
    {read : String → Data → δ → Except SchemaError δ} {name : String} {value : Data}
    {draft next : δ}
    (known : fields.contains name = true) (given : read name value draft = .ok next)
    (rest : List (Data × Data)) :
    readEntries fields read draft ((.text name, value) :: rest) =
      readEntries fields read next rest := by
  simp only [readEntries, field?, known, if_true, given]

theorem Data.readEntries_other {fields : List String}
    {read : String → Data → δ → Except SchemaError δ} {name : String} {value : Data} {draft : δ}
    (unknown : fields.contains name = false) (rest : List (Data × Data)) :
    readEntries fields read draft ((.text name, value) :: rest) =
      readEntries fields read draft rest := by
  simp only [readEntries, field?, unknown, Bool.false_eq_true, if_false]

namespace RecordReader

variable {r : RecordReader δ} {limit : Nat}

theorem readMembers_append (draft : δ) (before after : List (String × Json)) :
    r.readMembers limit draft (toMembers (before ++ after)) =
      (r.readMembers limit draft (toMembers before)).bind fun draft =>
        r.readMembers limit draft (toMembers after) := by
  induction before generalizing draft with
  | nil => rfl
  | cons member rest ih =>
      obtain ⟨name, x⟩ := member
      simp only [List.cons_append, toMembers, readMembers, Node.text]
      cases r.fields.contains name with
      | true =>
          simp only [if_true]
          cases r.read limit name x.toNode draft with
          | error e => rfl
          | ok draft => exact ih draft
      | false =>
          simp only [Bool.false_eq_true, if_false]
          cases x.toNode.skip with
          | error e => rfl
          | ok _ => exact ih draft

/-- Reading members of a map leads from one draft to another, unless they are nested too deep. -/
def Reads (r : RecordReader δ) (limit : Nat) (draft : δ) (members : List (String × Json))
    (next : δ) : Prop :=
  r.readMembers limit draft (toMembers members) = within (membersDepth members) limit next

theorem reads_nil (draft : δ) : r.Reads limit draft [] draft := by
  simp [Reads, toMembers, readMembers, membersDepth]

theorem reads_field {name : String} {x : Json} {draft next : δ}
    (known : r.fields.contains name = true)
    (read : r.read limit name x.toNode draft = within x.depth limit next) :
    r.Reads limit draft [(name, x)] next := by
  simp only [Reads, toMembers, readMembers, Node.text, known, if_true, read, membersDepth,
    Nat.max_zero]
  by_cases fits : x.depth ≤ limit
  · simp [within, fits]
  · simp [within, fits]

theorem Reads.append {draft next last : δ} {before after : List (String × Json)}
    (first : r.Reads limit draft before next) (second : r.Reads limit next after last) :
    r.Reads limit draft (before ++ after) last := by
  unfold Reads at first ⊢
  rw [readMembers_append, first, membersDepth_append]
  exact within_bind second

theorem readNode_toNode {draft next : δ} {members : List (String × Json)}
    (read : ∀ limit, r.Reads limit draft members next) (format : Format) (limit : Nat) :
    r.readNode format limit draft (Json.map members).toNode =
      within (Json.map members).depth limit next := by
  cases limit with
  | zero => simp [toNode, readNode, Node.descend, depth]
  | succ limit =>
      simp only [toNode, readNode, Node.descend, depth, within_succ_succ]
      exact read limit

end RecordReader

end Members

end LineCompletion

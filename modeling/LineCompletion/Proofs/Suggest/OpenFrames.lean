import Mathlib.Data.List.Basic
import LineCompletion.Proofs.Suggest.OfferedKeys

/-! # Frames stay open

A word uses up at most one slot and opens at most one frame; no frame is closed, and no used slot is
free again. So a slot is found at the same site, counted from the outermost frame, in every later
walk, and a recursive parameter is offered and found from there on.
-/

namespace LineCompletion

variable {σ : Type}

theorem Frame.getElem?_use (i j : Nat) (f : Frame σ) :
    (use i f)[j]? = f[j]?.map fun s => if i = j then { s with used := true } else s := by
  induction f generalizing i j with
  | nil => cases i <;> simp [use]
  | cons s rest ih =>
      cases i with
      | zero => cases j <;> simp [use]
      | succ i =>
          cases j with
          | zero => simp [use]
          | succ j => simpa [use] using ih i j

theorem Frame.find?_eq_none_iff {p : Slot σ → Bool} {f : Frame σ} :
    f.find? p = none ↔ ∀ s ∈ f, p s = false := by
  rw [← Option.map_eq_none_iff (f := Prod.snd), Frame.find?_slot, List.find?_eq_none]
  simp

theorem Parameter.matchesKey_of_mem {p : Parameter σ} {key : String} (member : key ∈ p.keys) :
    p.matchesKey key = true :=
  List.any_eq_true.mpr ⟨key, member, by simp [Text.equalAsciiCase]⟩

/-- Where a slot is: its frame, counted from the outermost one, and its index there. -/
@[ext]
structure Site where
  depth : Nat
  index : Nat
  deriving Repr, DecidableEq

namespace Walk

def site (w : Walk σ) (hit : Hit σ) : Site where
  depth := w.frames.length - 1 - hit.up
  index := hit.index

def slot? (w : Walk σ) (site : Site) : Option (Slot σ) :=
  w.frames.reverse[site.depth]?.bind fun f => f[site.index]?

theorem slot?_eq_some_iff {w : Walk σ} {site : Site} {s : Slot σ} :
    w.slot? site = some s ↔
      ∃ f, w.frames.reverse[site.depth]? = some f ∧ f[site.index]? = some s :=
  Option.bind_eq_some_iff

theorem getElem?_reverse_up {α : Type} {as : List α} {up : Nat} {a : α} (found : as[up]? = some a) :
    as.reverse[as.length - 1 - up]? = some a := by
  have inside := (List.getElem?_eq_some_iff.mp found).1
  rw [List.getElem?_reverse (by omega), ← found]
  congr 1
  omega

theorem slot?_site {w : Walk σ} {hit : Hit σ} {s : Slot σ} (place : w.At hit s) :
    w.slot? (w.site hit) = some s := by
  obtain ⟨f, frame, slot, _⟩ := place
  exact slot?_eq_some_iff.mpr ⟨f, getElem?_reverse_up frame, slot⟩

/-! ## What a word leaves of a slot -/

/-- A walk that comes after another one: every slot is still there, and is used up if it was. -/
def LeadsTo (w next : Walk σ) : Prop :=
  ∀ site s, w.slot? site = some s →
    ∃ t, next.slot? site = some t ∧ t.parameter = s.parameter ∧ (s.used = true → t.used = true)

theorem LeadsTo.refl (w : Walk σ) : w.LeadsTo w := by
  intro site s found
  exact ⟨s, found, rfl, id⟩

theorem LeadsTo.trans {w middle next : Walk σ} (first : w.LeadsTo middle)
    (second : middle.LeadsTo next) : w.LeadsTo next := by
  intro site s found
  obtain ⟨t, there, same, used⟩ := first site s found
  obtain ⟨u, still, parameter, kept⟩ := second site t there
  exact ⟨u, still, parameter.trans same, fun own => kept (used own)⟩

theorem LeadsTo.pending {w next : Walk σ} (leads : w.LeadsTo next) (p : Option (Parameter σ)) :
    w.LeadsTo { next with pending := p } :=
  leads

theorem leadsTo_enter (w : Walk σ) (p : Parameter σ) : w.LeadsTo (w.enter p) := by
  rcases enter_eq w p with same | opened
  · rw [same]
    exact .refl w
  · rw [opened]
    intro site s found
    obtain ⟨f, frame, slot⟩ := slot?_eq_some_iff.mp found
    refine ⟨s, slot?_eq_some_iff.mpr ⟨f, ?_, slot⟩, rfl, id⟩
    -- the new frame is the innermost, so it is last from the outermost one on
    have inside := (List.getElem?_eq_some_iff.mp frame).1
    rw [List.reverse_cons, List.getElem?_append_left inside, frame]

theorem slot?_useUp {w : Walk σ} {hit : Hit σ} (inside : hit.up < w.frames.length)
    (once : hit.parameter.recursive = false) (site : Site) :
    (w.useUp hit).slot? site =
      (w.slot? site).map fun s => if w.site hit = site then { s with used := true } else s := by
  have depth {k : Nat} (open? : k < w.frames.length) :
      hit.up = w.frames.length - 1 - k ↔ w.frames.length - 1 - hit.up = k := by
    omega
  simp only [slot?, useUp, once, Bool.false_eq_true, if_false]
  by_cases open? : site.depth < w.frames.length
  · rw [List.getElem?_reverse (by simpa using open?), List.getElem?_reverse open?,
      List.length_modify, List.getElem?_modify]
    cases w.frames[w.frames.length - 1 - site.depth]? with
    | none => rfl
    | some f =>
        simp only [depth open?, Walk.site, Site.ext_iff]
        by_cases same : w.frames.length - 1 - hit.up = site.depth
        · simp [same, Frame.getElem?_use]
        · simp [same]
  · rw [List.getElem?_eq_none (by simpa using open?), List.getElem?_eq_none (by simpa using open?)]
    rfl

theorem leadsTo_useUp {w : Walk σ} {hit : Hit σ} {s : Slot σ} (place : w.At hit s) :
    w.LeadsTo (w.useUp hit) := by
  cases recursive : hit.parameter.recursive with
  | true =>
      have same : w.useUp hit = w := by simp [useUp, recursive]
      rw [same]
      exact .refl w
  | false =>
      obtain ⟨f, frame, _⟩ := place
      have inside := (List.getElem?_eq_some_iff.mp frame).1
      intro site t found
      refine ⟨_, by rw [slot?_useUp inside recursive, found, Option.map_some], ?_, ?_⟩
      · split <;> rfl
      · intro used
        split
        · rfl
        · exact used

theorem leadsTo_select {w : Walk σ} {hit : Hit σ} {s : Slot σ} (place : w.At hit s)
    (bound : Bool) : w.LeadsTo (w.select hit bound) := by
  have used := leadsTo_useUp place
  simp only [select]
  split
  · exact used.pending _
  · exact used.trans (leadsTo_enter _ _)

theorem leadsTo_consume (w : Walk σ) (token : Token) : w.LeadsTo (w.consume token) := by
  cases pending : w.pending with
  | some p =>
      simp only [consume, pending, bindPending]
      exact ((LeadsTo.refl w).pending none).trans (leadsTo_enter _ p)
  | none =>
      rw [consume_eq_select pending]
      cases selected : w.selection? token with
      | none => exact .refl w
      | some found =>
          obtain ⟨s, place⟩ := selection?_located selected
          exact leadsTo_select place found.2

theorem leadsTo_foldl (tokens : List Token) (w : Walk σ) :
    w.LeadsTo (tokens.foldl consume w) := by
  induction tokens generalizing w with
  | nil => exact .refl w
  | cons token rest ih => exact (leadsTo_consume w token).trans (ih (w.consume token))

/-! ## Slots of recursive parameters -/

theorem mem_scopes_iff {w : Walk σ} {p : Parameter σ} :
    (∃ ps ∈ w.scopes, p ∈ ps) ↔ ∃ site s, w.slot? site = some s ∧ s.parameter = p := by
  constructor
  · rintro ⟨ps, scope, member⟩
    obtain ⟨f, frame, rfl⟩ := List.mem_map.mp scope
    obtain ⟨s, slot, rfl⟩ := List.mem_map.mp member
    obtain ⟨depth, at?⟩ := List.mem_iff_getElem?.mp (List.mem_reverse.mpr frame)
    obtain ⟨index, here⟩ := List.mem_iff_getElem?.mp slot
    exact ⟨⟨depth, index⟩, s, slot?_eq_some_iff.mpr ⟨f, at?, here⟩, rfl⟩
  · rintro ⟨site, s, found, rfl⟩
    obtain ⟨f, frame, slot⟩ := slot?_eq_some_iff.mp found
    have member := List.mem_reverse.mp (List.mem_of_getElem? frame)
    exact ⟨_, List.mem_map_of_mem member, List.mem_map_of_mem (List.mem_of_getElem? slot)⟩

theorem findKeyedFrom_ne_none {text : String} {frames : List (Frame σ)} {f : Frame σ} {s : Slot σ}
    (frame : f ∈ frames) (slot : s ∈ f) (selects : s.parameter.matchesKey text = true)
    (recursive : s.parameter.recursive = true) (up : Nat) :
    findKeyedFrom text up frames ≠ none := by
  induction frames generalizing up with
  | nil => simp at frame
  | cons g rest ih =>
      intro missed
      simp only [findKeyedFrom] at missed
      split at missed
      · simp at missed
      · rename_i none
        rcases List.mem_cons.mp frame with rfl | member
        · have other := Frame.find?_eq_none_iff.mp none s slot
          simp [keyed, selects, recursive] at other
        · exact ih member (up + 1) missed

theorem recursive_at_hand {w : Walk σ} {ps : List (Parameter σ)} (scope : ps ∈ w.scopes)
    {p : Parameter σ} (member : p ∈ ps) (recursive : p.recursive = true) (free : w.pending = none) :
    (p.keys ≠ [] → ∀ flagsOnly, .key p ∈ w.enumerate flagsOnly) ∧
      ∀ key ∈ p.keys, ∃ hit, w.findKeyed key = some hit := by
  obtain ⟨f, frame, rfl⟩ := List.mem_map.mp scope
  obtain ⟨s, slot, rfl⟩ := List.mem_map.mp member
  constructor
  · intro keys flagsOnly
    have offered : Candidate.key s.parameter ∈ recursiveCandidates f :=
      List.mem_map.mpr ⟨s, by simp [slot, recursive, keys], rfl⟩
    simp only [enumerate, free]
    exact List.mem_append_right _ (List.mem_flatMap.mpr ⟨f, frame, offered⟩)
  · intro key own
    have selects := Parameter.matchesKey_of_mem own
    exact Option.ne_none_iff_exists'.mp (findKeyedFrom_ne_none frame slot selects recursive 0)

end Walk

/-- A recursive parameter of an open scope stays at hand: after any more words, unless a value is
pending, it is offered and each of its keys is found. -/
theorem Dictionary.recursive_parameter_stays (d : Dictionary σ) (tokens : List Token)
    {ps : List (Parameter σ)} (scope : ps ∈ (d.walk tokens).scopes) {p : Parameter σ}
    (member : p ∈ ps) (recursive : p.recursive = true) (keyed : p.keys ≠ []) (more : List Token)
    (free : (d.walk (tokens ++ more)).pending = none) :
    (∀ flagsOnly, .key p ∈ (d.walk (tokens ++ more)).enumerate flagsOnly) ∧
      ∀ key ∈ p.keys, ∃ hit, (d.walk (tokens ++ more)).findKeyed key = some hit := by
  obtain ⟨site, s, found, same⟩ := Walk.mem_scopes_iff.mp ⟨ps, scope, member⟩
  have leads := Walk.leadsTo_foldl more (d.walk tokens)
  rw [← walk_append] at leads
  obtain ⟨t, there, parameter, _⟩ := leads site s found
  obtain ⟨later, open?, inside⟩ := Walk.mem_scopes_iff.mpr ⟨site, t, there, parameter.trans same⟩
  obtain ⟨offered, keys⟩ := Walk.recursive_at_hand open? inside recursive free
  exact ⟨offered keyed, keys⟩

/-- A help flag for every depth, and a subcommand with a help flag of its own. -/
def Dictionary.withBothHelps : Dictionary Unit :=
  ((ofCommand "git").withParameter
    (.withParameter (.flag ["-h", "--help"] "Own") (.command "commit"))).withParameter
      (Parameter.flag ["--help"] "Help").markRecursive

/-- The flag is there after it was used, below a frame with a flag of the same key. -/
theorem Dictionary.recursive_parameter_stays_help :
    let p : Parameter Unit := (Parameter.flag ["--help"] "Help").markRecursive
    let more := [Token.parse "--help", Token.parse "commit"]
    withBothHelps.parameters ∈ (withBothHelps.walk []).scopes ∧
      p ∈ withBothHelps.parameters ∧ p.recursive = true ∧ p.keys ≠ [] ∧
      (withBothHelps.walk ([] ++ more)).pending = none ∧
      .key p ∈ (withBothHelps.walk ([] ++ more)).enumerate true ∧
      ∃ hit, (withBothHelps.walk ([] ++ more)).findKeyed "--help" = some hit := by
  intro p more
  have scope : withBothHelps.parameters ∈ (withBothHelps.walk []).scopes := by
    simp [walk]
  have member : p ∈ withBothHelps.parameters := .tail _ (.head _)
  have keyed : p.keys ≠ [] := by decide
  obtain ⟨offered, found⟩ :=
    recursive_parameter_stays withBothHelps [] scope member (by rfl) keyed more (by rfl)
  exact ⟨scope, member, by rfl, keyed, by rfl, offered true, found "--help" (.head _)⟩

end LineCompletion

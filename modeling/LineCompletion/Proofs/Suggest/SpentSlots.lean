import Mathlib.Data.List.Basic
import LineCompletion.Proofs.Suggest.OpenFrames

/-! # Slots are selected once

A word that selects a slot uses it up, unless its parameter is recursive. A slot that is used up is
passed over by every search in every later walk, and no candidate comes from it. Only the values
that its key waits for are offered, until the next word.
-/

namespace LineCompletion

variable {σ : Type}

namespace Walk

/-- A site whose slot is used up for good. -/
def Spent (w : Walk σ) (site : Site) : Prop :=
  ∃ s, w.slot? site = some s ∧ s.used = true ∧ s.parameter.recursive = false

theorem LeadsTo.spent {w next : Walk σ} (leads : w.LeadsTo next) {site : Site}
    (spent : w.Spent site) : next.Spent site := by
  obtain ⟨s, found, used, once⟩ := spent
  obtain ⟨t, there, same, kept⟩ := leads site s found
  exact ⟨t, there, kept used, same ▸ once⟩

theorem spent_select {w : Walk σ} {hit : Hit σ} {s : Slot σ} (place : w.At hit s)
    (once : hit.parameter.recursive = false) (bound : Bool) :
    (w.select hit bound).Spent (w.site hit) := by
  have here := slot?_site place
  obtain ⟨f, frame, _, same⟩ := place
  have inside := (List.getElem?_eq_some_iff.mp frame).1
  have used : (w.useUp hit).Spent (w.site hit) := by
    refine ⟨{ s with used := true }, ?_, rfl, same ▸ once⟩
    simp [slot?_useUp inside once, here]
  simp only [select]
  split
  · exact used
  · exact (leadsTo_enter _ _).spent used

theorem site_ne_of_spent {w : Walk σ} {site : Site} (spent : w.Spent site) {hit : Hit σ}
    {s : Slot σ} (place : w.At hit s) (open? : s.parameter.recursive = true ∨ s.used = false) :
    w.site hit ≠ site := by
  rintro rfl
  obtain ⟨t, there, used, once⟩ := spent
  obtain rfl := Option.some.inj ((slot?_site place).symm.trans there)
  rcases open? with recursive | unused
  · rw [once] at recursive
    exact Bool.false_ne_true recursive
  · rw [used] at unused
    exact Bool.noConfusion unused

theorem findKeyed_ne_spent {w : Walk σ} {site : Site} (spent : w.Spent site) {text : String}
    {hit : Hit σ} (found : w.findKeyed text = some hit) : w.site hit ≠ site := by
  obtain ⟨s, place, selects⟩ := findKeyed_located found
  apply site_ne_of_spent spent place
  have free := ((Bool.and_eq_true _ _).mp selects).2
  rw [Bool.or_eq_true, Bool.and_eq_true, Bool.not_eq_true'] at free
  exact free.imp id And.right

theorem findPositional_ne_spent {w : Walk σ} {site : Site} (spent : w.Spent site) {hit : Hit σ}
    (found : w.findPositional = some hit) : w.site hit ≠ site := by
  obtain ⟨s, place, _, _, unused⟩ := findPositional_located found
  exact site_ne_of_spent spent place (.inr unused)

theorem assignmentHit_ne_spent {w : Walk σ} {site : Site} (spent : w.Spent site) {token : Token}
    {hit : Hit σ} {a : Assignment} (found : w.assignmentHit token = some (hit, a)) :
    w.site hit ≠ site :=
  findKeyed_ne_spent spent (assignmentHit_located found).2.1

theorem selection?_ne_spent {w : Walk σ} {site : Site} (spent : w.Spent site) {token : Token}
    {hit : Hit σ} {bound : Bool} (selected : w.selection? token = some (hit, bound)) :
    w.site hit ≠ site := by
  rcases selection?_cases selected with
    ⟨⟨a, assigned⟩, _⟩ | ⟨_, keyed, _⟩ | ⟨_, _, _, positional, _⟩
  · exact assignmentHit_ne_spent spent assigned
  · exact findKeyed_ne_spent spent keyed
  · exact findPositional_ne_spent spent positional

/-- No search of a walk ends at a site, and no word selects the slot there. -/
structure Passed (w : Walk σ) (site : Site) : Prop where
  keyed : ∀ text hit, w.findKeyed text = some hit → w.site hit ≠ site
  positional : ∀ hit, w.findPositional = some hit → w.site hit ≠ site
  assigned : ∀ token hit a, w.assignmentHit token = some (hit, a) → w.site hit ≠ site
  selected : ∀ token hit bound, w.selection? token = some (hit, bound) → w.site hit ≠ site

theorem Spent.passed {w : Walk σ} {site : Site} (spent : w.Spent site) : w.Passed site where
  keyed _ _ := findKeyed_ne_spent spent
  positional _ := findPositional_ne_spent spent
  assigned _ _ _ := assignmentHit_ne_spent spent
  selected _ _ _ := selection?_ne_spent spent

/-- From the word that selects a slot on, its site is spent. -/
theorem spent_foldl {w : Walk σ} (free : w.pending = none) {token : Token} {hit : Hit σ}
    {bound : Bool} (selected : w.selection? token = some (hit, bound))
    (once : hit.parameter.recursive = false) (later : List Token) :
    ((token :: later).foldl consume w).Spent (w.site hit) := by
  obtain ⟨s, place⟩ := selection?_located selected
  have first : w.consume token = w.select hit bound := by
    rw [consume_eq_select free, selected]
  rw [List.foldl_cons, first]
  exact (leadsTo_foldl later _).spent (spent_select place once bound)

/-- The candidates that a walk has from the slot at a site: the free ones of the innermost frame
and the recursive ones of every frame. -/
def Contributes (w : Walk σ) (flagsOnly : Bool) (site : Site) (c : Candidate σ) : Prop :=
  ∃ s, w.slot? site = some s ∧
    (site.depth + 1 = w.frames.length ∧ c ∈ freeCandidate flagsOnly s ∨
      s.parameter.recursive = true ∧ s.parameter.keys ≠ [] ∧ c = .key s.parameter)

/-- While no value is pending, every candidate comes from a slot. -/
theorem mem_enumerate_iff {w : Walk σ} (free : w.pending = none) {flagsOnly : Bool}
    {c : Candidate σ} :
    c ∈ w.enumerate flagsOnly ↔ ∃ site, w.Contributes flagsOnly site c := by
  simp only [enumerate, free, List.mem_append, List.mem_flatMap]
  constructor
  · rintro (⟨s, slot, offered⟩ | ⟨f, frame, offered⟩)
    · -- a free slot is in the innermost frame, which is the last one from the outermost
      cases frames : w.frames with
      | nil => simp [frames] at slot
      | cons f rest =>
          rw [frames, List.head?_cons, Option.getD_some] at slot
          obtain ⟨index, here⟩ := List.mem_iff_getElem?.mp slot
          have innermost : w.frames.reverse[rest.length]? = some f := by
            simp [frames]
          refine ⟨⟨rest.length, index⟩, s, ?_, .inl ⟨by simp [frames], offered⟩⟩
          exact slot?_eq_some_iff.mpr ⟨f, innermost, here⟩
    · obtain ⟨s, own, rfl⟩ := List.mem_map.mp offered
      simp only [List.mem_filter, Bool.and_eq_true, Bool.not_eq_true', List.isEmpty_eq_false_iff]
        at own
      obtain ⟨depth, at?⟩ := List.mem_iff_getElem?.mp (List.mem_reverse.mpr frame)
      obtain ⟨index, here⟩ := List.mem_iff_getElem?.mp own.1
      exact ⟨⟨depth, index⟩, s, slot?_eq_some_iff.mpr ⟨f, at?, here⟩, .inr ⟨own.2.1, own.2.2, rfl⟩⟩
  · rintro ⟨site, s, found, from?⟩
    obtain ⟨f, frame, slot⟩ := slot?_eq_some_iff.mp found
    have inside := List.mem_of_getElem? slot
    rcases from? with ⟨innermost, offered⟩ | ⟨recursive, keys, rfl⟩
    · refine .inl ⟨s, ?_, offered⟩
      have last : w.frames.reverse.length = site.depth + 1 := by simp [innermost]
      have head : w.frames.head? = some f := by
        rw [← List.getLast?_reverse, List.getLast?_eq_getElem?, last]
        exact frame
      simpa [head] using inside
    · have member := List.mem_reverse.mp (List.mem_of_getElem? frame)
      exact .inr ⟨f, member, List.mem_map.mpr ⟨s, by simp [inside, recursive, keys], rfl⟩⟩

theorem Spent.not_contributes {w : Walk σ} {site : Site} (spent : w.Spent site) (flagsOnly : Bool)
    (c : Candidate σ) : ¬ w.Contributes flagsOnly site c := by
  rintro ⟨s, found, from?⟩
  obtain ⟨t, there, used, once⟩ := spent
  obtain rfl := Option.some.inj (found.symm.trans there)
  rcases from? with ⟨_, offered⟩ | ⟨recursive, _⟩
  · simp [freeCandidate, used] at offered
  · rw [once] at recursive
    exact Bool.false_ne_true recursive

theorem Spent.mem_enumerate_iff {w : Walk σ} {site : Site} (spent : w.Spent site)
    (free : w.pending = none) (flagsOnly : Bool) (c : Candidate σ) :
    c ∈ w.enumerate flagsOnly ↔ ∃ other, other ≠ site ∧ w.Contributes flagsOnly other c := by
  rw [Walk.mem_enumerate_iff free]
  constructor
  · rintro ⟨other, from?⟩
    refine ⟨other, ?_, from?⟩
    rintro rfl
    exact spent.not_contributes flagsOnly c from?
  · rintro ⟨other, _, from?⟩
    exact ⟨other, from?⟩

end Walk

theorem Dictionary.selected_of_pending {d : Dictionary σ} {words : List Token} {last : Token}
    {p : Parameter σ} (pending : (d.walk (words ++ [last])).pending = some p) :
    ∃ hit, (d.walk words).selection? last = some (hit, false) ∧ hit.parameter = p := by
  rw [walk_append, List.foldl_cons, List.foldl_nil] at pending
  cases before : (d.walk words).pending with
  | some q => simp [Walk.consume, before, Walk.bindPending] at pending
  | none =>
      rw [Walk.consume_eq_select before] at pending
      cases selected : (d.walk words).selection? last with
      | none => simp [selected, before] at pending
      | some found =>
          obtain ⟨hit, bound⟩ := found
          simp only [selected, Walk.select] at pending
          split at pending
          · rename_i waits
            obtain rfl := Walk.eq_false_of_waitsForValue waits
            exact ⟨hit, rfl, Option.some.inj pending⟩
          · simp [before] at pending

/-- A slot of a parameter that is not recursive is selected once: in every later walk no search
ends at its site and no word selects it. It has no candidate there, but for the values that its key
waits for right after the word that selected it. -/
theorem Dictionary.slot_selected_once (d : Dictionary σ) (before : List Token)
    (free : (d.walk before).pending = none) {token : Token} {hit : Hit σ} {bound : Bool}
    (selected : (d.walk before).selection? token = some (hit, bound))
    (once : hit.parameter.recursive = false) (later : List Token) :
    let site := (d.walk before).site hit
    let w := d.walk (before ++ token :: later)
    d.walk (before ++ [token]) = (d.walk before).select hit bound ∧ w.Spent site ∧ w.Passed site ∧
      ∀ flagsOnly,
        (w.pending = none → ∀ c,
          c ∈ w.enumerate flagsOnly ↔ ∃ other, other ≠ site ∧ w.Contributes flagsOnly other c) ∧
        ∀ p, w.pending = some p → w.enumerate flagsOnly = [.values p none] ∧
          (later = [] ∧ bound = false ∧ hit.parameter = p ∨
            ∃ middle last other, later = middle ++ [last] ∧
              (d.walk (before ++ token :: middle)).selection? last = some (other, false) ∧
              other.parameter = p ∧ (d.walk (before ++ token :: middle)).site other ≠ site) := by
  intro site w
  have spent (words : List Token) : (d.walk (before ++ token :: words)).Spent site := by
    rw [walk_append]
    exact Walk.spent_foldl free selected once words
  refine ⟨?_, spent later, (spent later).passed, ?_⟩
  · rw [walk_append, List.foldl_cons, Walk.consume_eq_select free, selected]
    rfl
  · intro flagsOnly
    refine ⟨fun still => (spent later).mem_enumerate_iff still flagsOnly, ?_⟩
    intro p pending
    refine ⟨by simp [w, Walk.enumerate, pending], ?_⟩
    -- only the last word can have left a value pending
    rcases List.eq_nil_or_concat' later with rfl | ⟨middle, last, rfl⟩
    · obtain ⟨other, own, same⟩ := selected_of_pending pending
      obtain ⟨rfl, rfl⟩ := Prod.mk.inj (Option.some.inj (selected.symm.trans own))
      exact .inl ⟨rfl, rfl, same⟩
    · have now : (d.walk (before ++ token :: middle ++ [last])).pending = some p := by
        simpa [w] using pending
      obtain ⟨other, own, same⟩ := selected_of_pending now
      have apart := (spent middle).passed.selected last other false own
      exact .inr ⟨middle, last, other, rfl, own, same, apart⟩

/-- A subcommand that may be entered again below itself, with a place in each of its scopes. -/
def Dictionary.nested : Dictionary Unit :=
  (ofCommand "tool").withParameter
    (Parameter.withParameter (.value ["--in"] "Place") (.command "at")).markRecursive

/-- The same parameter is free again in a scope that was opened again, but at another site. -/
theorem Dictionary.slot_selected_once_nested :
    let before := [Token.parse "at"]
    let place : Hit Unit := { up := 0, index := 0, parameter := .value ["--in"] "Place" }
    let w := nested.walk (before ++ Token.parse "--in=here" :: [Token.parse "at"])
    (nested.walk before).pending = none ∧
      (nested.walk before).selection? (Token.parse "--in=here") = some (place, true) ∧
      place.parameter.recursive = false ∧
      w.findKeyed "--in" = some place ∧ w.site place ≠ (nested.walk before).site place ∧
      .key place.parameter ∈ w.enumerate false ∧
      ∃ other, other ≠ (nested.walk before).site place ∧
        w.Contributes false other (.key place.parameter) := by
  intro before place w
  have selected : (nested.walk before).selection? (Token.parse "--in=here") =
      some (place, true) := by rfl
  have found : w.findKeyed "--in" = some place := by rfl
  have offered : .key place.parameter ∈ w.enumerate false := .head _
  obtain ⟨_, _, passed, offers⟩ :=
    slot_selected_once nested before (by rfl) selected (by rfl) [Token.parse "at"]
  exact ⟨by rfl, selected, by rfl, found, passed.keyed _ _ found, offered,
    ((offers false).1 (by rfl) _).mp offered⟩

def Dictionary.single : Dictionary Source :=
  (ofCommand "tool").withParameter <|
    (Parameter.value ["--mode"] "Mode").withSource
      { name := "Modes", provider := .fixed [{ name := "fast" }] }

def Dictionary.singleSlot : Slot Source where
  parameter := single.parameters.head (by decide)
  used := true

/-- Its only slot is selected by the key, and then its values are offered: a candidate need not come
from another slot. -/
theorem Dictionary.selected_slot_offered :
    ¬ ∀ d : Dictionary Source, ∀ before, (d.walk before).pending = none → ∀ token hit bound,
      (d.walk before).selection? token = some (hit, bound) → hit.parameter.recursive = false →
        ∀ later flagsOnly, ∀ c ∈ (d.walk (before ++ token :: later)).enumerate flagsOnly,
          ∃ other s, other ≠ (d.walk before).site hit ∧
            (d.walk (before ++ token :: later)).slot? other = some s ∧
            (c = .key s.parameter ∨ c = .values s.parameter none) := by
  intro every
  obtain ⟨⟨depth, index⟩, s, other, found, _⟩ := every single [] (by rfl) (Token.parse "--mode") _ _
    (by rfl) (by rfl) [] false _ (.head _)
  obtain ⟨f, frame, slot⟩ := Walk.slot?_eq_some_iff.mp found
  have frames : (single.walk ([] ++ [Token.parse "--mode"])).frames = [[singleSlot]] := by rfl
  rw [frames] at frame
  obtain ⟨rfl, rfl⟩ : depth = 0 ∧ f = _ := by
    simpa [List.getElem?_singleton, eq_comm] using frame
  obtain ⟨rfl, _⟩ : index = 0 ∧ s = _ := by
    simpa [List.getElem?_singleton, eq_comm] using slot
  exact other (by rfl)

end LineCompletion

import LineCompletion.Proofs.Library.History

/-! # What a library answers

Under each name a library stores the dictionary that was put in last under it, unless the name was
taken out since. The index of command words is kept beside the names and never leads astray: what
answers a word is stored and has a key for it.
-/

namespace LineCompletion

variable {σ : Type}

namespace Library

/-- What a change leaves under a name, if it is about that name. -/
def Change.leaves? (name : String) : Change σ → Option (Option (Dictionary σ))
  | .insert d => if d.name = name then some (some d) else none
  | .erase other => if other = name then some none else none

/-- The dictionary that was put in last under a name, unless the name was taken out since. -/
def standing? (changes : List (Change σ)) (name : String) : Option (Dictionary σ) :=
  (changes.reverse.findSome? (Change.leaves? name)).join

theorem standing?_concat (changes : List (Change σ)) (c : Change σ) (name : String) :
    standing? (changes ++ [c]) name = (c.leaves? name).getD (standing? changes name) := by
  rw [standing?, List.reverse_append, List.reverse_singleton, List.singleton_append,
    List.findSome?_cons]
  cases c.leaves? name with
  | none => rfl
  | some left => rfl

namespace Indexed

variable {l : Library σ} {claimant : String → Option (Dictionary σ)}

theorem byName?_insert (indexed : l.Indexed claimant) (d : Dictionary σ) (name : String) :
    (l.insert d).2.byName? name = if d.name = name then some d else l.byName? name := by
  ext e
  rw [(indexed.insert d).byName?_eq_some_iff, mem_insert]
  split
  · rename_i own
    constructor
    · rintro ⟨rfl | ⟨_, other⟩, named⟩
      · rfl
      · exact absurd (named.trans own.symm) other
    · intro same
      obtain rfl := Option.some.inj same
      exact ⟨.inl rfl, own⟩
  · rename_i other
    rw [indexed.byName?_eq_some_iff]
    constructor
    · rintro ⟨rfl | ⟨stored, _⟩, named⟩
      · exact absurd named other
      · exact ⟨stored, named⟩
    · rintro ⟨stored, named⟩
      exact ⟨.inr ⟨stored, fun same => other (same.symm.trans named)⟩, named⟩

theorem byName?_erase (indexed : l.Indexed claimant) (name other : String) :
    (l.erase name).2.byName? other = if name = other then none else l.byName? other := by
  ext e
  rw [(indexed.erase name).byName?_eq_some_iff, dictionaries_erase, List.mem_filter, bne_iff_ne]
  split
  · rename_i own
    simp only [reduceCtorEq, iff_false, not_and, and_imp]
    exact fun _ apart named => apart (named.trans own.symm)
  · rename_i apart
    rw [indexed.byName?_eq_some_iff]
    constructor
    · rintro ⟨⟨stored, _⟩, named⟩
      exact ⟨stored, named⟩
    · rintro ⟨stored, named⟩
      exact ⟨⟨stored, fun same => apart (same.symm.trans named)⟩, named⟩

end Indexed

theorem byName?_run (origin : Origin) (changes : List (Change σ)) (name : String) :
    (({ origin } : Library σ).run changes).byName? name = standing? changes name := by
  induction changes using List.reverseRecOn with
  | nil => rfl
  | append_singleton changes c ih =>
      have indexed := Indexed.run origin changes
      rw [standing?_concat, Library.run, List.foldl_append]
      cases c with
      | insert d =>
          refine (indexed.byName?_insert d name).trans ?_
          simp only [Change.leaves?, ih]
          split <;> rfl
      | erase other =>
          refine (indexed.byName?_erase other name).trans ?_
          simp only [Change.leaves?, ih]
          split <;> rfl

theorem fst_erase (l : Library σ) (name : String) : (l.erase name).1 = l.byName? name := by
  unfold erase
  cases found : l.byName? name <;> rfl

theorem fst_insert (l : Library σ) (d : Dictionary σ) : (l.insert d).1 = l.byName? d.name :=
  fst_erase l d.name

/-- Whatever was put in and taken out before: what answers a command word is stored under its own
name and has a key for the word, a dictionary that is put in answers all its keys at once, the names
are in order, and what a change gives back is what was stored under the name. A name that is taken
out answers nothing any more. -/
theorem index_sound (changes : List (Change σ)) :
    let l := ({} : Library σ).run changes
    (∀ command d, l.get? command = some d →
        l.byName? d.name = some d ∧ ∃ key ∈ d.keys, Text.lower key = Text.lower command) ∧
      (∀ d, ∀ key ∈ d.keys, (l.insert d).2.get? key = some d) ∧
      l.names.Pairwise (· < ·) ∧
      (∀ name, l.byName? name = standing? changes name) ∧
      (∀ d, (l.insert d).1 = standing? changes d.name) ∧
      (∀ name, (l.erase name).1 = standing? changes name) ∧
      ∀ name command d, (l.erase name).2.get? command = some d → d.name ≠ name := by
  intro l
  have indexed : l.Indexed (claimant? changes) := .run .memory changes
  have stores (name : String) : l.byName? name = standing? changes name :=
    byName?_run .memory changes name
  refine ⟨fun command d answered => ?_, fun d key own => ?_, List.pairwise_map.mpr indexed.sorted,
    stores, fun d => (fst_insert l d).trans (stores d.name),
    fun name => (fst_erase l name).trans (stores name), fun name command d answered => ?_⟩
  · obtain ⟨claimed, stored⟩ := indexed.get?_eq_some_iff.mp answered
    obtain ⟨key, own, same⟩ := List.any_eq_true.mp (indexed.claims command d claimed)
    exact ⟨indexed.byName?_eq_some_iff.mpr ⟨stored, rfl⟩, key, own, by simpa using same⟩
  · refine (indexed.insert d).get?_eq_some_iff.mpr ⟨?_, Indexed.mem_insert.mpr (.inl rfl)⟩
    rw [if_pos (Dictionary.claims_of_mem own)]
  · obtain ⟨_, stored⟩ := (indexed.erase name).get?_eq_some_iff.mp answered
    rw [Indexed.dictionaries_erase, List.mem_filter, bne_iff_ne] at stored
    exact stored.2

/-! ## Dictionaries put in one after the other -/

theorem ofList_eq_run (origin : Origin) (ds : List (Dictionary σ)) :
    ofList origin ds = ({ origin } : Library σ).run (ds.map .insert) := by
  rw [ofList, run, List.foldl_map]
  rfl

theorem claimant?_insert (ds : List (Dictionary σ)) (command : String) :
    claimant? (ds.map .insert) command = ds.reverse.find? (·.claims command) := by
  rw [claimant?, ← List.map_reverse]
  induction ds.reverse with
  | nil => rfl
  | cons d rest ih =>
      rw [List.map_cons, List.findSome?_cons, List.find?_cons, ih]
      simp only [Change.claim?]
      cases d.claims command <;> rfl

theorem indexed_ofList (origin : Origin) (ds : List (Dictionary σ)) :
    (ofList origin ds).Indexed fun command => ds.reverse.find? (·.claims command) := by
  rw [ofList_eq_run]
  have history : claimant? (ds.map .insert) = fun command =>
      ds.reverse.find? (·.claims command) := funext (claimant?_insert ds)
  exact history ▸ Indexed.run origin (ds.map .insert)

theorem mem_of_mem_ofList {origin : Origin} {ds : List (Dictionary σ)} {d : Dictionary σ}
    (stored : d ∈ (ofList origin ds).dictionaries) : d ∈ ds := by
  rw [ofList_eq_run] at stored
  obtain ⟨e, member, same⟩ := List.mem_map.mp (mem_of_mem_run stored)
  obtain rfl := Change.insert.inj same
  exact member

theorem standing?_insert (ds : List (Dictionary σ)) (name : String) :
    standing? (ds.map .insert) name = ds.reverse.find? (·.name == name) := by
  rw [standing?, ← List.map_reverse]
  induction ds.reverse with
  | nil => rfl
  | cons d rest ih =>
      rw [List.map_cons, List.findSome?_cons, List.find?_cons]
      by_cases own : d.name = name
      · simp [Change.leaves?, own]
      · have other : (d.name == name) = false := beq_eq_false_iff_ne.mpr own
        simpa [Change.leaves?, own, other] using ih

/-- Of the dictionaries of one name the last is stored. -/
theorem byName?_ofList (origin : Origin) (ds : List (Dictionary σ)) (name : String) :
    (ofList origin ds).byName? name = ds.reverse.find? (·.name == name) := by
  rw [ofList_eq_run, byName?_run, standing?_insert]

/-- The last dictionary with a key for a word answers it, unless a later one has its name. -/
theorem get?_ofList_eq_some_iff {origin : Origin} {ds : List (Dictionary σ)} {command : String}
    {d : Dictionary σ} :
    (ofList origin ds).get? command = some d ↔
      ds.reverse.find? (·.claims command) = some d ∧
        ds.reverse.find? (·.name == d.name) = some d := by
  have indexed := indexed_ofList origin ds
  rw [indexed.get?_eq_some_iff, ← byName?_ofList origin, indexed.byName?_eq_some_iff]
  simp

end Library

end LineCompletion

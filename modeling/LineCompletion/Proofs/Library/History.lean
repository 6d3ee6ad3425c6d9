import Mathlib.Data.List.Induction
import Mathlib.Data.List.Nodup
import Mathlib.Data.String.Basic
import LineCompletion.Library.Basic

/-! # The history of a library

A library begins empty and is changed by one dictionary at a time. A command word belongs to the
dictionary that was put in last with it. While that dictionary is stored it answers the word. Once
it is gone nobody does, not even a stored dictionary that has the word among its keys.
-/

namespace LineCompletion

variable {σ : Type}

/-- Whether some key has the lowercase form of a command word. -/
def Dictionary.claims (d : Dictionary σ) (command : String) : Bool :=
  d.keys.any fun key => Text.lower key == Text.lower command

theorem Dictionary.claims_of_mem {d : Dictionary σ} {key : String} (own : key ∈ d.keys) :
    d.claims key = true :=
  List.any_eq_true.mpr ⟨key, own, beq_self_eq_true _⟩

namespace Library

inductive Change (σ : Type) where
  | insert (d : Dictionary σ)
  | erase (name : String)

def Change.apply (l : Library σ) : Change σ → Library σ
  | .insert d => (l.insert d).2
  | .erase name => (l.erase name).2

def run (l : Library σ) (changes : List (Change σ)) : Library σ :=
  changes.foldl Change.apply l

/-- The dictionary that a change puts in with a command word. -/
def Change.claim? (command : String) : Change σ → Option (Dictionary σ)
  | .insert d => if d.claims command then some d else none
  | .erase _ => none

/-- The dictionary that was put in last with a command word, stored or not. -/
def claimant? (changes : List (Change σ)) (command : String) : Option (Dictionary σ) :=
  changes.reverse.findSome? (Change.claim? command)

theorem claimant?_concat (changes : List (Change σ)) (c : Change σ) (command : String) :
    claimant? (changes ++ [c]) command = (c.claim? command).or (claimant? changes command) := by
  rw [claimant?, List.reverse_append, List.reverse_singleton, List.singleton_append,
    List.findSome?_cons]
  cases c.claim? command with
  | none => rfl
  | some d => rfl

/-! ## Owners of words -/

theorem lookup_setOwner (word name w : String) (owners : List (String × String)) :
    (setOwner word name owners).lookup w = if w == word then some name else owners.lookup w := by
  induction owners with
  | nil =>
      simp only [setOwner, List.lookup_cons, List.lookup_nil]
      cases w == word <;> rfl
  | cons o rest ih =>
      obtain ⟨v, n⟩ := o
      simp only [setOwner]
      by_cases here : v = word
      · subst here
        simp only [beq_self_eq_true, if_true, List.lookup_cons]
        cases w == v <;> rfl
      · have other : (v == word) = false := beq_eq_false_iff_ne.mpr here
        simp only [other, Bool.false_eq_true, if_false, List.lookup_cons, ih]
        by_cases found : w = v
        · subst found
          simp [other]
        · have apart : (w == v) = false := beq_eq_false_iff_ne.mpr found
          simp [apart]

theorem mem_words_setOwner {word name w : String} {owners : List (String × String)}
    (member : w ∈ (setOwner word name owners).map Prod.fst) :
    w = word ∨ w ∈ owners.map Prod.fst := by
  induction owners with
  | nil => exact .inl (by simpa [setOwner] using member)
  | cons o rest ih =>
      obtain ⟨v, n⟩ := o
      simp only [setOwner] at member
      split at member
      · rcases List.mem_cons.mp member with same | later
        · exact .inl same
        · exact .inr (List.mem_cons_of_mem _ later)
      · rcases List.mem_cons.mp member with same | later
        · exact .inr (by simp [same])
        · rcases ih later with same | later
          · exact .inl same
          · exact .inr (List.mem_cons_of_mem _ later)

theorem nodup_setOwner {owners : List (String × String)} (distinct : (owners.map Prod.fst).Nodup)
    (word name : String) : ((setOwner word name owners).map Prod.fst).Nodup := by
  induction owners with
  | nil => simp [setOwner]
  | cons o rest ih =>
      obtain ⟨v, n⟩ := o
      obtain ⟨fresh, distinct⟩ := List.nodup_cons.mp distinct
      simp only [setOwner]
      split
      · rename_i here
        obtain rfl : v = word := by simpa using here
        exact List.nodup_cons.mpr ⟨fresh, distinct⟩
      · rename_i other
        refine List.nodup_cons.mpr ⟨?_, ih distinct⟩
        intro member
        rcases mem_words_setOwner member with same | later
        · exact other (beq_iff_eq.mpr same)
        · exact fresh later

theorem lookup_takeOver (keys : List String) (name command : String)
    (owners : List (String × String)) :
    (keys.foldl (fun o key => setOwner (Text.lower key) name o) owners).lookup
        (Text.lower command) =
      if keys.any fun key => Text.lower key == Text.lower command then some name
      else owners.lookup (Text.lower command) := by
  induction keys generalizing owners with
  | nil => rfl
  | cons key rest ih =>
      rw [List.foldl_cons, ih, lookup_setOwner, List.any_cons, Bool.beq_comm]
      cases Text.lower key == Text.lower command <;> simp

theorem nodup_takeOver {owners : List (String × String)}
    (distinct : (owners.map Prod.fst).Nodup) (keys : List String) (name : String) :
    ((keys.foldl (fun o key => setOwner (Text.lower key) name o) owners).map Prod.fst).Nodup := by
  induction keys generalizing owners with
  | nil => exact distinct
  | cons key rest ih => exact ih (nodup_setOwner distinct _ _)

/-- Where every word has one owner, all that a name owns can be taken away by the name. -/
theorem lookup_disown {owners : List (String × String)} (distinct : (owners.map Prod.fst).Nodup)
    (name w : String) :
    (owners.filter fun o => o.2 != name).lookup w = (owners.lookup w).filter (· != name) := by
  induction owners with
  | nil => rfl
  | cons o rest ih =>
      obtain ⟨v, n⟩ := o
      obtain ⟨fresh, distinct⟩ := List.nodup_cons.mp distinct
      have later := ih distinct
      by_cases found : w = v
      · subst found
        -- the word stands nowhere behind its first entry, so dropping that entry uncovers nothing
        have gone : rest.lookup w = none := by
          rw [List.lookup_eq_none_iff]
          rintro ⟨u, m⟩ member
          rw [bne_iff_ne]
          rintro rfl
          exact fresh (List.mem_map.mpr ⟨(w, m), member, rfl⟩)
        rw [gone] at later
        by_cases owned : n = name
        · simp [owned, later, Option.filter_some]
        · simp [owned, Option.filter_some]
      · have apart : (w == v) = false := beq_eq_false_iff_ne.mpr found
        by_cases owned : n = name
        · simp [owned, later, List.lookup_cons, apart]
        · simp [owned, later, List.lookup_cons, apart]

/-! ## The order of names -/

theorem mem_place {d e : Dictionary σ} {ds : List (Dictionary σ)} :
    e ∈ place d ds ↔ e = d ∨ e ∈ ds := by
  induction ds with
  | nil => simp [place]
  | cons first rest ih =>
      simp only [place]
      split
      · exact List.mem_cons
      · rw [List.mem_cons, ih, List.mem_cons]
        exact or_left_comm

theorem sorted_place {d : Dictionary σ} {ds : List (Dictionary σ)}
    (sorted : ds.Pairwise fun a b => a.name < b.name) (fresh : ∀ e ∈ ds, e.name ≠ d.name) :
    (place d ds).Pairwise fun a b => a.name < b.name := by
  induction ds with
  | nil => simp [place]
  | cons first rest ih =>
      obtain ⟨least, sorted⟩ := List.pairwise_cons.mp sorted
      simp only [place]
      split
      · rename_i before
        refine List.pairwise_cons.mpr ⟨?_, List.pairwise_cons.mpr ⟨least, sorted⟩⟩
        intro e member
        rcases List.mem_cons.mp member with rfl | later
        · exact before
        · exact lt_trans before (least e later)
      · rename_i notBefore
        have behind : first.name < d.name :=
          lt_of_le_of_ne (not_lt.mp notBefore) (fresh first (by simp))
        refine List.pairwise_cons.mpr
          ⟨?_, ih sorted fun e member => fresh e (List.mem_cons_of_mem _ member)⟩
        intro e member
        rcases mem_place.mp member with rfl | later
        · exact behind
        · exact least e later

/-! ## Index and history -/

/-- The names are in order, every word has one owner, and the owners are those who claimed their
words last, as far as they are stored. -/
structure Indexed (l : Library σ) (claimant : String → Option (Dictionary σ)) : Prop where
  sorted : l.dictionaries.Pairwise fun a b => a.name < b.name
  distinct : (l.owners.map Prod.fst).Nodup
  claims : ∀ command d, claimant command = some d → d.claims command = true
  claimed : ∀ d ∈ l.dictionaries, ∀ command, d.claims command = true →
    ∃ e, claimant command = some e ∧ (e.name = d.name → e = d)
  owner : ∀ command name, l.owners.lookup (Text.lower command) = some name ↔
    ∃ d ∈ l.dictionaries, claimant command = some d ∧ d.name = name

namespace Indexed

variable {l : Library σ} {claimant : String → Option (Dictionary σ)}

theorem empty (origin : Origin) : ({ origin } : Library σ).Indexed fun _ => none where
  sorted := List.Pairwise.nil
  distinct := List.nodup_nil
  claims := by simp
  claimed := by simp
  owner := by simp

theorem eq_of_name (indexed : l.Indexed claimant) {d e : Dictionary σ}
    (left : d ∈ l.dictionaries) (right : e ∈ l.dictionaries) (same : d.name = e.name) : d = e := by
  have distinct : (l.dictionaries.map (·.name)).Nodup :=
    List.pairwise_map.mpr (indexed.sorted.imp ne_of_lt)
  exact List.inj_on_of_nodup_map distinct left right same

theorem byName?_eq_some_iff (indexed : l.Indexed claimant) {name : String} {d : Dictionary σ} :
    l.byName? name = some d ↔ d ∈ l.dictionaries ∧ d.name = name := by
  constructor
  · intro found
    exact ⟨List.mem_of_find?_eq_some found, by simpa using List.find?_some found⟩
  · rintro ⟨stored, rfl⟩
    cases found : l.byName? d.name with
    | none => exact absurd (List.find?_eq_none.mp found d stored) (by simp)
    | some e =>
        have named : e.name = d.name := by simpa using List.find?_some found
        rw [indexed.eq_of_name (List.mem_of_find?_eq_some found) stored named]

/-- A word is answered by the dictionary that claimed it last, as long as this is stored. -/
theorem get?_eq_some_iff (indexed : l.Indexed claimant) {command : String} {d : Dictionary σ} :
    l.get? command = some d ↔ claimant command = some d ∧ d ∈ l.dictionaries := by
  rw [get?, Option.bind_eq_some_iff]
  constructor
  · rintro ⟨name, owned, found⟩
    obtain ⟨stored, rfl⟩ := indexed.byName?_eq_some_iff.mp found
    obtain ⟨e, member, claimed, same⟩ := (indexed.owner command d.name).mp owned
    obtain rfl := indexed.eq_of_name member stored same
    exact ⟨claimed, stored⟩
  · rintro ⟨claimed, stored⟩
    exact ⟨d.name, (indexed.owner command d.name).mpr ⟨d, stored, claimed, rfl⟩,
      indexed.byName?_eq_some_iff.mpr ⟨stored, rfl⟩⟩

theorem dictionaries_erase (l : Library σ) (name : String) :
    (l.erase name).2.dictionaries = l.dictionaries.filter fun e => e.name != name := by
  unfold Library.erase
  split
  · rename_i missing
    refine (List.filter_eq_self.mpr ?_).symm
    intro d stored
    simpa using List.find?_eq_none.mp missing d stored
  · rfl

theorem lookup_erase (indexed : l.Indexed claimant) (name command : String) :
    (l.erase name).2.owners.lookup (Text.lower command) =
      (l.owners.lookup (Text.lower command)).filter (· != name) := by
  unfold Library.erase
  split
  · rename_i missing
    change l.owners.lookup (Text.lower command) = _
    cases owned : l.owners.lookup (Text.lower command) with
    | none => rfl
    | some owner =>
        obtain ⟨d, stored, _, rfl⟩ := (indexed.owner command owner).mp owned
        have other : d.name ≠ name := by simpa using List.find?_eq_none.mp missing d stored
        simp [other, Option.filter_some]
  · exact lookup_disown indexed.distinct name _

theorem distinct_erase (indexed : l.Indexed claimant) (name : String) :
    ((l.erase name).2.owners.map Prod.fst).Nodup := by
  unfold Library.erase
  split
  · exact indexed.distinct
  · exact indexed.distinct.sublist (List.Sublist.map _ List.filter_sublist)

theorem erase (indexed : l.Indexed claimant) (name : String) :
    (l.erase name).2.Indexed claimant where
  sorted := by
    rw [dictionaries_erase]
    exact indexed.sorted.filter _
  distinct := indexed.distinct_erase name
  claims := indexed.claims
  claimed := by
    rw [dictionaries_erase]
    intro d stored
    exact indexed.claimed d (List.mem_filter.mp stored).1
  owner := by
    intro command owner
    rw [indexed.lookup_erase, dictionaries_erase, Option.filter_eq_some_iff, indexed.owner]
    constructor
    · rintro ⟨⟨d, stored, claimed, rfl⟩, other⟩
      exact ⟨d, List.mem_filter.mpr ⟨stored, other⟩, claimed, rfl⟩
    · rintro ⟨d, stored, claimed, rfl⟩
      obtain ⟨stored, other⟩ := List.mem_filter.mp stored
      exact ⟨⟨d, stored, claimed, rfl⟩, other⟩

theorem mem_insert {d e : Dictionary σ} :
    e ∈ (l.insert d).2.dictionaries ↔ e = d ∨ (e ∈ l.dictionaries ∧ e.name ≠ d.name) := by
  simp only [Library.insert, mem_place, dictionaries_erase, List.mem_filter, bne_iff_ne]

theorem insert (indexed : l.Indexed claimant) (d : Dictionary σ) :
    (l.insert d).2.Indexed fun command =>
      if d.claims command then some d else claimant command where
  sorted := by
    refine sorted_place (indexed.erase d.name).sorted ?_
    intro e stored
    rw [dictionaries_erase, List.mem_filter, bne_iff_ne] at stored
    exact stored.2
  distinct := nodup_takeOver (indexed.distinct_erase d.name) d.keys d.name
  claims := by
    intro command e claimed
    split at claimed
    · rename_i own
      obtain rfl := Option.some.inj claimed
      exact own
    · exact indexed.claims command e claimed
  claimed := by
    intro e stored command claims
    by_cases own : d.claims command = true
    · refine ⟨d, by simp [own], ?_⟩
      intro same
      rcases mem_insert.mp stored with rfl | ⟨_, other⟩
      · rfl
      · exact absurd same.symm other
    · rcases mem_insert.mp stored with rfl | ⟨stored, _⟩
      · exact absurd claims own
      · simpa [own] using indexed.claimed e stored command claims
  owner := by
    intro command name
    have taken : (l.insert d).2.owners.lookup (Text.lower command) =
        if d.claims command then some d.name
        else (l.owners.lookup (Text.lower command)).filter (· != d.name) := by
      rw [← indexed.lookup_erase]
      exact lookup_takeOver d.keys d.name command (l.erase d.name).2.owners
    rw [taken]
    by_cases own : d.claims command = true
    · simp only [own, if_true, Option.some.injEq]
      constructor
      · rintro rfl
        exact ⟨d, mem_insert.mpr (.inl rfl), rfl, rfl⟩
      · rintro ⟨e, _, rfl, named⟩
        exact named
    · simp only [own, Bool.false_eq_true, if_false, Option.filter_eq_some_iff, indexed.owner]
      constructor
      · rintro ⟨⟨e, stored, claimed, rfl⟩, other⟩
        exact ⟨e, mem_insert.mpr (.inr ⟨stored, by simpa using other⟩), claimed, rfl⟩
      · rintro ⟨e, stored, claimed, rfl⟩
        rcases mem_insert.mp stored with rfl | ⟨stored, other⟩
        · exact absurd (indexed.claims command e claimed) own
        · exact ⟨⟨e, stored, claimed, rfl⟩, by simpa using other⟩

theorem run (origin : Origin) (changes : List (Change σ)) :
    (({ origin } : Library σ).run changes).Indexed (claimant? changes) := by
  induction changes using List.reverseRecOn with
  | nil => exact empty origin
  | append_singleton changes c ih =>
      have history : claimant? (changes ++ [c]) =
          fun command => (c.claim? command).or (claimant? changes command) :=
        funext fun command => claimant?_concat changes c command
      rw [history, Library.run, List.foldl_append]
      cases c with
      | erase name => exact ih.erase name
      | insert d =>
          have step : (fun command => (Change.claim? command (.insert d)).or
              (claimant? changes command)) =
                fun command => if d.claims command then some d else claimant? changes command := by
            funext command
            simp only [Change.claim?]
            split <;> rfl
          rw [step]
          exact ih.insert d

end Indexed

theorem mem_of_mem_run {origin : Origin} {changes : List (Change σ)} {d : Dictionary σ}
    (stored : d ∈ (({ origin } : Library σ).run changes).dictionaries) : .insert d ∈ changes := by
  induction changes using List.reverseRecOn with
  | nil => simp [run] at stored
  | append_singleton changes c ih =>
      rw [run, List.foldl_append] at stored
      rw [List.mem_append, List.mem_singleton]
      cases c with
      | erase name =>
          change d ∈ ((({ origin } : Library σ).run changes).erase name).2.dictionaries at stored
          rw [Indexed.dictionaries_erase, List.mem_filter] at stored
          exact .inl (ih stored.1)
      | insert e =>
          rcases Indexed.mem_insert.mp stored with rfl | ⟨before, _⟩
          · exact .inr rfl
          · exact .inl (ih before)

theorem mem_of_claimant? {changes : List (Change σ)} {command : String} {d : Dictionary σ}
    (found : claimant? changes command = some d) :
    .insert d ∈ changes ∧ d.claims command = true := by
  obtain ⟨c, member, claimed⟩ := List.exists_of_findSome?_eq_some found
  cases c with
  | erase name => simp [Change.claim?] at claimed
  | insert e =>
      simp only [Change.claim?] at claimed
      split at claimed
      · rename_i own
        obtain rfl := Option.some.inj claimed
        exact ⟨List.mem_reverse.mp member, own⟩
      · simp at claimed

/-- A key leads to some dictionary exactly as long as the one that was put in last with it is
stored, and then to that one. -/
theorem reachable_iff_claimant_stored (changes : List (Change σ)) {d : Dictionary σ}
    (stored : d ∈ (({} : Library σ).run changes).dictionaries) {key : String} (own : key ∈ d.keys) :
    let l := ({} : Library σ).run changes
    ∃ e, claimant? changes key = some e ∧
      ((l.get? key).isSome = true ↔ e ∈ l.dictionaries) ∧ ∀ f, l.get? key = some f → f = e := by
  intro l
  have indexed : l.Indexed (claimant? changes) := .run .memory changes
  obtain ⟨e, claimed, _⟩ := indexed.claimed d stored key (Dictionary.claims_of_mem own)
  refine ⟨e, claimed, ?_, ?_⟩
  · rw [Option.isSome_iff_exists]
    constructor
    · rintro ⟨f, found⟩
      obtain ⟨other, member⟩ := indexed.get?_eq_some_iff.mp found
      obtain rfl := Option.some.inj (claimed.symm.trans other)
      exact member
    · intro member
      exact ⟨e, indexed.get?_eq_some_iff.mpr ⟨claimed, member⟩⟩
  · intro f found
    have other := (indexed.get?_eq_some_iff.mp found).1
    exact Option.some.inj (other.symm.trans claimed)

theorem get?_of_unshared (changes : List (Change σ)) {d : Dictionary σ}
    (stored : d ∈ (({} : Library σ).run changes).dictionaries) {key : String} (own : key ∈ d.keys)
    (unshared : ∀ e, .insert e ∈ changes → e.claims key = true → e.name = d.name) :
    (({} : Library σ).run changes).get? key = some d := by
  have indexed := Indexed.run .memory changes
  obtain ⟨e, claimed, same⟩ := indexed.claimed d stored key (Dictionary.claims_of_mem own)
  obtain ⟨put, claims⟩ := mem_of_claimant? claimed
  obtain rfl := same (unshared e put claims)
  exact indexed.get?_eq_some_iff.mpr ⟨claimed, stored⟩

def git : Dictionary Source :=
  ((Dictionary.ofCommand "git").withKey "g").withParameter (Parameter.command "commit")

/-- Another command with the same short form. -/
def gh : Dictionary Source :=
  ((Dictionary.ofCommand "gh").withKey "g").withParameter (Parameter.command "issue")

/-- The short form goes to the later of them, which is then taken out. -/
def takenBack : List (Change Source) :=
  [.insert git, .insert gh, .erase "gh"]

theorem reachable_iff_claimant_stored_takenBack :
    git ∈ (({} : Library Source).run takenBack).dictionaries ∧ "g" ∈ git.keys ∧
      ∃ e, claimant? takenBack "g" = some e ∧
        (((({} : Library Source).run takenBack).get? "g").isSome = true ↔
          e ∈ (({} : Library Source).run takenBack).dictionaries) := by
  have stored : git ∈ (({} : Library Source).run takenBack).dictionaries := by
    exact List.mem_singleton_self git
  have own : "g" ∈ git.keys := by decide
  obtain ⟨e, claimed, reached, _⟩ := reachable_iff_claimant_stored takenBack stored own
  exact ⟨stored, own, e, claimed, reached⟩

/-- The dictionary that lost its short form to the other does not get it back. -/
theorem stored_not_reachable :
    ¬ ∀ (changes : List (Change Source)) (d : Dictionary Source),
      d ∈ (({} : Library Source).run changes).dictionaries →
        ∀ key ∈ d.keys, ((({} : Library Source).run changes).get? key).isSome = true := by
  intro every
  have stored : git ∈ (({} : Library Source).run takenBack).dictionaries := by
    exact List.mem_singleton_self git
  have lost : ((({} : Library Source).run takenBack).get? "g").isSome = false := by decide
  rw [every takenBack git stored "g" (by decide)] at lost
  exact absurd lost (by decide)

end Library

end LineCompletion

import Mathlib.Data.List.Basic
import LineCompletion.Source.Cache

/-! # Publications that cross each other

A caller adds values to a cache in two steps. It takes the current snapshot and, if the generation
is the expected one, builds the next snapshot from it. Later it swaps that one in, if the generation
still is the expected one. Between the two, other callers publish, drop all entries or read. A
generation stands for one snapshot only, so a swap never takes back what was done in between.
-/

namespace LineCompletion

theorem Scope.beq_eq_decide (a b : Scope) : (a == b) = decide (a = b) := by
  cases a <;> cases b <;> simp [BEq.beq, instBEqScope.beq]

namespace Snapshot

theorem lookup_put (scope other : Scope) (e : Entry) (entries : List (Scope × Entry)) :
    (put scope e entries).lookup other =
      if other = scope then some e else entries.lookup other := by
  induction entries with
  | nil =>
      by_cases same : other = scope <;>
        simp [put, List.lookup_cons, Scope.beq_eq_decide, same]
  | cons head rest ih =>
      obtain ⟨s, found⟩ := head
      by_cases here : s = scope
      · subst here
        by_cases same : other = s <;>
          simp [put, List.lookup_cons, Scope.beq_eq_decide, same]
      · by_cases same : other = s
        · subst same
          simp [put, List.lookup_cons, Scope.beq_eq_decide, here]
        · simp [put, List.lookup_cons, Scope.beq_eq_decide, here, same, ih]

theorem mem_scopes_put (scope other : Scope) (e : Entry) (entries : List (Scope × Entry)) :
    other ∈ (put scope e entries).map Prod.fst ↔
      other = scope ∨ other ∈ entries.map Prod.fst := by
  induction entries with
  | nil => simp [put]
  | cons head rest ih =>
      by_cases here : head.1 = scope
      · simp [put, Scope.beq_eq_decide, here]
      · rw [put, if_neg (by simpa [Scope.beq_eq_decide] using here), List.map_cons,
          List.mem_cons, ih, List.map_cons, List.mem_cons, or_left_comm]

theorem nodup_put {scope : Scope} {e : Entry} {entries : List (Scope × Entry)}
    (distinct : (entries.map Prod.fst).Nodup) : ((put scope e entries).map Prod.fst).Nodup := by
  induction entries with
  | nil => simp [put]
  | cons head rest ih =>
      obtain ⟨absent, distinct⟩ := List.nodup_cons.mp distinct
      by_cases here : head.1 = scope
      · simpa [put, Scope.beq_eq_decide, here] using ⟨by simpa [here] using absent, distinct⟩
      · rw [put, if_neg (by simpa [Scope.beq_eq_decide] using here), List.map_cons,
          List.nodup_cons, mem_scopes_put]
        exact ⟨not_or.mpr ⟨here, absent⟩, ih distinct⟩

end Snapshot

/-- Values that a caller adds to a cache. -/
structure Publication where
  expected : Nat
  scope : Scope
  items : List Item
  computedAt : Moment

namespace Publication

def entry (p : Publication) : Entry :=
  { items := p.items, computedAt := p.computedAt, generation := p.expected + 1 }

/-- The snapshot that a publication builds from another one. -/
def next (p : Publication) (s : Snapshot) : Snapshot :=
  s.withItems p.scope p.items p.computedAt

theorem get?_next {p : Publication} {s : Snapshot} (expected : p.expected = s.generation)
    (scope : Scope) :
    (p.next s).get? scope = if scope = p.scope then some p.entry else s.get? scope := by
  simp [next, Snapshot.withItems, Snapshot.get?, Snapshot.lookup_put, entry, expected]

end Publication

/-- A cache while callers write to it. -/
structure SharedCache where
  /-- The cache. -/
  cache : Cache := {}
  /-- The publications that are half done, with the snapshots that were built for them. -/
  built : List (Publication × Snapshot) := []

namespace SharedCache

inductive Move where
  /-- It takes the snapshot and builds the next one. -/
  | build (p : Publication)
  /-- It swaps in the snapshot of a publication that is half done. -/
  | swap (i : Nat)
  /-- It drops all entries. -/
  | clear
  /-- It takes the snapshot, to look up whatever it likes in it. -/
  | read

inductive Event where
  /-- A publication is half done. -/
  | built (p : Publication)
  /-- A publication is done. -/
  | published (p : Publication)
  /-- A publication is given up, since the generation is not the expected one. -/
  | superseded (p : Publication)
  /-- All entries are dropped. -/
  | cleared
  /-- A snapshot was seen. -/
  | seen (s : Snapshot)
  /-- There was no such publication. -/
  | nothing

def Event.changes : Event → Bool
  | .published _ | .cleared => true
  | _ => false

def step (b : SharedCache) : Move → Event × SharedCache
  | .build p =>
    if b.cache.generation == p.expected then
      (.built p, { b with built := b.built ++ [(p, p.next b.cache.snapshot)] })
    else (.superseded p, b)
  | .swap i =>
    match b.built[i]? with
    | none => (.nothing, b)
    | some (p, next) =>
      if b.cache.generation == p.expected then
        (.published p, { cache := { b.cache with snapshot := next }, built := b.built.eraseIdx i })
      else (.superseded p, { b with built := b.built.eraseIdx i })
  | .clear => (.cleared, { b with cache := b.cache.clear })
  | .read => (.seen b.cache.snapshot, b)

def run (b : SharedCache) (moves : List Move) : SharedCache :=
  moves.foldl (fun b m => (b.step m).2) b

def history : SharedCache → List Move → List Event
  | _, [] => []
  | b, m :: moves => (b.step m).1 :: (b.step m).2.history moves

/-- How many publications, clears and reads are begun. -/
def operations (moves : List Move) : Nat :=
  moves.countP fun
    | .swap _ => false
    | _ => true

theorem publish_eq_build_swap (c : Cache) (p : Publication) :
    (run { cache := c } [.build p, .swap 0]).cache =
        (c.publish p.expected p.scope p.items p.computedAt).2 ∧
      (.published p ∈ history { cache := c } [.build p, .swap 0] ↔
        (c.publish p.expected p.scope p.items p.computedAt).1 = some (p.expected + 1)) := by
  by_cases current : c.generation = p.expected
  · simp [run, history, step, Cache.publish, current, Publication.next]
  · simp [run, history, step, Cache.publish, current]

/-- What holds at every moment: the publications that are half done expect no later generation, and
those that expect the current one were built from the current snapshot. The entries are no newer
than the snapshot, one for each scope, and came one by one. -/
structure Sound (b : SharedCache) : Prop where
  known : ∀ p next, (p, next) ∈ b.built → p.expected ≤ b.cache.generation
  current : ∀ p next, (p, next) ∈ b.built → p.expected = b.cache.generation →
    next = p.next b.cache.snapshot
  single : (b.cache.snapshot.entries.map Prod.fst).Nodup
  bounded : ∀ scope e, b.cache.get? scope = some e → e.generation ≤ b.cache.generation
  distinct : ∀ scope₁ scope₂ e₁ e₂, b.cache.get? scope₁ = some e₁ →
    b.cache.get? scope₂ = some e₂ → e₁.generation = e₂.generation → scope₁ = scope₂

/-- A step swaps in the snapshot built from the current one, drops all entries, or leaves the cache
as it is. -/
theorem step_cases {b : SharedCache} (sound : b.Sound) (m : Move) :
    (∃ p, (b.step m).1 = .published p ∧ p.expected = b.cache.generation ∧
        (b.step m).2.cache.snapshot = p.next b.cache.snapshot ∧
        (b.step m).2.built ⊆ b.built) ∨
      ((b.step m).1 = .cleared ∧ (b.step m).2.cache.snapshot = b.cache.snapshot.cleared ∧
        (b.step m).2.built = b.built) ∨
      ((b.step m).1.changes = false ∧ (b.step m).2.cache = b.cache ∧
        ∀ p next, (p, next) ∈ (b.step m).2.built → (p, next) ∈ b.built ∨
          p.expected = b.cache.generation ∧ next = p.next b.cache.snapshot) := by
  cases m with
  | build p =>
      right; right
      by_cases expected : b.cache.generation = p.expected
      · refine ⟨by simp [step, expected, Event.changes], by simp [step, expected], ?_⟩
        intro q next member
        simp only [step, expected, beq_self_eq_true, if_true, List.mem_append,
          List.mem_singleton] at member
        rcases member with earlier | same
        · exact .inl earlier
        · obtain ⟨rfl, rfl⟩ := Prod.mk.inj same
          exact .inr ⟨expected.symm, rfl⟩
      · rw [step, if_neg (by simpa using expected)]
        exact ⟨rfl, rfl, fun q next member => .inl member⟩
  | swap i =>
      cases found : b.built[i]? with
      | none =>
          right; right
          have stepped : b.step (.swap i) = (.nothing, b) := by simp only [step, found]
          rw [stepped]
          exact ⟨rfl, rfl, fun q next member => .inl member⟩
      | some half =>
          obtain ⟨p, next⟩ := half
          by_cases expected : b.cache.generation = p.expected
          · left
            have fresh := sound.current p next (List.mem_of_getElem? found) expected.symm
            simp only [step, found, expected, beq_self_eq_true, if_true]
            exact ⟨p, rfl, rfl, fresh, List.eraseIdx_subset⟩
          · right; right
            have stepped : b.step (.swap i) =
                (.superseded p, { b with built := b.built.eraseIdx i }) := by
              simp only [step, found]
              rw [if_neg (by simpa using expected)]
            rw [stepped]
            exact ⟨rfl, rfl, fun q next member => .inl (List.mem_of_mem_eraseIdx member)⟩
  | clear => exact .inr (.inl ⟨rfl, rfl, rfl⟩)
  | read => exact .inr (.inr ⟨rfl, rfl, fun q next member => .inl member⟩)

theorem sound_empty : Sound {} where
  known := by simp
  current := by simp
  single := by simp
  bounded := by simp [Cache.get?, Snapshot.get?]
  distinct := by simp [Cache.get?, Snapshot.get?]

theorem generation_step {b : SharedCache} (sound : b.Sound) (m : Move) :
    (b.step m).2.cache.generation =
      b.cache.generation + if (b.step m).1.changes then 1 else 0 := by
  obtain ⟨p, done, _, swapped, _⟩ | ⟨done, cleared, _⟩ | ⟨done, kept, _⟩ := step_cases sound m
  · simp [done, Event.changes, Cache.generation, swapped, Publication.next, Snapshot.withItems]
  · simp [done, Event.changes, Cache.generation, cleared, Snapshot.cleared]
  · simp [done, kept]

theorem get?_step_published {b : SharedCache} (sound : b.Sound) {m : Move} {p : Publication}
    (done : (b.step m).1 = .published p) (scope : Scope) :
    p.expected = b.cache.generation ∧
      (b.step m).2.cache.get? scope =
        if scope = p.scope then some p.entry else b.cache.get? scope := by
  obtain ⟨q, same, expected, swapped, _⟩ | ⟨other, _⟩ | ⟨other, _⟩ := step_cases sound m
  · obtain rfl : p = q := Event.published.inj (done.symm.trans same)
    refine ⟨expected, ?_⟩
    rw [Cache.get?, swapped, Publication.get?_next expected]
    rfl
  · simp [done] at other
  · simp [done, Event.changes] at other

theorem sound_step {b : SharedCache} (sound : b.Sound) (m : Move) : (b.step m).2.Sound := by
  have generation := generation_step sound m
  obtain ⟨p, done, expected, swapped, older⟩ | ⟨done, cleared, older⟩ | ⟨done, kept, origin⟩ :=
    step_cases sound m
  · have look := fun scope => (get?_step_published sound done scope).2
    simp only [done, Event.changes, if_true] at generation
    refine ⟨?_, ?_, ?_, ?_, ?_⟩
    · intro q next member
      have := sound.known q next (older member)
      omega
    · intro q next member late
      have := sound.known q next (older member)
      omega
    · rw [swapped]
      exact Snapshot.nodup_put sound.single
    · intro scope e found
      rw [look] at found
      split at found
      · obtain rfl := Option.some.inj found
        simp only [Publication.entry]
        omega
      · have := sound.bounded scope e found
        omega
    · -- the new entry has the only generation that was not there before
      intro scope₁ scope₂ e₁ e₂ first second same
      rw [look] at first second
      split at first
      · rename_i here
        split at second
        · rename_i there
          exact here.trans there.symm
        · obtain rfl := Option.some.inj first
          have := sound.bounded scope₂ e₂ second
          simp only [Publication.entry] at same
          omega
      · split at second
        · obtain rfl := Option.some.inj second
          have := sound.bounded scope₁ e₁ first
          simp only [Publication.entry] at same
          omega
        · exact sound.distinct scope₁ scope₂ e₁ e₂ first second same
  · simp only [done, Event.changes, if_true] at generation
    have empty : ∀ scope, (b.step m).2.cache.get? scope = none := by
      intro scope
      rw [Cache.get?, cleared]
      rfl
    refine ⟨?_, ?_, ?_, ?_, ?_⟩
    · intro q next member
      have := sound.known q next (older ▸ member)
      omega
    · intro q next member late
      have := sound.known q next (older ▸ member)
      omega
    · simp [cleared, Snapshot.cleared]
    · intro scope e found
      simp [empty] at found
    · intro scope₁ scope₂ e₁ e₂ first
      simp [empty] at first
  · refine ⟨?_, ?_, ?_, ?_, ?_⟩
    · intro q next member
      rw [kept]
      rcases origin q next member with earlier | ⟨expected, _⟩
      · exact sound.known q next earlier
      · exact Nat.le_of_eq expected
    · intro q next member late
      rw [kept] at late ⊢
      rcases origin q next member with earlier | ⟨_, fresh⟩
      · exact sound.current q next earlier late
      · exact fresh
    · rw [kept]
      exact sound.single
    · rw [kept]
      exact sound.bounded
    · rw [kept]
      exact sound.distinct

theorem sound_run {b : SharedCache} (sound : b.Sound) (moves : List Move) :
    (b.run moves).Sound := by
  induction moves generalizing b with
  | nil => exact sound
  | cons m moves ih => exact ih (sound_step sound m)

theorem changes_step_le (b : SharedCache) (m : Move) :
    (b.step m).2.built.length + (if (b.step m).1.changes then 1 else 0) ≤
      b.built.length + operations [m] := by
  cases m with
  | build p =>
      simp only [step]
      split <;> simp [Event.changes, operations]
  | swap i =>
      simp only [step]
      split
      · simp [Event.changes]
      · rename_i p next found
        have inside : i < b.built.length := (List.getElem?_eq_some_iff.mp found).1
        have erased := List.length_eraseIdx_of_lt inside
        split <;> simp only [Event.changes, erased] <;> simp <;> omega
  | clear => simp [step, Event.changes, operations]
  | read => simp [step, Event.changes]

theorem generation_run_le {b : SharedCache} (sound : b.Sound) (moves : List Move) :
    (b.run moves).cache.generation + (b.run moves).built.length ≤
      b.cache.generation + b.built.length + operations moves := by
  induction moves generalizing b with
  | nil => simp [run]
  | cons m moves ih =>
      have rest := ih (sound_step sound m)
      have generation := generation_step sound m
      have changes := changes_step_le b m
      have count : operations (m :: moves) = operations moves + operations [m] := by
        simp only [operations, List.countP_cons, List.countP_nil, Nat.zero_add]
      rw [count]
      change ((b.step m).2.run moves).cache.generation + _ ≤ _
      simp only [run, List.foldl_cons] at rest ⊢
      omega

/-- Publications that are done expected one generation after the other. -/
theorem history_rising {b : SharedCache} (sound : b.Sound) (moves : List Move) :
    (∀ p, .published p ∈ b.history moves → b.cache.generation ≤ p.expected) ∧
      (b.history moves).Pairwise fun e f =>
        ∀ p q, e = .published p → f = .published q → p.expected < q.expected := by
  induction moves generalizing b with
  | nil => simp [history]
  | cons m moves ih =>
      obtain ⟨later, rising⟩ := ih (sound_step sound m)
      have generation := generation_step sound m
      constructor
      · intro p member
        rcases List.mem_cons.mp member with first | rest
        · exact Nat.le_of_eq (get?_step_published sound first.symm p.scope).1.symm
        · have := later p rest
          omega
      · refine List.pairwise_cons.mpr ⟨?_, rising⟩
        rintro f member p q first rfl
        have expected := (get?_step_published sound first p.scope).1
        have := later q member
        simp only [first, Event.changes, if_true] at generation
        omega

/-- Whatever callers do between the two steps of a publication, what it leaves is the map that was
there with the entry of its scope replaced. Generations count what was done, none is used by two
publications, and each entry has one of its own. With so few operations they fit into 64 bits. -/
theorem no_publication_lost (moves : List Move) (few : operations moves < UInt64.size - 1) :
    let b := run {} moves
    (∀ m p, (b.step m).1 = .published p → p.expected = b.cache.generation ∧
        ∀ scope, (b.step m).2.cache.get? scope =
          if scope = p.scope then some p.entry else b.cache.get? scope) ∧
      (∀ m, (b.step m).2.cache.generation =
        b.cache.generation + if (b.step m).1.changes then 1 else 0) ∧
      (∀ (i j : Nat) p q, (history {} moves)[i]? = some (.published p) →
        (history {} moves)[j]? = some (.published q) → p.expected = q.expected → i = j) ∧
      (b.cache.snapshot.entries.map Prod.fst).Nodup ∧
      (∀ scope e, b.cache.get? scope = some e → e.generation ≤ b.cache.generation) ∧
      (∀ scope₁ scope₂ e₁ e₂, b.cache.get? scope₁ = some e₁ → b.cache.get? scope₂ = some e₂ →
        scope₁ ≠ scope₂ → e₁.generation ≠ e₂.generation) ∧
      b.cache.generation < UInt64.size - 1 := by
  intro b
  have sound : b.Sound := sound_run sound_empty moves
  refine ⟨?_, generation_step sound, ?_, sound.single, sound.bounded, ?_, ?_⟩
  · intro m p done
    exact ⟨(get?_step_published sound done p.scope).1,
      fun scope => (get?_step_published sound done scope).2⟩
  · intro i j p q first second same
    have rising := List.pairwise_iff_getElem.mp (history_rising sound_empty moves).2
    obtain ⟨inside, first⟩ := List.getElem?_eq_some_iff.mp first
    obtain ⟨within, second⟩ := List.getElem?_eq_some_iff.mp second
    rcases Nat.lt_trichotomy i j with before | equal | after
    · have := rising i j inside within before p q first second
      omega
    · exact equal
    · have := rising j i within inside after q p second first
      omega
  · intro scope₁ scope₂ e₁ e₂ first second other same
    exact other (sound.distinct scope₁ scope₂ e₁ e₂ first second same)
  · have bound : b.cache.generation + b.built.length ≤ 0 + 0 + operations moves :=
      generation_run_le sound_empty moves
    omega

def branches : Publication where
  expected := 0
  scope := .everywhere
  items := [{ name := "main" }]
  computedAt := 5

def tags : Publication where
  expected := 0
  scope := .directory "/repo"
  items := [{ name := "v1" }]
  computedAt := 7

theorem no_publication_lost_crossing :
    operations [.build branches, .build tags, .swap 1] < UInt64.size - 1 ∧
      (history {} [.build branches, .build tags, .swap 1])[2]? = some (.published tags) ∧
      (step (run {} [.build branches, .build tags, .swap 1]) (.swap 0)).1 = .superseded branches ∧
      (run {} [.build branches, .build tags, .swap 1]).cache.generation = 1 ∧
      (step (run {} [.build branches, .build tags, .swap 1]) (.swap 0)).2.cache.generation = 1 := by
  have few : operations [.build branches, .build tags, .swap 1] < UInt64.size - 1 := by decide
  refine ⟨few, rfl, rfl, rfl, ?_⟩
  obtain ⟨_, counted, _⟩ := no_publication_lost [.build branches, .build tags, .swap 1] few
  exact counted (.swap 0)

end SharedCache

end LineCompletion

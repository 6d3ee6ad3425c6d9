import LineCompletion.Proofs.Dictionary.Sources
import LineCompletion.Proofs.Source.Refreshing

/-! # Initializing a dictionary

One walk over the tree of a dictionary checks it, another lists its sources, and a third binds them.
All three meet the same places, so that a call which succeeds binds every source that is listed; one
that fails has bound nothing, and a binding is never replaced.
-/

namespace LineCompletion

variable {σ τ : Type}

namespace Parameter

/-- The source at a place of a tree. A place is given by the numbers of the children on the way. -/
def sourceAt? (p : Parameter σ) : List Nat → Option σ
  | [] => p.source?
  | i :: below => p.children[i]?.bind fun child => child.sourceAt? below

def sourceBelow? (ps : List (Parameter σ)) : List Nat → Option σ
  | [] => none
  | i :: below => ps[i]?.bind fun p => p.sourceAt? below

mutual

/-- The places of a tree that have a source, parents before children. -/
def places : Parameter σ → List (List Nat)
  | node _ _ _ _ kind children =>
    (match kind with
      | .value (some _) _ => [[]]
      | _ => []) ++ placesFrom 0 children

/-- The places of a list of trees, of which the first has the given number. -/
def placesFrom (first : Nat) : List (Parameter σ) → List (List Nat)
  | [] => []
  | p :: rest => (places p).map (first :: ·) ++ placesFrom (first + 1) rest

end

theorem places_eq (p : Parameter σ) :
    p.places = (if p.source?.isSome then [[]] else []) ++ placesFrom 0 p.children := by
  cases p with
  | node keys name description recursive kind children =>
      cases kind with
      | command | flag => rfl
      | value source separator => cases source <;> rfl

theorem sources_eq (p : Parameter σ) :
    p.sources = p.source?.toList ++ sourcesOfList p.children := by
  cases p with
  | node keys name description recursive kind children =>
      cases kind with
      | command | flag => rfl
      | value source separator => cases source <;> rfl

theorem mem_placesFrom {first : Nat} {ps : List (Parameter σ)} {place : List Nat} :
    place ∈ placesFrom first ps ↔
      ∃ i below p, place = (first + i) :: below ∧ ps[i]? = some p ∧ below ∈ p.places := by
  induction ps generalizing first with
  | nil => simp [placesFrom]
  | cons p rest ih =>
      simp only [placesFrom, List.mem_append, List.mem_map, ih]
      constructor
      · rintro (⟨below, member, rfl⟩ | ⟨i, below, q, rfl, found, member⟩)
        · exact ⟨0, below, p, rfl, rfl, member⟩
        · exact ⟨i + 1, below, q, by simp only [Nat.add_assoc, Nat.add_comm 1], found, member⟩
      · rintro ⟨i, below, q, rfl, found, member⟩
        cases i with
        | zero =>
            obtain rfl := Option.some.inj found
            exact .inl ⟨below, member, rfl⟩
        | succ i =>
            exact .inr ⟨i, below, q, by simp only [Nat.add_assoc, Nat.add_comm 1], found, member⟩

/-- The places listed are those where a source stands. -/
theorem mem_places_iff {p : Parameter σ} {place : List Nat} :
    place ∈ p.places ↔ (p.sourceAt? place).isSome = true := by
  induction place generalizing p with
  | nil =>
      have later : [] ∉ placesFrom 0 p.children := by simp [mem_placesFrom]
      rw [places_eq, List.mem_append]
      by_cases own : p.source?.isSome = true
      · simp [own, sourceAt?]
      · simp [own, later, sourceAt?]
  | cons i below ih =>
      have here : i :: below ∉ if p.source?.isSome = true then [([] : List Nat)] else [] := by
        split <;> simp
      rw [places_eq, List.mem_append, or_iff_right here, mem_placesFrom]
      simp only [Nat.zero_add, List.cons.injEq, sourceAt?]
      constructor
      · rintro ⟨_, _, child, ⟨rfl, rfl⟩, found, member⟩
        rw [found]
        exact ih.mp member
      · intro source
        cases found : p.children[i]? with
        | none => simp [found] at source
        | some child =>
            exact ⟨i, below, child, ⟨rfl, rfl⟩, found, ih.mpr (by simpa [found] using source)⟩

theorem mem_placesFrom_iff {ps : List (Parameter σ)} {place : List Nat} :
    place ∈ placesFrom 0 ps ↔ (sourceBelow? ps place).isSome = true := by
  rw [mem_placesFrom]
  cases place with
  | nil => simp [sourceBelow?]
  | cons i below =>
      simp only [Nat.zero_add, List.cons.injEq, sourceBelow?, mem_places_iff]
      cases found : ps[i]? with
      | none =>
          simp only [Option.bind_none, Option.isSome_none, Bool.false_eq_true, iff_false]
          rintro ⟨_, _, p, ⟨rfl, rfl⟩, other, -⟩
          simp [found] at other
      | some p =>
          simp only [Option.bind_some]
          constructor
          · rintro ⟨_, _, q, ⟨rfl, rfl⟩, same, source⟩
            obtain rfl := Option.some.inj (found.symm.trans same)
            exact source
          · exact fun source => ⟨i, below, p, ⟨rfl, rfl⟩, found, source⟩

mutual
theorem places_sorted (p : Parameter σ) : p.places.Pairwise (· < ·) := by
  cases p with
  | node keys name description recursive kind children =>
      rw [places_eq, List.pairwise_append]
      refine ⟨by split <;> simp, placesFrom_sorted 0 children, fun own root place below => ?_⟩
      obtain ⟨i, rest, -, rfl, -⟩ := mem_placesFrom.mp below
      obtain rfl : own = [] := by
        split at root
        · simpa using root
        · simp at root
      exact List.nil_lt_cons _ _
termination_by sizeOf p

theorem placesFrom_sorted (first : Nat) (ps : List (Parameter σ)) :
    (placesFrom first ps).Pairwise (· < ·) := by
  cases ps with
  | nil => exact .nil
  | cons p rest =>
      rw [placesFrom, List.pairwise_append]
      refine ⟨?_, placesFrom_sorted (first + 1) rest, fun place member later after => ?_⟩
      · exact List.pairwise_map.mpr
          ((places_sorted p).imp fun less => List.cons_lt_cons_iff.mpr (.inr ⟨rfl, less⟩))
      · obtain ⟨below, -, rfl⟩ := List.mem_map.mp member
        obtain ⟨i, rest, -, rfl, -⟩ := mem_placesFrom.mp after
        exact List.cons_lt_cons_iff.mpr (.inl (by omega))
termination_by sizeOf ps
end

mutual
/-- The sources listed are those at the places, in their order. -/
theorem map_sourceAt?_places (p : Parameter σ) :
    p.places.map p.sourceAt? = p.sources.map some := by
  cases p with
  | node keys name description recursive kind children =>
      have below := map_sourceBelow?_placesFrom [] children
      rw [places_eq, sources_eq, List.map_append, List.map_append]
      congr 1
      · cases own : source? (node keys name description recursive kind children) with
        | none => rfl
        | some s => simp [sourceAt?, own]
      · refine (List.map_congr_left fun place member => ?_).trans below
        obtain ⟨i, rest, -, rfl, -⟩ := mem_placesFrom.mp member
        rfl
termination_by sizeOf p

theorem map_sourceBelow?_placesFrom (before ps : List (Parameter σ)) :
    (placesFrom before.length ps).map (sourceBelow? (before ++ ps)) =
      (sourcesOfList ps).map some := by
  cases ps with
  | nil => rfl
  | cons p rest =>
      have here := map_sourceAt?_places p
      have later := map_sourceBelow?_placesFrom (before ++ [p]) rest
      simp only [List.append_assoc, List.cons_append, List.nil_append, List.length_append,
        List.length_cons, List.length_nil, Nat.zero_add] at later
      rw [placesFrom, sourcesOfList, List.map_append, List.map_append, later, ← here, List.map_map]
      simp [Function.comp_def, sourceBelow?]
termination_by sizeOf ps
end

/-- Replaces every source, the same way everywhere. -/
def replaceSources (g : σ → τ) (p : Parameter σ) : Parameter τ :=
  (p.mapSources (fun (_ : Unit) s => (g s, ())) ()).1

theorem mapSourcesOfList_eq_map (g : σ → τ) (ps : List (Parameter σ)) :
    (mapSourcesOfList (fun (_ : Unit) s => (g s, ())) () ps).1 = ps.map (replaceSources g) := by
  induction ps with
  | nil => rfl
  | cons p rest ih => exact congrArg (p.replaceSources g :: ·) ih

theorem source?_replaceSources (g : σ → τ) (p : Parameter σ) :
    (p.replaceSources g).source? = p.source?.map g := by
  cases p with
  | node keys name description recursive kind children =>
      cases kind with
      | command | flag => rfl
      | value source separator => cases source <;> rfl

theorem children_replaceSources (g : σ → τ) (p : Parameter σ) :
    (p.replaceSources g).children = p.children.map (replaceSources g) := by
  cases p with
  | node keys name description recursive kind children => exact mapSourcesOfList_eq_map g children

theorem sourceAt?_replaceSources (g : σ → τ) (p : Parameter σ) (place : List Nat) :
    (p.replaceSources g).sourceAt? place = (p.sourceAt? place).map g := by
  induction place generalizing p with
  | nil => exact source?_replaceSources g p
  | cons i below ih =>
      simp only [sourceAt?, children_replaceSources, List.getElem?_map]
      cases p.children[i]? with
      | none => rfl
      | some child => exact ih child

theorem sourceBelow?_replaceSources (g : σ → τ) (ps : List (Parameter σ)) (place : List Nat) :
    sourceBelow? (ps.map (replaceSources g)) place = (sourceBelow? ps place).map g := by
  cases place with
  | nil => rfl
  | cons i below =>
      simp only [sourceBelow?, List.getElem?_map]
      cases ps[i]? with
      | none => rfl
      | some p => exact sourceAt?_replaceSources g p below

theorem mapList_eq_map (g : σ → τ) (l : List σ) :
    (mapList (fun (_ : Unit) s => (g s, ())) () l).1 = l.map g := by
  induction l with
  | nil => rfl
  | cons s rest ih => exact congrArg (g s :: ·) ih

theorem sourcesOfList_replaceSources (g : σ → τ) (ps : List (Parameter σ)) :
    sourcesOfList (ps.map (replaceSources g)) = (sourcesOfList ps).map g := by
  rw [← mapSourcesOfList_eq_map, ← mapList_eq_map]
  exact congrArg Prod.fst (sourcesOfList_mapSources (fun (_ : Unit) s => (g s, ())) () ps)

mutual
theorem replaceSources_eq_self {g : σ → σ} (p : Parameter σ)
    (fixed : ∀ s ∈ p.sources, g s = s) : p.replaceSources g = p := by
  cases p with
  | node keys name description recursive kind children =>
      have below := map_replaceSources_eq_self children
        fun s member => fixed s (by rw [sources_eq]; exact List.mem_append_right _ member)
      rw [← mapSourcesOfList_eq_map] at below
      cases kind with
      | command | flag => simp [replaceSources, mapSources, Kind.mapSource, below]
      | value source separator =>
          cases source with
          | none => simp [replaceSources, mapSources, Kind.mapSource, below]
          | some source =>
              have own := fixed source (by simp [sources])
              simp [replaceSources, mapSources, Kind.mapSource, below, own]
termination_by sizeOf p

theorem map_replaceSources_eq_self {g : σ → σ} (ps : List (Parameter σ))
    (fixed : ∀ s ∈ sourcesOfList ps, g s = s) : ps.map (replaceSources g) = ps := by
  cases ps with
  | nil => rfl
  | cons p rest =>
      have here := replaceSources_eq_self p
        fun s member => fixed s (List.mem_append_left _ member)
      have later := map_replaceSources_eq_self rest
        fun s member => fixed s (List.mem_append_right _ member)
      rw [List.map_cons, here, later]
termination_by sizeOf ps
end

end Parameter

namespace LiveSource

variable {s : LiveSource} {context other : ContextId}

theorem isBound_bind : (s.bind context).isBound = true := by
  cases bound : s.context <;> simp [bind, isBound, bound]

theorem bind_of_context_eq_some (bound : s.context = some other) : s.bind context = s := by
  obtain ⟨source, cell, _⟩ := s
  subst bound
  rfl

theorem bind_of_context_eq_none (unbound : s.context = none) :
    s.bind context = { s with context := some context } := by
  simp [bind, unbound]

theorem refresh_eq_notBound_iff {caches : Caches} {directory : Option String} {x : CommandRun}
    {name : String} :
    (s.refresh caches directory x).1 = .returned (.error (.notBound name)) ↔
      s.isDynamic = true ∧ s.context = none ∧ name = s.name := by
  cases start : s.startRefresh caches directory with
  | done =>
      have never : s.startRefresh caches directory ≠ .failed (.notBound name) := by simp [start]
      rw [ne_eq, startRefresh_eq_failed_iff] at never
      simpa [refresh, start] using never
  | failed cause =>
      obtain ⟨dynamic, unbound, rfl⟩ := startRefresh_eq_failed_iff.mp start
      simp [refresh, start, dynamic, unbound, eq_comm]
  | running r =>
      obtain ⟨_, context, _, -, bound, -⟩ := startRefresh_eq_running_iff.mp start
      cases outcome : x.outcome <;> simp [refresh, start, outcome, bound]

end LiveSource

namespace Dictionary

def sourceAt? (d : Dictionary σ) (place : List Nat) : Option σ :=
  Parameter.sourceBelow? d.parameters place

/-- Some places are all those of the dictionary that have a source, each once and parents before
children, and in their order the sources are listed. -/
structure ListsAt (d : Dictionary σ) (places : List (List Nat)) : Prop where
  rising : places.Pairwise (· < ·)
  complete : ∀ place, place ∈ places ↔ (d.sourceAt? place).isSome = true
  listed : places.map d.sourceAt? = d.sources.map some

theorem listsAt_places (d : Dictionary σ) : d.ListsAt (Parameter.placesFrom 0 d.parameters) where
  rising := Parameter.placesFrom_sorted 0 d.parameters
  complete _ := Parameter.mem_placesFrom_iff
  listed := Parameter.map_sourceBelow?_placesFrom [] d.parameters

theorem bindSources_eq (d : Dictionary LiveSource) (context : ContextId) :
    d.bindSources context =
      { d with parameters := d.parameters.map (Parameter.replaceSources (·.bind context)) } := by
  simp only [bindSources, mapSources]
  rw [← Parameter.mapSourcesOfList_eq_map]

theorem sourceAt?_bindSources (d : Dictionary LiveSource) (context : ContextId)
    (place : List Nat) :
    (d.bindSources context).sourceAt? place = (d.sourceAt? place).map (·.bind context) := by
  rw [bindSources_eq]
  exact Parameter.sourceBelow?_replaceSources _ d.parameters place

theorem sources_bindSources (d : Dictionary LiveSource) (context : ContextId) :
    (d.bindSources context).sources = d.sources.map (·.bind context) := by
  rw [bindSources_eq]
  exact Parameter.sourcesOfList_replaceSources _ d.parameters

theorem ListsAt.bindSources {d : Dictionary LiveSource} {places : List (List Nat)}
    (lists : d.ListsAt places) (context : ContextId) : (d.bindSources context).ListsAt places where
  rising := lists.rising
  complete place := by simpa [sourceAt?_bindSources] using lists.complete place
  listed := by
    have mapped := congrArg (List.map (Option.map (·.bind context))) lists.listed
    have places := List.map_congr_left (l := places) fun place _ =>
      sourceAt?_bindSources d context place
    simpa [places, sources_bindSources, Function.comp_def] using mapped

theorem bindSources_eq_self {d : Dictionary LiveSource} (bound : ∀ s ∈ d.sources, s.isBound = true)
    (context : ContextId) : d.bindSources context = d := by
  have fixed : ∀ s ∈ d.sources, s.bind context = s := by
    intro s member
    obtain ⟨first, has⟩ := Option.isSome_iff_exists.mp (bound s member)
    exact LiveSource.bind_of_context_eq_some has
  rw [bindSources_eq, Parameter.map_replaceSources_eq_self d.parameters fixed]

theorem isBound_of_mem_bindSources {d : Dictionary LiveSource} {context : ContextId}
    {s : LiveSource} (member : s ∈ (d.bindSources context).sources) : s.isBound = true := by
  rw [sources_bindSources] at member
  obtain ⟨own, -, rfl⟩ := List.mem_map.mp member
  exact LiveSource.isBound_bind

/-- Sets up a dictionary that is in use: it is checked, then the sources of its tree are bound where
they stand. -/
def setUp (context : Option ContextId) :
    ExceptT ConfigurationError (StateM (Dictionary LiveSource)) Unit := do
  let d ← get
  match context with
  | none => throw (.missingExecutionContext d.name)
  | some context =>
    match d.validate with
    | .error cause => throw cause
    | .ok () => modify (·.bindSources context)

/-- What a call to set up a dictionary answers, and the dictionary after it. -/
def afterSetUp (d : Dictionary LiveSource) (context : Option ContextId) :
    Except ConfigurationError Unit × Dictionary LiveSource :=
  (setUp context).run.run d

theorem afterSetUp_none (d : Dictionary LiveSource) :
    d.afterSetUp none = (.error (.missingExecutionContext d.name), d) := rfl

theorem afterSetUp_some (d : Dictionary LiveSource) (context : ContextId) :
    d.afterSetUp (some context) =
      match d.validate with
      | .error cause => (.error cause, d)
      | .ok () => (.ok (), d.bindSources context) := by
  change ((match d.validate with
    | .error cause => throw cause
    | .ok () => modify (·.bindSources context) :
      ExceptT ConfigurationError (StateM (Dictionary LiveSource)) Unit).run.run d) = _
  cases d.validate with
  | error cause | ok => rfl

theorem afterSetUp_eq_bindTo (d : Dictionary LiveSource) (context : Option ContextId) :
    d.afterSetUp context =
      match d.bindTo context with
      | .error cause => (.error cause, d)
      | .ok bound => (.ok (), bound) := by
  cases context with
  | none => rfl
  | some context =>
      rw [afterSetUp_some, bindTo]
      cases d.validate with
      | error cause | ok => rfl

theorem answer_afterSetUp_iff {d : Dictionary LiveSource} {context : Option ContextId} :
    (d.afterSetUp context).1 = .ok () ↔ context.isSome = true ∧ d.validate = .ok () := by
  cases context with
  | none => simp [afterSetUp_none]
  | some context =>
      rw [afterSetUp_some]
      cases d.validate with
      | error cause | ok => simp

theorem afterSetUp_of_ok {d : Dictionary LiveSource} {context : Option ContextId}
    (done : (d.afterSetUp context).1 = .ok ()) :
    ∃ own, context = some own ∧ (d.afterSetUp context).2 = d.bindSources own := by
  obtain ⟨given, valid⟩ := answer_afterSetUp_iff.mp done
  obtain ⟨own, rfl⟩ := Option.isSome_iff_exists.mp given
  exact ⟨own, rfl, by rw [afterSetUp_some, valid]⟩

theorem afterSetUp_of_error {d : Dictionary LiveSource} {context : Option ContextId}
    {cause : ConfigurationError} (refused : (d.afterSetUp context).1 = .error cause) :
    (d.afterSetUp context).2 = d := by
  cases context with
  | none => rfl
  | some context =>
      rw [afterSetUp_some] at refused ⊢
      cases valid : d.validate with
      | error cause => rfl
      | ok => simp [valid] at refused

theorem afterSetUp_of_bound {d : Dictionary LiveSource} (bound : ∀ s ∈ d.sources, s.isBound = true)
    (context : Option ContextId) : (d.afterSetUp context).2 = d := by
  cases answer : (d.afterSetUp context).1 with
  | error cause => exact afterSetUp_of_error answer
  | ok =>
      obtain ⟨own, -, after⟩ := afterSetUp_of_ok answer
      rw [after, bindSources_eq_self bound]

/-- A call to set up a dictionary succeeds with a context and a valid dictionary, and then all
sources of the tree, which are those that are listed, have a context: their first one, which no
later call replaces. A call that fails leaves everything as it was. -/
theorem binds_all_or_none (d : Dictionary LiveSource) (context : Option ContextId) :
    ((d.afterSetUp context).1 = .ok () ↔ context.isSome = true ∧ d.validate = .ok ()) ∧
    (∀ cause, (d.afterSetUp context).1 = .error cause → (d.afterSetUp context).2 = d) ∧
    ((d.afterSetUp context).1 = .ok () →
      (∃ places, d.ListsAt places ∧ (d.afterSetUp context).2.ListsAt places) ∧
      (∀ place s, d.sourceAt? place = some s →
        (s.isBound = true → (d.afterSetUp context).2.sourceAt? place = some s) ∧
        (s.context = none →
          (d.afterSetUp context).2.sourceAt? place = some { s with context })) ∧
      (∀ s ∈ (d.afterSetUp context).2.sources, s.isBound = true ∧
        ∀ caches directory x name,
          (s.refresh caches directory x).1 ≠ .returned (.error (.notBound name))) ∧
      ∀ other, ((d.afterSetUp context).2.afterSetUp other).2 = (d.afterSetUp context).2) := by
  refine ⟨answer_afterSetUp_iff, fun cause => afterSetUp_of_error, fun done => ?_⟩
  obtain ⟨own, rfl, after⟩ := afterSetUp_of_ok done
  rw [after]
  refine ⟨⟨_, d.listsAt_places, d.listsAt_places.bindSources own⟩, fun place s found => ?_,
    fun s member => ?_, afterSetUp_of_bound fun s => isBound_of_mem_bindSources⟩
  · rw [sourceAt?_bindSources, found]
    constructor
    · intro bound
      obtain ⟨first, has⟩ := Option.isSome_iff_exists.mp bound
      exact congrArg some (LiveSource.bind_of_context_eq_some has)
    · exact fun unbound => congrArg some (LiveSource.bind_of_context_eq_none unbound)
  · have bound := isBound_of_mem_bindSources member
    refine ⟨bound, fun caches directory x name refused => ?_⟩
    have unbound := (LiveSource.refresh_eq_notBound_iff.mp refused).2.1
    simp [LiveSource.isBound, unbound] at bound

def branches : LiveSource :=
  { name := "Branches", provider := .dynamic "git branch", cell := 0 }

def remotes : LiveSource :=
  { name := "Remotes", provider := .dynamic "git remote", cell := 1, context := some 5 }

/-- A dictionary with one source below a command and one at the top. -/
def checkout : Dictionary LiveSource :=
  { keys := ["git"], platforms := Platforms.all, name := "git"
    parameters := [
      .node ["checkout"] "checkout" "" false .command
        [.node [] "Branch" "" false (.value (some branches) .both) []],
      .node ["--remote"] "Remote" "" false (.value (some remotes) .both) []] }

theorem binds_all_or_none_checkout :
    (checkout.afterSetUp none).1 ≠ .ok () ∧ (checkout.afterSetUp (some 7)).1 = .ok () ∧
      (checkout.afterSetUp (some 7)).2.sourceAt? [0, 0] =
        some { branches with context := some 7 } ∧
      (checkout.afterSetUp (some 7)).2.sourceAt? [1] = some remotes ∧
      ((checkout.afterSetUp (some 7)).2.afterSetUp (some 9)).2 =
        (checkout.afterSetUp (some 7)).2 := by
  have valid : checkout.validate = .ok () := by rfl
  obtain ⟨answer, -, bound⟩ := binds_all_or_none checkout (some 7)
  obtain ⟨-, places, -, again⟩ := bound (answer.mpr ⟨rfl, valid⟩)
  have refused : (checkout.afterSetUp none).1 ≠ .ok () := fun done =>
    absurd ((binds_all_or_none checkout none).1.mp done).1 (by decide)
  exact ⟨refused, answer.mpr ⟨rfl, valid⟩, (places [0, 0] branches rfl).2 rfl,
    (places [1] remotes rfl).1 rfl, again (some 9)⟩

end Dictionary

end LineCompletion

import LineCompletion.Source.Live

/-! # Dictionaries with other sources

Giving the sources of a dictionary caches and a context changes neither its names nor its keys nor
what a check of it finds.
-/

namespace LineCompletion

variable {σ τ ρ : Type}

namespace Parameter

theorem isValue_mapSource (f : ρ → σ → τ × ρ) (state : ρ) (keys : List String) (name : String)
    (kind : Kind σ) :
    (node keys name "" false (Kind.mapSource f state kind).1 []).isValue =
      (node keys name "" false kind []).isValue := by
  cases kind with
  | command | flag => rfl
  | value source separator => cases source <;> rfl

/-- Replaces the elements of a list one after the other, handing on a state. -/
def mapList (f : ρ → σ → τ × ρ) (state : ρ) : List σ → List τ × ρ
  | [] => ([], state)
  | s :: rest =>
    ((f state s).1 :: (mapList f (f state s).2 rest).1, (mapList f (f state s).2 rest).2)

theorem mapList_append (f : ρ → σ → τ × ρ) (state : ρ) (first second : List σ) :
    mapList f state (first ++ second) =
      ((mapList f state first).1 ++ (mapList f (mapList f state first).2 second).1,
        (mapList f (mapList f state first).2 second).2) := by
  induction first generalizing state with
  | nil => rfl
  | cons s rest ih => simp only [List.cons_append, mapList, ih]

theorem mem_mapList {f : ρ → σ → τ × ρ} {state : ρ} {l : List σ} {s : τ}
    (member : s ∈ (mapList f state l).1) : ∃ own ∈ l, ∃ before, s = (f before own).1 := by
  induction l generalizing state with
  | nil => simp [mapList] at member
  | cons own rest ih =>
      rcases List.mem_cons.mp member with rfl | later
      · exact ⟨own, List.mem_cons_self, state, rfl⟩
      · obtain ⟨own, declared, before, same⟩ := ih later
        exact ⟨own, List.mem_cons_of_mem _ declared, before, same⟩

mutual
theorem sources_mapSources (f : ρ → σ → τ × ρ) (state : ρ) (p : Parameter σ) :
    ((p.mapSources f state).1.sources, (p.mapSources f state).2) = mapList f state p.sources := by
  cases p with
  | node keys name description recursive kind children =>
      have below := fun state => sourcesOfList_mapSources f state children
      simp only [Prod.ext_iff] at below ⊢
      cases kind with
      | command | flag => simpa [mapSources, sources, Kind.mapSource] using below state
      | value source separator =>
          cases source with
          | none => simpa [mapSources, sources, Kind.mapSource] using below state
          | some source =>
              simpa [mapSources, sources, Kind.mapSource, mapList] using below (f state source).2
termination_by sizeOf p

theorem sourcesOfList_mapSources (f : ρ → σ → τ × ρ) (state : ρ) (ps : List (Parameter σ)) :
    (sourcesOfList (mapSourcesOfList f state ps).1, (mapSourcesOfList f state ps).2) =
      mapList f state (sourcesOfList ps) := by
  cases ps with
  | nil => rfl
  | cons p rest =>
      have here := sources_mapSources f state p
      have later := sourcesOfList_mapSources f (p.mapSources f state).2 rest
      simp only [mapSourcesOfList, sourcesOfList, mapList_append, ← here, ← later]
termination_by sizeOf ps
end

end Parameter

namespace Validation

mutual
theorem checkParameter_mapSources (f : ρ → σ → τ × ρ) (state : ρ) (path seen : List String)
    (p : Parameter σ) :
    checkParameter path seen (p.mapSources f state).1 = checkParameter path seen p := by
  cases p with
  | node keys name description recursive kind children =>
      simp only [Parameter.mapSources, checkParameter, Parameter.isValue_mapSource]
      rw [checkParameters_mapSources f _ (path ++ [name]) [] children]
termination_by sizeOf p

theorem checkParameters_mapSources (f : ρ → σ → τ × ρ) (state : ρ) (path seen : List String)
    (ps : List (Parameter σ)) :
    checkParameters path seen (Parameter.mapSourcesOfList f state ps).1 =
      checkParameters path seen ps := by
  cases ps with
  | nil => rfl
  | cons p rest =>
      simp only [Parameter.mapSourcesOfList, checkParameters]
      rw [checkParameter_mapSources f state path seen p]
      cases checkParameter path seen p with
      | error e => rfl
      | ok seen => exact checkParameters_mapSources f _ path seen rest
termination_by sizeOf ps
end

end Validation

namespace Dictionary

theorem validate_mapSources (f : ρ → σ → τ × ρ) (state : ρ) (d : Dictionary σ) :
    (d.mapSources f state).1.validate = d.validate := by
  have empty :
      (Parameter.mapSourcesOfList f state d.parameters).1.isEmpty = d.parameters.isEmpty := by
    cases d.parameters <;> rfl
  simp only [mapSources, validate, empty, Validation.checkParameters_mapSources]

theorem sources_bindSources_attach (d : Dictionary Source) (next : CellId) (context : ContextId) :
    ((d.attach next).1.bindSources context).sources =
      (Parameter.mapList (fun (_ : Unit) s => (s.bind context, ())) ()
        (Parameter.mapList Source.attach next d.sources).1).1 := by
  have attached := congrArg Prod.fst
    (Parameter.sourcesOfList_mapSources Source.attach next d.parameters)
  have bound := congrArg Prod.fst (Parameter.sourcesOfList_mapSources
    (fun (_ : Unit) (s : LiveSource) => (s.bind context, ())) () (d.attach next).1.parameters)
  exact bound.trans (congrArg (fun l => (Parameter.mapList _ () l).1) attached)

theorem context_bindSources_attach {d : Dictionary Source} {next : CellId} {context : ContextId}
    {s : LiveSource} (member : s ∈ ((d.attach next).1.bindSources context).sources) :
    s.context = some context := by
  rw [sources_bindSources_attach] at member
  obtain ⟨own, attached, _, rfl⟩ := Parameter.mem_mapList member
  obtain ⟨source, _, cell, rfl⟩ := Parameter.mem_mapList attached
  rfl

theorem cells_bind (context : ContextId) (l : List LiveSource) :
    (Parameter.mapList (fun (_ : Unit) s => (s.bind context, ())) () l).1.map (·.cell) =
      l.map (·.cell) := by
  induction l with
  | nil => rfl
  | cons s rest ih => exact congrArg (s.cell :: ·) ih

theorem cells_attach (next : CellId) (l : List Source) :
    (Parameter.mapList Source.attach next l).1.map (·.cell) = List.range' next l.length := by
  induction l generalizing next with
  | nil => rfl
  | cons s rest ih => simp [Parameter.mapList, Source.attach, ih, List.range'_succ]

theorem nodup_cells_attach (d : Dictionary Source) (next : CellId) (context : ContextId) :
    (((d.attach next).1.bindSources context).sources.map (·.cell)).Nodup := by
  rw [sources_bindSources_attach, cells_bind, cells_attach]
  exact List.nodup_range'

/-- Giving caches and a context fails with a dictionary that breaks a rule, and with no other. -/
theorem bindTo_attach_eq_ok_iff {d : Dictionary Source} {next : CellId} {context : ContextId}
    {bound : Dictionary LiveSource} :
    (d.attach next).1.bindTo (some context) = .ok bound ↔
      d.validate = .ok () ∧ bound = (d.attach next).1.bindSources context := by
  have attached : (d.attach next).1.validate = d.validate := validate_mapSources _ _ d
  simp only [bindTo, attached]
  cases d.validate with
  | error cause => simp
  | ok => simp [eq_comm]

theorem bindTo_attach {d : Dictionary Source} (valid : d.validate = .ok ()) (next : CellId)
    (context : ContextId) :
    ∃ bound, (d.attach next).1.bindTo (some context) = .ok bound ∧
      bound.name = d.name ∧ bound.keys = d.keys := by
  exact ⟨_, bindTo_attach_eq_ok_iff.mpr ⟨valid, rfl⟩, rfl, rfl⟩

end Dictionary

end LineCompletion

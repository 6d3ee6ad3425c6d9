import LineCompletion.Proofs.Engine.Loading
import LineCompletion.Proofs.Engine.Moves

/-! # What is published

Whatever is loaded, fails and is started again: all that is published is ready for use, under names
of its own, and comes from the last library that was loaded with a dictionary of its name for the
platform.
-/

namespace LineCompletion

namespace Library

theorem eq_ofList_of_ofFile [Codec] {fs : Files} {path : String} {library : Library Source}
    (read : ofFile fs path = .ok library) : ∃ ds, library = ofList (.file path) ds := by
  unfold ofFile at read
  cases loaded : fs.loadDictionary path with
  | error cause => simp [loaded, Except.map] at read
  | ok d =>
      rw [loaded] at read
      exact ⟨[d], (Except.ok.inj read).symm⟩

theorem eq_ofList_of_ofDirectory [Codec] {fs : Files} {path : String} {library : Library Source}
    (read : ofDirectory fs path = .ok library) : ∃ ds, library = ofList (.directory path) ds := by
  unfold ofDirectory at read
  split at read
  · simp at read
  · rename_i names _
    cases loaded : loadAll fs (fs.dictionaryPaths path names) with
    | error cause => simp [loaded, Except.map] at read
    | ok ds =>
        rw [loaded] at read
        exact ⟨ds, (Except.ok.inj read).symm⟩

theorem distinct_ofPath [Codec] {fs : Files} {path : String} {library : Library Source}
    (read : ofPath fs path = .ok library) : (library.dictionaries.map (·.name)).Nodup := by
  have distinct (origin : Origin) (ds : List (Dictionary Source)) :
      ((ofList origin ds).dictionaries.map (·.name)).Nodup :=
    List.pairwise_map.mpr ((indexed_ofList origin ds).sorted.imp ne_of_lt)
  unfold ofPath at read
  split at read
  · obtain ⟨ds, rfl⟩ := eq_ofList_of_ofDirectory read
    exact distinct _ ds
  · obtain ⟨ds, rfl⟩ := eq_ofList_of_ofFile read
    exact distinct _ ds

def forPlatform? (library : Library Source) (name : String) : Option (Dictionary Source) :=
  library.dictionaries.find? fun d => d.name == name && d.supports Platforms.current

theorem forPlatform?_eq_some_iff {library : Library Source}
    (distinct : (library.dictionaries.map (·.name)).Nodup) {name : String} {d : Dictionary Source} :
    library.forPlatform? name = some d ↔
      d ∈ library.dictionaries ∧ d.name = name ∧ d.supports Platforms.current = true := by
  constructor
  · intro found
    exact ⟨List.mem_of_find?_eq_some found, by simpa using List.find?_some found⟩
  · rintro ⟨stored, rfl, supported⟩
    cases found : library.forPlatform? d.name with
    | none => exact absurd (List.find?_eq_none.mp found d stored) (by simp [supported])
    | some e =>
        obtain ⟨named, -⟩ : e.name = d.name ∧ e.supports Platforms.current = true := by
          simpa using List.find?_some found
        rw [List.inj_on_of_nodup_map distinct (List.mem_of_find?_eq_some found) stored named]

end Library

/-- A suggestor that can be asked: its dictionary is in order and applies to the platform, with all
sources bound to a context. -/
structure Suggestor.Usable (context : ContextId) (options : SuggestOptions) (g : Suggestor) :
    Prop where
  valid : g.dictionary.validate = .ok ()
  supported : g.dictionary.supports Platforms.current = true
  bound : ∀ s ∈ g.dictionary.sources, s.context = some context
  options : g.options = options

/-- A suggestor of a dictionary that is valid and applies to the platform, with all sources bound to
a context. -/
structure Suggestor.Serves (context : ContextId) (options : SuggestOptions) (g : Suggestor)
    (d : Dictionary Source) : Prop where
  valid : d.validate = .ok ()
  supported : d.supports Platforms.current = true
  same : ∃ cell, g = { dictionary := (d.attach cell).1.bindSources context, options }

namespace Suggestor.Serves

variable {context : ContextId} {options : SuggestOptions} {g : Suggestor} {d : Dictionary Source}

theorem name (serves : g.Serves context options d) : g.dictionary.name = d.name := by
  obtain ⟨cell, rfl⟩ := serves.same
  rfl

theorem usable (serves : g.Serves context options d) : g.Usable context options := by
  obtain ⟨valid, supported, cell, rfl⟩ := serves
  refine ⟨?_, supported, fun s => Dictionary.context_bindSources_attach, rfl⟩
  rw [Dictionary.bindSources, Dictionary.validate_mapSources, Dictionary.attach,
    Dictionary.validate_mapSources, valid]

end Suggestor.Serves

namespace Engine

/-- All that is made ready of a library serves the dictionaries that apply to the platform. -/
theorem serves_of_prepare {context : ContextId} {options : SuggestOptions} {next cell : CellId}
    {ds : List (Dictionary Source)} {suggestors : List Suggestor}
    (prepared : prepare context options next ds = .ok (suggestors, cell)) :
    List.Forall₂ (Suggestor.Serves context options) suggestors
      (ds.filter fun d => d.supports Platforms.current) := by
  induction ds generalizing next suggestors with
  | nil =>
      obtain ⟨rfl, -⟩ : [] = suggestors ∧ next = cell := by simpa [prepare] using prepared
      exact .nil
  | cons d rest ih =>
      unfold prepare at prepared
      by_cases supported : d.supports Platforms.current = true
      · simp only [supported, Bool.not_true, Bool.false_eq_true, if_false] at prepared
        split at prepared
        · simp at prepared
        · rename_i bound bind
          split at prepared
          · simp at prepared
          · rename_i later _ ready
            obtain ⟨rfl, rfl⟩ := Prod.mk.inj (Except.ok.inj prepared)
            obtain ⟨valid, rfl⟩ := Dictionary.bindTo_attach_eq_ok_iff.mp bind
            simp only [List.filter_cons, supported, if_true]
            exact .cons ⟨valid, supported, next, rfl⟩ (ih ready)
      · simp only [supported, Bool.not_false, if_true] at prepared
        simp only [List.filter_cons, supported, Bool.false_eq_true, if_false]
        exact ih prepared

section Ready

variable {context : ContextId} {options : SuggestOptions} {suggestors : List Suggestor}
  {ds : List (Dictionary Source)}

theorem names_of_serves (serves : List.Forall₂ (Suggestor.Serves context options) suggestors ds) :
    suggestors.map (·.dictionary.name) = ds.map (·.name) := by
  induction serves with
  | nil => rfl
  | cons serves _ ih => rw [List.map_cons, List.map_cons, serves.name, ih]

theorem exists_serves (serves : List.Forall₂ (Suggestor.Serves context options) suggestors ds)
    {g : Suggestor} (member : g ∈ suggestors) : ∃ d ∈ ds, g.Serves context options d := by
  induction serves with
  | nil => simp at member
  | cons serves _ ih =>
      rcases List.mem_cons.mp member with rfl | later
      · exact ⟨_, List.mem_cons_self, serves⟩
      · obtain ⟨d, below, same⟩ := ih later
        exact ⟨d, List.mem_cons_of_mem _ below, same⟩

theorem mem_names_iff_forPlatform? {library : Library Source}
    (serves : List.Forall₂ (Suggestor.Serves context options) suggestors
      (library.dictionaries.filter fun d => d.supports Platforms.current))
    (distinct : (library.dictionaries.map (·.name)).Nodup) (name : String) :
    name ∈ suggestors.map (·.dictionary.name) ↔ ∃ d, library.forPlatform? name = some d := by
  simp only [names_of_serves serves, List.mem_map, List.mem_filter,
    Library.forPlatform?_eq_some_iff distinct]
  constructor
  · rintro ⟨d, ⟨stored, supported⟩, rfl⟩
    exact ⟨d, stored, rfl, supported⟩
  · rintro ⟨d, stored, rfl, supported⟩
    exact ⟨d, ⟨stored, supported⟩, rfl⟩

end Ready

theorem mem_publish_iff {e : Engine} {suggestors : List Suggestor} {g : Suggestor} :
    g ∈ (e.publish suggestors).suggestors ↔
      (g ∈ e.suggestors ∧ g.dictionary.name ∉ suggestors.map (·.dictionary.name)) ∨
        g ∈ suggestors := by
  simp [publish, List.mem_filter]

theorem mem_names_publish (e : Engine) (suggestors : List Suggestor) (name : String) :
    name ∈ (e.publish suggestors).suggestors.map (·.dictionary.name) ↔
      name ∈ e.suggestors.map (·.dictionary.name) ∨
        name ∈ suggestors.map (·.dictionary.name) := by
  simp only [List.mem_map (b := name), mem_publish_iff]
  constructor
  · rintro ⟨g, ⟨published, -⟩ | new, rfl⟩
    · exact .inl ⟨g, published, rfl⟩
    · exact .inr ⟨g, new, rfl⟩
  · rintro (⟨g, published, rfl⟩ | ⟨g, new, rfl⟩)
    · by_cases replaced : g.dictionary.name ∈ suggestors.map (·.dictionary.name)
      · obtain ⟨l, new, same⟩ := List.mem_map.mp replaced
        exact ⟨l, .inr new, same⟩
      · exact ⟨g, .inl ⟨published, replaced⟩, rfl⟩
    · exact ⟨g, .inr new, rfl⟩

theorem nodup_publish {e : Engine} {suggestors : List Suggestor}
    (before : (e.suggestors.map (·.dictionary.name)).Nodup)
    (now : (suggestors.map (·.dictionary.name)).Nodup) :
    ((e.publish suggestors).suggestors.map (·.dictionary.name)).Nodup := by
  rw [Engine.publish, List.map_append]
  refine List.nodup_append.mpr ⟨List.Nodup.sublist (List.filter_sublist.map _) before, now, ?_⟩
  rintro name kept _ new rfl
  obtain ⟨g, member, rfl⟩ := List.mem_map.mp kept
  obtain ⟨-, other⟩ := List.mem_filter.mp member
  simp only [Bool.not_eq_true', List.any_eq_false, beq_iff_eq] at other
  obtain ⟨l, replaced, same⟩ := List.mem_map.mp new
  exact other l replaced same

end Engine

namespace Session

open Engine

/-- The libraries that workers publish with some moves, in order. -/
def publications : Session → List Move → List (Library Source)
  | _, [] => []
  | s, m :: moves => (s.publishes m).toList ++ (s.act m).publications moves

/-- The dictionary of a name that was published last. -/
def latest? (libraries : List (Library Source)) (name : String) : Option (Dictionary Source) :=
  libraries.reverse.findSome? fun library => library.forPlatform? name

theorem latest?_append (libraries : List (Library Source)) (library : Library Source)
    (name : String) :
    latest? (libraries ++ [library]) name =
      (library.forPlatform? name).or (latest? libraries name) := by
  rw [latest?, List.reverse_append, List.reverse_singleton, List.singleton_append,
    List.findSome?_cons]
  cases library.forPlatform? name with
  | none => rfl
  | some d => rfl

/-- What is published serves the dictionaries that were published last under their names. -/
structure UpToDate (context : ContextId) (options : SuggestOptions) (suggestors : List Suggestor)
    (libraries : List (Library Source)) : Prop where
  distinct : (suggestors.map (·.dictionary.name)).Nodup
  latest : ∀ g ∈ suggestors, ∃ d, latest? libraries g.dictionary.name = some d ∧
    g.Serves context options d
  complete : ∀ name d, latest? libraries name = some d →
    ∃ g ∈ suggestors, g.dictionary.name = name

/-- Publishing replaces the dictionaries of the names that a library has, and no others. -/
theorem UpToDate.publish {e : Engine} {libraries : List (Library Source)}
    {library : Library Source} {suggestors : List Suggestor} {cell : CellId}
    (upToDate : UpToDate e.context e.options e.suggestors libraries)
    (distinct : (library.dictionaries.map (·.name)).Nodup)
    (prepared : prepare e.context e.options e.nextCell library.dictionaries =
      .ok (suggestors, cell)) :
    UpToDate e.context e.options (e.publish suggestors).suggestors (libraries ++ [library]) := by
  have serves := serves_of_prepare prepared
  have replaced (name : String) := mem_names_iff_forPlatform? serves distinct name
  have absent {name : String} (other : name ∉ suggestors.map (·.dictionary.name)) :
      library.forPlatform? name = none := by
    rw [replaced, not_exists] at other
    exact Option.eq_none_iff_forall_ne_some.mpr other
  refine ⟨?_, ?_, ?_⟩
  · refine nodup_publish upToDate.distinct ?_
    rw [names_of_serves serves]
    exact List.Nodup.sublist (List.filter_sublist.map _) distinct
  · intro g member
    rw [latest?_append]
    rcases mem_publish_iff.mp member with ⟨published, other⟩ | now
    · obtain ⟨d, latest, serves⟩ := upToDate.latest g published
      exact ⟨d, by rw [absent other, latest, Option.none_or], serves⟩
    · obtain ⟨d, member, serves⟩ := exists_serves serves now
      have stored : library.forPlatform? d.name = some d :=
        (Library.forPlatform?_eq_some_iff distinct).mpr
          ⟨List.mem_of_mem_filter member, rfl, serves.supported⟩
      exact ⟨d, by rw [serves.name, stored, Option.some_or], serves⟩
  · intro name d latest
    rw [latest?_append] at latest
    by_cases now : name ∈ suggestors.map (·.dictionary.name)
    · obtain ⟨g, member, rfl⟩ := List.mem_map.mp now
      exact ⟨g, mem_publish_iff.mpr (.inr member), rfl⟩
    · rw [absent now, Option.none_or] at latest
      obtain ⟨g, published, rfl⟩ := upToDate.complete name d latest
      exact ⟨g, mem_publish_iff.mpr (.inl ⟨published, now⟩), rfl⟩

theorem upToDate_act {s : Session} {m : Move} {libraries : List (Library Source)}
    (reads : ∀ library, m = .filesRead (.ok library) → (library.dictionaries.map (·.name)).Nodup)
    (upToDate : UpToDate s.engine.context s.engine.options s.engine.suggestors libraries) :
    UpToDate s.engine.context s.engine.options (s.act m).engine.suggestors
      (libraries ++ (s.publishes m).toList) := by
  cases publishing_act s m with
  | nothing free published =>
      rw [free, published, Option.toList_none, List.append_nil]
      exact upToDate
  | ready publishes read _ prepared same =>
      rw [publishes, same]
      exact upToDate.publish (reads _ read) prepared

theorem settings_act (s : Session) (m : Move) :
    (s.act m).engine.context = s.engine.context ∧ (s.act m).engine.options = s.engine.options := by
  cases publishing_act s m with
  | nothing _ _ options context => exact ⟨context, options⟩
  | ready _ _ _ _ same =>
      rw [same]
      exact ⟨rfl, rfl⟩

theorem upToDate_run {s : Session} {moves : List Move} {libraries : List (Library Source)}
    (reads : ∀ library, .filesRead (.ok library) ∈ moves →
      (library.dictionaries.map (·.name)).Nodup)
    (upToDate : UpToDate s.engine.context s.engine.options s.engine.suggestors libraries) :
    UpToDate s.engine.context s.engine.options (s.run moves).engine.suggestors
      (libraries ++ s.publications moves) := by
  induction moves generalizing s libraries with
  | nil =>
      rw [publications, List.append_nil]
      exact upToDate
  | cons m moves ih =>
      have next := upToDate_act
        (fun library read => reads library (read ▸ List.mem_cons_self)) upToDate
      obtain ⟨context, options⟩ := settings_act s m
      rw [← context, ← options] at next ⊢
      rw [publications, ← List.append_assoc]
      exact ih (fun library read => reads library (List.mem_cons_of_mem _ read)) next

theorem settings_run (s : Session) (moves : List Move) :
    (s.run moves).engine.context = s.engine.context ∧
      (s.run moves).engine.options = s.engine.options := by
  induction moves generalizing s with
  | nil => exact ⟨rfl, rfl⟩
  | cons m moves ih =>
      obtain ⟨context, options⟩ := settings_act s m
      obtain ⟨context', options'⟩ := ih (s.act m)
      exact ⟨context'.trans context, options'.trans options⟩

/-- What an engine has published after some libraries were loaded: dictionaries that are usable and
have names of their own, each the one of its name that was loaded last, and all of these. -/
structure Published (e : Engine) (libraries : List (Library Source)) : Prop where
  usable : ∀ g ∈ e.suggestors, g.Usable e.context e.options
  distinct : (e.suggestors.map (·.dictionary.name)).Nodup
  latest : ∀ g ∈ e.suggestors, ∃ d cell, latest? libraries g.dictionary.name = some d ∧
    g.dictionary = (d.attach cell).1.bindSources e.context
  complete : ∀ name d, latest? libraries name = some d →
    ∃ g ∈ e.suggestors, g.dictionary.name = name

/-- Whatever is loaded from files and directories that change, fails and is started again: all that
is published is usable, under a name of its own, and was loaded last of those with its name. -/
theorem published_usable_latest [Codec] (options : SuggestOptions) (context : ContextId)
    (moves : List Move)
    (reads : ∀ result, .filesRead result ∈ moves → ∃ fs path, result = Library.ofPath fs path) :
    Published ((fresh options context).run moves).engine
      ((fresh options context).publications moves) := by
  have distinct : ∀ library, Move.filesRead (.ok library) ∈ moves →
      (library.dictionaries.map (·.name)).Nodup := by
    intro library read
    obtain ⟨fs, path, loaded⟩ := reads _ read
    exact Library.distinct_ofPath loaded.symm
  have empty : UpToDate context options [] [] := ⟨List.nodup_nil, by simp, by simp [latest?]⟩
  have upToDate := upToDate_run (s := fresh options context) distinct empty
  obtain ⟨sameContext, sameOptions⟩ := settings_run (fresh options context) moves
  rw [List.nil_append, ← sameContext, ← sameOptions] at upToDate
  refine ⟨?_, upToDate.distinct, ?_, upToDate.complete⟩
  · intro g published
    obtain ⟨d, _, serves⟩ := upToDate.latest g published
    exact serves.usable
  · intro g published
    obtain ⟨d, latest, serves⟩ := upToDate.latest g published
    obtain ⟨cell, rfl⟩ := serves.same
    exact ⟨d, cell, latest, rfl⟩

/-- The octets of a document for git without a short form. -/
def shortened : List UInt8 :=
  Text.Utf8.encode <| ["\x7b\"name\":\"git\",\"keys\":[\"git\"],", "\"platforms\":[\"all\"],",
    "\"parameters\":[\x7b\"name\":\"help\",", "\"keys\":[\"help\"],",
    "\"type\":\"command\"\x7d]\x7d"].flatMap String.toList

def loadFile (content : List UInt8) : List Move :=
  [.requestLoad "a.json", .work fun _ => 0, .work fun _ => 0,
    .filesRead (Library.ofPath { entries := [(["a.json"], .file content)] } "a.json")]

/-- It is started and loads the file twice. Meanwhile the dictionary in it loses its short form. -/
def loadRewritten : List Move :=
  [.start, .work fun _ => 0] ++ loadFile (Files.shortForm "git") ++ loadFile shortened

theorem published_usable_latest_rewritten :
    ((fresh {} 0).publications loadRewritten).map
        (fun library => library.dictionaries.map fun d => (d.name, d.keys)) =
      [[("git", ["git", "g"])], [("git", ["git"])]] ∧
      ((fresh {} 0).run loadRewritten).engine.suggestors.map
          (fun g => (g.dictionary.name, g.dictionary.keys)) =
        [("git", ["git"])] ∧
      (∀ result, .filesRead result ∈ loadRewritten →
        ∃ fs path, result = Library.ofPath fs path) ∧
      Published ((fresh {} 0).run loadRewritten).engine
        ((fresh {} 0).publications loadRewritten) := by
  have reads : ∀ result, .filesRead result ∈ loadRewritten →
      ∃ fs path, result = Library.ofPath fs path := by
    intro result read
    simp only [loadRewritten, loadFile, List.mem_append, List.mem_cons, List.not_mem_nil,
      reduceCtorEq, Move.filesRead.injEq, or_false, false_or] at read
    rcases read with first | second
    · exact ⟨_, _, first⟩
    · exact ⟨_, _, second⟩
  exact ⟨by decide +kernel, by decide +kernel, reads,
    published_usable_latest {} 0 loadRewritten reads⟩

end Session

end LineCompletion

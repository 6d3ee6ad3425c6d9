import LineCompletion.Proofs.Engine.Published

/-! # Loading a path once more

A library is published behind all other dictionaries, and what it replaces is taken out from where
it stood. A path whose files have not changed may so lose a command word when it is loaded once
more: a dictionary of another name, published after it, now stands in front of it. Where the path
was loaded last of all, a second load changes no answer.
-/

namespace LineCompletion

namespace Library

def applicable (library : Library Source) : List (Dictionary Source) :=
  library.dictionaries.filter fun d => d.supports Platforms.current

/-- The name of the dictionary with which a library alone answers a command word. -/
def nameFor? (library : Library Source) (command : String) : Option String :=
  (library.applicable.find? (·.matchesKey command)).map (·.name)

end Library

theorem Suggestor.Serves.keys {context : ContextId} {options : SuggestOptions} {g : Suggestor}
    {d : Dictionary Source} (serves : g.Serves context options d) : g.dictionary.keys = d.keys := by
  obtain ⟨cell, rfl⟩ := serves.same
  rfl

namespace Engine

/-- The name of the published dictionary that answers a command word. -/
def nameFor? (e : Engine) (command : String) : Option String :=
  (e.suggestorFor command).map (·.dictionary.name)

/-- The published dictionaries whose names a library does not have for the platform. -/
def besides (e : Engine) (library : Library Source) : List Suggestor :=
  e.suggestors.filter fun g => decide (g.dictionary.name ∉ library.applicable.map (·.name))

/-- The name with which a command word is answered by those dictionaries, or else by the library. -/
def nameBehind? (e : Engine) (library : Library Source) (command : String) : Option String :=
  (((e.besides library).find? (·.handles command)).map (·.dictionary.name)).or
    (library.nameFor? command)

variable {context : ContextId} {options : SuggestOptions} {e : Engine} {library : Library Source}
  {suggestors : List Suggestor}

theorem valid_of_serves {ds : List (Dictionary Source)}
    (serves : List.Forall₂ (Suggestor.Serves context options) suggestors ds) :
    ∀ d ∈ ds, d.validate = .ok () := by
  induction serves with
  | nil => simp
  | cons serves _ ih => exact List.forall_mem_cons.mpr ⟨serves.valid, ih⟩

theorem nameFor?_congr {next : Engine} (same : next.suggestors = e.suggestors) (command : String) :
    next.nameFor? command = e.nameFor? command := by
  rw [nameFor?, suggestorFor, same, nameFor?, suggestorFor]

theorem nameBehind?_congr {next : Engine} (same : next.suggestors = e.suggestors)
    (command : String) : next.nameBehind? library command = e.nameBehind? library command := by
  rw [nameBehind?, besides, same, nameBehind?, besides]

section Publish

variable (serves : List.Forall₂ (Suggestor.Serves context options) suggestors library.applicable)
  (e : Engine) (command : String)
include serves

theorem find?_serves :
    (suggestors.find? (·.handles command)).map (·.dictionary.name) = library.nameFor? command :=
  find?_handles (serves.imp fun _ _ each => ⟨each.name, each.keys⟩) command

theorem suggestors_publish :
    (e.publish suggestors).suggestors = e.besides library ++ suggestors := by
  have kept (g : Suggestor) :
      (!suggestors.any fun l => l.dictionary.name == g.dictionary.name) =
        decide (g.dictionary.name ∉ library.applicable.map (·.name)) := by
    rw [← names_of_serves serves, Bool.eq_iff_iff]
    simp
  simp only [publish, besides, kept]

theorem besides_publish : (e.publish suggestors).besides library = e.besides library := by
  have own : suggestors.filter
      (fun g => decide (g.dictionary.name ∉ library.applicable.map (·.name))) = [] := by
    rw [← names_of_serves serves]
    refine List.filter_eq_nil_iff.mpr fun g member => ?_
    simpa using ⟨g, member, rfl⟩
  rw [besides, suggestors_publish serves, List.filter_append, own, List.append_nil, besides,
    List.filter_filter]
  simp only [Bool.and_self]

theorem nameBehind?_publish :
    (e.publish suggestors).nameBehind? library command = e.nameBehind? library command := by
  rw [nameBehind?, besides_publish serves, nameBehind?]

theorem nameFor?_publish :
    (e.publish suggestors).nameFor? command = e.nameBehind? library command := by
  rw [nameFor?, suggestorFor, suggestors_publish serves, List.find?_append, nameBehind?,
    ← find?_serves serves]
  cases (e.besides library).find? (·.handles command) <;> rfl

end Publish

/-- Why a command word is answered as before where a library is published once more. -/
inductive KeepsAnswer (e : Engine) (library : Library Source) (command : String) : Prop where
  /-- The dictionary that answers has a name that the library has not. -/
  | besides {g : Suggestor} (selected : e.suggestorFor command = some g)
      (other : g.dictionary.name ∉ library.applicable.map (·.name)) : KeepsAnswer e library command
  /-- Only dictionaries of its names have the word, and alone it answers with the same name. -/
  | alone
      (own : ∀ g ∈ e.suggestors, g.handles command = true →
        g.dictionary.name ∈ library.applicable.map (·.name))
      (same : library.nameFor? command = e.nameFor? command) : KeepsAnswer e library command

theorem find?_besides_of_selected {command : String} {g : Suggestor}
    (selected : e.suggestorFor command = some g)
    (other : g.dictionary.name ∉ library.applicable.map (·.name)) :
    (e.besides library).find? (·.handles command) = some g := by
  obtain ⟨handles, early, late, parts, none⟩ := List.find?_eq_some_iff_append.mp selected
  rw [besides, parts, List.filter_append, List.filter_cons, if_pos (decide_eq_true other)]
  refine List.find?_eq_some_iff_append.mpr ⟨handles, _, _, rfl, fun a member => ?_⟩
  exact none a (List.mem_of_mem_filter member)

/-- Published once more, a library leaves a command word its answer exactly in these cases. -/
theorem nameBehind?_eq_iff (command : String) :
    e.nameBehind? library command = e.nameFor? command ↔ e.KeepsAnswer library command := by
  -- the library is asked only if no dictionary of another name has the word
  cases found : (e.besides library).find? (·.handles command) with
  | none =>
      have own : ∀ g ∈ e.suggestors, g.handles command = true →
          g.dictionary.name ∈ library.applicable.map (·.name) := by
        intro g published handles
        by_contra other
        have kept : g ∈ e.besides library :=
          List.mem_filter.mpr ⟨published, decide_eq_true other⟩
        exact List.find?_eq_none.mp found g kept handles
      rw [nameBehind?, found, Option.map_none, Option.none_or]
      constructor
      · intro same
        exact .alone own same
      · intro keeps
        cases keeps with
        | alone _ same => exact same
        | besides selected other =>
            have first := find?_besides_of_selected selected other
            simp [found] at first
  | some g =>
      obtain ⟨published, other⟩ := List.mem_filter.mp (List.mem_of_find?_eq_some found)
      have handles : g.handles command = true := by simpa using List.find?_some found
      rw [nameBehind?, found, Option.map_some, Option.some_or]
      constructor
      · intro same
        obtain ⟨first, selected, name⟩ := Option.map_eq_some_iff.mp same.symm
        exact .besides selected (name ▸ of_decide_eq_true other)
      · intro keeps
        cases keeps with
        | besides selected other =>
            have first := find?_besides_of_selected selected other
            obtain rfl := Option.some.inj (found.symm.trans first)
            rw [nameFor?, selected, Option.map_some]
        | alone own _ => exact absurd (own g published handles) (of_decide_eq_true other)

/-- The path whose files the worker waits for. -/
def loadingPath? (e : Engine) : Option String :=
  match e.activity? with
  | some (.loading path) => some path
  | _ => none

end Engine

namespace Session

open Engine

/-! ## What was loaded for a path -/

/-- The path and the library that the worker loads with a move. -/
def loads (s : Session) (m : Move) : Option (String × Library Source) :=
  s.engine.loadingPath?.bind fun path => (s.publishes m).map fun library => (path, library)

def loadings : Session → List Move → List (String × Library Source)
  | _, [] => []
  | s, m :: moves => (s.loads m).toList ++ (s.act m).loadings moves

def lastLoaded? (loadings : List (String × Library Source)) (path : String) :
    Option (Library Source) :=
  (loadings.reverse.find? fun l => l.1 == path).map (·.2)

variable {s : Session} {moves again : List Move} {m : Move} {path : String}
  {library : Library Source}

theorem publications_eq (s : Session) (moves : List Move) :
    s.publications moves = (s.loadings moves).map (·.2) := by
  induction moves generalizing s with
  | nil => rfl
  | cons m moves ih =>
      rw [publications, loadings, List.map_append, ih]
      congr 1
      cases publishing_act s m with
      | nothing free => simp [loads, free]
      | ready publishes _ waits => simp [loads, publishes, loadingPath?, waits]

theorem valid_of_publishes (publishes : s.publishes m = some library) :
    ∀ d ∈ library.dictionaries, d.supports Platforms.current = true → d.validate = .ok () := by
  intro d stored supported
  cases publishing_act s m with
  | nothing free => simp [free] at publishes
  | ready published _ _ prepared =>
      obtain rfl := Option.some.inj (published.symm.trans publishes)
      exact valid_of_serves (serves_of_prepare prepared) d (List.mem_filter.mpr ⟨stored, supported⟩)

theorem valid_of_mem_publications (published : library ∈ s.publications moves) :
    ∀ d ∈ library.dictionaries, d.supports Platforms.current = true → d.validate = .ok () := by
  induction moves generalizing s with
  | nil => simp [publications] at published
  | cons m moves ih =>
      rcases List.mem_append.mp published with now | later
      · exact valid_of_publishes (Option.mem_toList.mp now)
      · exact ih later

theorem mem_of_lastLoaded? {loadings : List (String × Library Source)}
    (last : lastLoaded? loadings path = some library) : library ∈ loadings.map (·.2) := by
  obtain ⟨l, found, rfl⟩ := Option.map_eq_some_iff.mp last
  exact List.mem_map_of_mem (List.mem_reverse.mp (List.mem_of_find?_eq_some found))

/-! ## One more load -/

def Move.isReading : Move → Bool
  | .filesRead _ => true
  | _ => false

theorem still_act (other : m.isReading = false) :
    s.publishes m = none ∧ (s.act m).engine.suggestors = s.engine.suggestors := by
  cases publishing_act s m with
  | nothing free published => exact ⟨free, published⟩
  | ready _ read => simp [read, Move.isReading] at other

theorem still_run (other : ∀ m ∈ moves, m.isReading = false) :
    s.publications moves = [] ∧ (s.run moves).engine.suggestors = s.engine.suggestors := by
  induction moves generalizing s with
  | nil => exact ⟨rfl, rfl⟩
  | cons m moves ih =>
      obtain ⟨now, later⟩ := List.forall_mem_cons.mp other
      obtain ⟨free, still⟩ := still_act (s := s) now
      obtain ⟨none, same⟩ := ih (s := s.act m) later
      exact ⟨by rw [publications, free, none]; rfl, same.trans still⟩

theorem publications_append (s : Session) (early late : List Move) :
    s.publications (early ++ late) = s.publications early ++ (s.run early).publications late := by
  induction early generalizing s with
  | nil => rfl
  | cons m early ih =>
      simp only [List.cons_append, publications, ih, run_cons, List.append_assoc]

/-- During some moves the files of a path are read for the worker, and hold a library; no others
are read. -/
inductive Rereads (s : Session) (path : String) (library : Library Source) : List Move → Prop where
  | read {early late : List Move} (before : ∀ m ∈ early, m.isReading = false)
      (loads : (s.run early).engine.loadingPath? = some path)
      (after : ∀ m ∈ late, m.isReading = false) :
      Rereads s path library (early ++ .filesRead (.ok library) :: late)

theorem activity?_of_loadingPath? {e : Engine} (loads : e.loadingPath? = some path) :
    e.activity? = some (.loading path) := by
  unfold loadingPath? at loads
  split at loads
  · rename_i own found
    rw [found, Option.some.inj loads]
  · simp at loads

/-- A worker that waits for a library publishes it if it is in order where it applies to the
platform. -/
theorem publish_of_reading
    (valid : ∀ d ∈ library.dictionaries, d.supports Platforms.current = true → d.validate = .ok ())
    (loads : s.engine.loadingPath? = some path) :
    s.publishes (.filesRead (.ok library)) = some library ∧
      ∃ suggestors, List.Forall₂ (Suggestor.Serves s.engine.context s.engine.options) suggestors
        library.applicable ∧
        (s.act (.filesRead (.ok library))).engine.suggestors =
          (s.engine.publish suggestors).suggestors := by
  have waits := activity?_of_loadingPath? loads
  obtain ⟨suggestors, cell, prepared, -⟩ :=
    prepare_valid s.engine.context s.engine.options s.engine.nextCell valid
  have publishes : s.publishes (.filesRead (.ok library)) = some library := by
    simp only [Session.publishes, waits, prepared]
  refine ⟨publishes, suggestors, serves_of_prepare prepared, ?_⟩
  cases publishing_act s (.filesRead (.ok library)) with
  | nothing free => simp [free] at publishes
  | ready _ read _ made same =>
      obtain rfl := Except.ok.inj (Move.filesRead.inj read)
      obtain ⟨rfl, rfl⟩ := Prod.mk.inj (Except.ok.inj (made.symm.trans prepared))
      rw [same]
      rfl

theorem publish_of_rereads
    (valid : ∀ d ∈ library.dictionaries, d.supports Platforms.current = true → d.validate = .ok ())
    (rereads : Rereads s path library again) :
    s.publications again = [library] ∧
      ∃ suggestors, List.Forall₂ (Suggestor.Serves s.engine.context s.engine.options) suggestors
        library.applicable ∧
        (s.run again).engine.suggestors = (s.engine.publish suggestors).suggestors := by
  cases rereads with
  | @read early late before loads after =>
      obtain ⟨quiet, unchanged⟩ := still_run (s := s) before
      obtain ⟨publishes, suggestors, serves, ready⟩ := publish_of_reading valid loads
      obtain ⟨silent, kept⟩ := still_run (s := (s.run early).act (.filesRead (.ok library))) after
      obtain ⟨context, options⟩ := settings_run s early
      refine ⟨?_, suggestors, context ▸ options ▸ serves, ?_⟩
      · rw [publications_append, quiet, publications, publishes, silent]
        rfl
      · rw [run_append, run_cons, kept, ready, Engine.publish, Engine.publish, unchanged]

theorem nameFor?_of_rereads
    (valid : ∀ d ∈ library.dictionaries, d.supports Platforms.current = true → d.validate = .ok ())
    (rereads : Rereads s path library again) (command : String) :
    (s.run again).engine.nameFor? command = s.engine.nameBehind? library command := by
  obtain ⟨-, suggestors, serves, published⟩ := publish_of_rereads valid rereads
  rw [Engine.nameFor?, suggestorFor, published, ← nameFor?_publish serves, Engine.nameFor?,
    suggestorFor]

/-- A path that is loaded once more with unchanged files is published once more. A command word
keeps its answer exactly where the dictionary that answers it has a name that the path does not
have, or no dictionary of another name has the word and the path alone answers it the same. -/
theorem same_answer_after_reload_iff (options : SuggestOptions) (context : ContextId)
    (loaded : lastLoaded? ((fresh options context).loadings moves) path = some library)
    (rereads : Rereads ((fresh options context).run moves) path library again) :
    let s := (fresh options context).run moves
    s.publications again = [library] ∧
      ∀ command, (s.run again).engine.nameFor? command = s.engine.nameFor? command ↔
        s.engine.KeepsAnswer library command := by
  intro s
  have published : library ∈ (fresh options context).publications moves :=
    publications_eq _ moves ▸ mem_of_lastLoaded? loaded
  have valid := valid_of_mem_publications published
  refine ⟨(publish_of_rereads valid rereads).1, fun command => ?_⟩
  rw [nameFor?_of_rereads valid rereads]
  exact nameBehind?_eq_iff command

/-- The worker loads what the files hold for a path. -/
def loadOf (path : String) (result : Except LoadError (Library Source)) : List Move :=
  [.requestLoad path, .work fun _ => 0, .work fun _ => 0, .filesRead result]

/-- It is started and loads two files, both with a dictionary for the short form. -/
def loadShortForms : List Move :=
  [.start, .work fun _ => 0] ++
    loadOf "commands/a.json" (Library.ofPath Files.shortForms "commands/a.json") ++
    loadOf "commands/b.json" (Library.ofPath Files.shortForms "commands/b.json")

theorem same_answer_after_reload_iff_shortForms :
    ∃ library, lastLoaded? ((fresh {} 0).loadings loadShortForms) "commands/a.json" = some library ∧
      Rereads ((fresh {} 0).run loadShortForms) "commands/a.json" library
        (loadOf "commands/a.json" (.ok library)) ∧
      let s := (fresh {} 0).run loadShortForms
      s.publications (loadOf "commands/a.json" (.ok library)) = [library] ∧
        ∀ command, (s.run (loadOf "commands/a.json" (.ok library))).engine.nameFor? command =
            s.engine.nameFor? command ↔ s.engine.KeepsAnswer library command := by
  have loaded : (lastLoaded? ((fresh {} 0).loadings loadShortForms) "commands/a.json").isSome =
      true := by decide +kernel
  obtain ⟨library, loaded⟩ := Option.isSome_iff_exists.mp loaded
  have before : ∀ m ∈ [.requestLoad "commands/a.json", .work fun _ => 0, .work fun _ => 0],
      Move.isReading m = false := by simp [Move.isReading]
  have loads : (((fresh {} 0).run loadShortForms).run
      [.requestLoad "commands/a.json", .work fun _ => 0, .work fun _ => 0]).engine.loadingPath? =
        some "commands/a.json" := by decide +kernel
  have after : ∀ m ∈ [], Move.isReading m = false := by simp
  have rereads : Rereads ((fresh {} 0).run loadShortForms) "commands/a.json" library
      (loadOf "commands/a.json" (.ok library)) := .read before loads after
  exact ⟨library, loaded, rereads, same_answer_after_reload_iff {} 0 loaded rereads⟩

/-- Two files have a dictionary for the short form. The first one answers it until it is loaded once
more, and then the second one does. -/
theorem answer_changes_after_reload :
    ¬ ∀ (files : Files) (paths : List String) (e : Engine),
      (ofSettings {} false paths).start = .ok e →
      ∀ path ∈ paths,
        let once := (e.settle (Cli.host none) { files }).1
        let again := ((once.requestLoad path).settle (Cli.host none) { files }).1
        once.isHealthy = true → once.queue.isEmpty = true →
        ∀ command, again.nameFor? command = once.nameFor? command := by
  intro same
  have changed := same Files.shortForms ["commands/a.json", "commands/b.json"] _ rfl
    "commands/a.json" (by simp) (by decide +kernel) (by decide +kernel) "g"
  exact absurd changed (by decide +kernel)

/-! ## A path that was loaded last -/

/-- What was published last stands behind all that has other names. -/
theorem nameFor?_of_published_last (s : Session) {moves : List Move}
    {earlier : List (Library Source)} (last : s.publications moves = earlier ++ [library])
    (command : String) :
    (s.run moves).engine.nameFor? command = (s.run moves).engine.nameBehind? library command := by
  -- from the last move back: those that publish nothing keep all, up to the one that published last
  induction moves using List.reverseRecOn generalizing earlier with
  | nil => simp [publications] at last
  | append_singleton moves m ih =>
      rw [publications_append, publications, publications, List.append_nil] at last
      rw [run_append, run_cons, run_nil]
      cases publishing_act (s.run moves) m with
      | nothing free published =>
          rw [free, Option.toList_none, List.append_nil] at last
          rw [nameFor?_congr published, nameBehind?_congr published]
          exact ih last
      | ready publishes _ _ prepared same =>
          rw [publishes, Option.toList_some] at last
          obtain rfl := List.singleton_inj.mp (List.append_inj' last rfl).2
          have serves := serves_of_prepare prepared
          rw [same]
          exact (nameFor?_publish serves _ command).trans
            (nameBehind?_publish serves _ command).symm

/-- A path that was loaded last of all changes no answer when it is loaded once more. -/
theorem same_answer_of_loaded_last (options : SuggestOptions) (context : ContextId)
    {earlier : List (String × Library Source)}
    (last : (fresh options context).loadings moves = earlier ++ [(path, library)])
    (rereads : Rereads ((fresh options context).run moves) path library again) (command : String) :
    (((fresh options context).run moves).run again).engine.nameFor? command =
      ((fresh options context).run moves).engine.nameFor? command := by
  have published : (fresh options context).publications moves =
      earlier.map (·.2) ++ [library] := by
    rw [publications_eq, last, List.map_append, List.map_singleton]
  have own : library ∈ (fresh options context).publications moves := by simp [published]
  have valid := valid_of_mem_publications own
  rw [nameFor?_of_rereads valid rereads, nameFor?_of_published_last _ published]

end Session

end LineCompletion

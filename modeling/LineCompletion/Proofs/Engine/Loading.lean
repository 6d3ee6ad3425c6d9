import Mathlib.Data.List.Forall2
import LineCompletion.Cli.Run
import LineCompletion.Proofs.Dictionary.Sources
import LineCompletion.Proofs.Library.Directory
import LineCompletion.Proofs.Text.AsciiCase

/-! # Which dictionary answers a command word

A library and an engine that have loaded one directory look for the dictionary of a command word in
two ways. The library answers with the dictionary of the last file that has the word as a key, up to
lowercase. The engine answers with the first by name that has it, up to the case of ASCII letters.
-/

namespace LineCompletion

/-! ## Both ways in one library -/

theorem Dictionary.claims_of_matchesKey {σ : Type} {d : Dictionary σ} {command : String}
    (selects : d.matchesKey command = true) : d.claims command = true := by
  obtain ⟨key, own, equal⟩ := List.any_eq_true.mp selects
  exact List.any_eq_true.mpr ⟨key, own, beq_iff_eq.mpr (Text.lower_eq_of_equalAsciiCase equal)⟩

namespace Library

variable {σ : Type} {l : Library σ}

/-- A stored dictionary with a key for a command word, and no other of an earlier name. -/
structure FirstMatch (l : Library σ) (command : String) (d : Dictionary σ) : Prop where
  selects : d.matchesKey command = true
  first : ∀ e ∈ l.dictionaries, e.matchesKey command = true → d.name ≤ e.name

theorem find?_eq_some_iff_firstMatch
    (sorted : l.dictionaries.Pairwise fun a b => a.name < b.name) {command : String}
    {d : Dictionary σ} :
    l.dictionaries.find? (·.matchesKey command) = some d ↔
      d ∈ l.dictionaries ∧ l.FirstMatch command d := by
  constructor
  · intro found
    refine ⟨List.mem_of_find?_eq_some found, by simpa using List.find?_some found, ?_⟩
    obtain ⟨_, before, after, parts, missed⟩ := List.find?_eq_some_iff_append.mp found
    intro e stored selects
    rw [parts] at stored sorted
    rcases List.mem_append.mp stored with earlier | later
    · exact absurd selects (by simpa using missed e earlier)
    · rcases List.mem_cons.mp later with rfl | later
      · exact le_refl _
      · have behind := (List.pairwise_cons.mp (List.pairwise_append.mp sorted).2.1).1 e later
        exact le_of_lt behind
  · rintro ⟨stored, selects, first⟩
    obtain ⟨before, after, parts⟩ := List.append_of_mem stored
    refine List.find?_eq_some_iff_append.mpr ⟨selects, before, after, parts, ?_⟩
    intro e earlier
    rw [Bool.not_eq_true', ← Bool.not_eq_true]
    intro other
    have stored : e ∈ l.dictionaries := by simp [parts, earlier]
    rw [parts] at sorted
    have less := (List.pairwise_append.mp sorted).2.2 e earlier d (by simp)
    exact absurd (first e stored other) (not_le_of_gt less)

namespace Indexed

variable {claimant : String → Option (Dictionary σ)}

/-- The index and a search in the order of names come to one name exactly where the first match is
the last claimant. -/
theorem same_name_iff (indexed : l.Indexed claimant) (command : String) :
    (l.get? command).map (·.name) =
        (l.dictionaries.find? (·.matchesKey command)).map (·.name) ↔
      ∀ d ∈ l.dictionaries, l.FirstMatch command d ↔ claimant command = some d := by
  constructor
  · intro same d stored
    constructor
    · intro first
      have found := (find?_eq_some_iff_firstMatch indexed.sorted).mpr ⟨stored, first⟩
      rw [found, Option.map_some] at same
      obtain ⟨e, answered, name⟩ := Option.map_eq_some_iff.mp same
      obtain ⟨claimed, member⟩ := indexed.get?_eq_some_iff.mp answered
      rwa [indexed.eq_of_name member stored name] at claimed
    · intro claimed
      rw [indexed.get?_eq_some_iff.mpr ⟨claimed, stored⟩, Option.map_some] at same
      obtain ⟨e, found, name⟩ := Option.map_eq_some_iff.mp same.symm
      obtain ⟨member, first⟩ := (find?_eq_some_iff_firstMatch indexed.sorted).mp found
      rwa [indexed.eq_of_name member stored name] at first
  · intro agree
    cases found : l.dictionaries.find? (·.matchesKey command) with
    | some d =>
        obtain ⟨stored, first⟩ := (find?_eq_some_iff_firstMatch indexed.sorted).mp found
        rw [indexed.get?_eq_some_iff.mpr ⟨(agree d stored).mp first, stored⟩]
    | none =>
        cases answered : l.get? command with
        | none => rfl
        | some d =>
            obtain ⟨claimed, stored⟩ := indexed.get?_eq_some_iff.mp answered
            have first := (agree d stored).mpr claimed
            have other := (find?_eq_some_iff_firstMatch indexed.sorted).mpr ⟨stored, first⟩
            simp [found] at other

theorem same_name_of_unshared (indexed : l.Indexed claimant) {command : String}
    (unshared : ∀ d ∈ l.dictionaries, ∀ e, d.claims command = true →
      claimant command = some e → e.name = d.name)
    (ascii : ∀ d ∈ l.dictionaries, d.claims command = true → d.matchesKey command = true) :
    (l.get? command).map (·.name) =
      (l.dictionaries.find? (·.matchesKey command)).map (·.name) := by
  refine (indexed.same_name_iff command).mpr fun d stored => ?_
  constructor
  · intro first
    have claims := Dictionary.claims_of_matchesKey first.selects
    obtain ⟨e, claimed, same⟩ := indexed.claimed d stored command claims
    rw [claimed, same (unshared d stored e claims claimed)]
  · intro claimed
    refine ⟨ascii d stored (indexed.claims command d claimed), ?_⟩
    intro e member selects
    have same := unshared e member d (Dictionary.claims_of_matchesKey selects) claimed
    exact le_of_eq same

end Indexed

end Library

/-! ## The library of a directory -/

/-- The dictionaries of a directory in the order of their paths: all can be read, are valid and
apply to the platform. -/
structure Files.Holds [Codec] (fs : Files) (path : String) (ds : List (Dictionary Source)) :
    Prop where
  read : ∃ names, fs.list path = .ok names ∧
    Library.loadAll fs (fs.dictionaryPaths path names) = .ok ds
  valid : ∀ d ∈ ds, d.validate = .ok ()
  supported : ∀ d ∈ ds, d.supports Platforms.current = true

namespace Files.Holds

variable [Codec] {fs : Files} {path : String} {ds : List (Dictionary Source)}

theorem ofDirectory (holds : fs.Holds path ds) :
    Library.ofDirectory fs path = .ok (Library.ofList (.directory path) ds) := by
  obtain ⟨names, listed, loaded⟩ := holds.read
  simp only [Library.ofDirectory, listed, loaded]
  rfl

theorem ofPath (holds : fs.Holds path ds) :
    Library.ofPath fs path = .ok (Library.ofList (.directory path) ds) := by
  obtain ⟨names, listed, _⟩ := holds.read
  have directory : fs.isDirectory path = true := by
    unfold Files.list at listed
    split at listed
    · simp at listed
    · simp at listed
    · rename_i place found
      simp [Files.isDirectory, found]
  rw [Library.ofPath, if_pos directory, holds.ofDirectory]

end Files.Holds

namespace Files

theorem holds_shortForms :
    ∃ ds, shortForms.Holds "commands" ds ∧
      ((Library.ofList (.directory "commands") ds).get? "g").map (·.name) = some "git" ∧
      ((Library.ofList (.directory "commands") ds).dictionaries.find? (·.matchesKey "g")).map
        (·.name) = some "gh" := by
  have facts : (Library.loadAll shortForms ["commands/a.json", "commands/b.json"]).toOption.map
      (fun ds =>
        (ds.all fun d => decide (d.validate = .ok ()) && d.supports Platforms.current,
          ((Library.ofList (.directory "commands") ds).get? "g").map (·.name),
          ((Library.ofList (.directory "commands") ds).dictionaries.find? (·.matchesKey "g")).map
            (·.name))) = some (true, some "git", some "gh") := by decide +kernel
  obtain ⟨ds, loaded, facts⟩ := Option.map_eq_some_iff.mp facts
  obtain ⟨sound, indexed, first⟩ : _ ∧ _ ∧ _ := by simpa only [Prod.mk.injEq] using facts
  have each : ∀ d ∈ ds, d.validate = .ok () ∧ d.supports Platforms.current = true := by
    intro d member
    simpa using List.all_eq_true.mp sound d member
  have listed : shortForms.list "commands" = .ok ["a.json", "b.json"] := by decide +kernel
  refine ⟨ds, ⟨⟨_, listed, ?_⟩, fun d m => (each d m).1, fun d m => (each d m).2⟩, indexed, first⟩
  rw [dictionaryPaths_shortForms]
  cases read : Library.loadAll shortForms ["commands/a.json", "commands/b.json"] with
  | error cause => simp [read, Except.toOption] at loaded
  | ok found => simpa [read, Except.toOption] using loaded

end Files

/-! ## What the engine publishes -/

namespace Engine

/-- Dictionaries are made ready that are valid where they apply to the platform: those that apply,
under their names and with their keys. -/
theorem prepare_valid (context : ContextId) (options : SuggestOptions) (next : CellId)
    {ds : List (Dictionary Source)}
    (valid : ∀ d ∈ ds, d.supports Platforms.current = true → d.validate = .ok ()) :
    ∃ suggestors cell, prepare context options next ds = .ok (suggestors, cell) ∧
      List.Forall₂ (fun s d => s.dictionary.name = d.name ∧ s.dictionary.keys = d.keys)
        suggestors (ds.filter fun d => d.supports Platforms.current) := by
  induction ds generalizing next with
  | nil => exact ⟨[], next, rfl, .nil⟩
  | cons d rest ih =>
      have later := fun e member => valid e (List.mem_cons_of_mem _ member)
      cases supported : d.supports Platforms.current with
      | true =>
          obtain ⟨bound, bind, name, keys⟩ :=
            Dictionary.bindTo_attach (valid d List.mem_cons_self supported) next context
          obtain ⟨suggestors, cell, prepared, same⟩ := ih (d.attach next).2 later
          refine ⟨{ dictionary := bound, options } :: suggestors, cell, ?_, ?_⟩
          · simp [prepare, supported, bind, prepared]
          · rw [List.filter_cons, if_pos supported]
            exact .cons ⟨name, keys⟩ same
      | false =>
          obtain ⟨suggestors, cell, prepared, same⟩ := ih next later
          exact ⟨suggestors, cell, by simp [prepare, supported, prepared],
            by simpa [supported] using same⟩

theorem find?_handles {suggestors : List Suggestor} {ds : List (Dictionary Source)}
    (same : List.Forall₂ (fun s d => s.dictionary.name = d.name ∧ s.dictionary.keys = d.keys)
      suggestors ds) (command : String) :
    (suggestors.find? (·.handles command)).map (·.dictionary.name) =
      (ds.find? (·.matchesKey command)).map (·.name) := by
  induction same with
  | nil => rfl
  | @cons s d suggestors ds equal rest ih =>
      obtain ⟨name, keys⟩ := equal
      have selects : s.handles command = d.matchesKey command := by
        rw [Suggestor.handles, Dictionary.matchesKey, Dictionary.matchesKey, keys]
      rw [List.find?_cons, List.find?_cons, selects]
      cases d.matchesKey command with
      | true => simp [name]
      | false => exact ih

variable {ω : Type} {host : Host ω} {w : ω}

theorem suggestors_settle (options : SuggestOptions) (refresh : Bool) {path : String}
    {library : Library Source} (read : host.load w path = .ok library)
    {suggestors : List Suggestor} {cell : CellId}
    (prepared : prepare 0 options 0 library.dictionaries = .ok (suggestors, cell)) :
    ∃ e, (ofSettings options refresh [path]).start = .ok e ∧
      (e.settle host w).1.suggestors = suggestors := by
  refine ⟨_, rfl, ?_⟩
  -- it starts, takes the task, asks for the files, goes on with them and waits
  simp [settle, effort, ofSettings, requestLoad, enqueue, TaskQueue.push, taskEffort, settleFor,
    turn, step, become, TaskQueue.pop, begin, loaded, read, prepared, publish]

theorem loaded_directory [Codec] {fs : Files} {path : String} {ds : List (Dictionary Source)}
    (holds : fs.Holds path ds) (reads : host.load w path = Library.ofPath fs path)
    (options : SuggestOptions) (refresh : Bool) :
    ∃ library e, Library.ofDirectory fs path = .ok library ∧
      (ofSettings options refresh [path]).start = .ok e ∧
      library.Indexed (fun command => ds.reverse.find? (·.claims command)) ∧
      (∀ d ∈ library.dictionaries, d ∈ ds) ∧
      ∀ command, ((e.settle host w).1.suggestorFor command).map (·.dictionary.name) =
        (library.dictionaries.find? (·.matchesKey command)).map (·.name) := by
  have inside : ∀ d ∈ (Library.ofList (.directory path) ds).dictionaries, d ∈ ds :=
    fun d stored => Library.mem_of_mem_ofList stored
  obtain ⟨suggestors, cell, prepared, same⟩ := prepare_valid 0 options 0
    fun d stored _ => holds.valid d (inside d stored)
  rw [List.filter_eq_self.mpr fun d stored => holds.supported d (inside d stored)] at same
  obtain ⟨e, started, published⟩ :=
    suggestors_settle options refresh (reads.trans holds.ofPath) prepared
  refine ⟨_, e, holds.ofDirectory, started, Library.indexed_ofList _ ds, inside, ?_⟩
  intro command
  rw [suggestorFor, published]
  exact find?_handles same command

/-- A library and a new engine that have loaded one directory answer a command word with
dictionaries of one name, or both with none, exactly where each stored dictionary is the first by
name to match the word just if it is the last by path to claim it. -/
theorem same_selection_iff [Codec] {fs : Files} {path : String} {ds : List (Dictionary Source)}
    (holds : fs.Holds path ds) (reads : host.load w path = Library.ofPath fs path)
    (options : SuggestOptions) (refresh : Bool) :
    ∃ library e, Library.ofDirectory fs path = .ok library ∧
      (ofSettings options refresh [path]).start = .ok e ∧
      ∀ command,
        (library.get? command).map (·.name) =
            ((e.settle host w).1.suggestorFor command).map (·.dictionary.name) ↔
          ∀ d ∈ library.dictionaries,
            library.FirstMatch command d ↔ ds.reverse.find? (·.claims command) = some d := by
  obtain ⟨library, e, read, started, indexed, _, published⟩ :=
    loaded_directory holds reads options refresh
  refine ⟨library, e, read, started, fun command => ?_⟩
  rw [published]
  exact indexed.same_name_iff command

theorem same_selection_iff_shortForms :
    ∃ ds, Files.shortForms.Holds "commands" ds ∧
      (Cli.host none).load { files := Files.shortForms } "commands" =
        Library.ofPath Files.shortForms "commands" ∧
      ∃ library e, Library.ofDirectory Files.shortForms "commands" = .ok library ∧
        (ofSettings {} false ["commands"]).start = .ok e ∧
        ∀ command,
          (library.get? command).map (·.name) =
              ((e.settle (Cli.host none) { files := Files.shortForms }).1.suggestorFor command).map
                (·.dictionary.name) ↔
            ∀ d ∈ library.dictionaries,
              library.FirstMatch command d ↔ ds.reverse.find? (·.claims command) = some d := by
  obtain ⟨ds, holds, _, _⟩ := Files.holds_shortForms
  exact ⟨ds, holds, rfl, same_selection_iff holds rfl {} false⟩

/-- The library knows the short form as git, the engine as gh. -/
theorem selections_differ :
    ¬ ∀ (fs : Files) (path : String) (ds : List (Dictionary Source)), fs.Holds path ds →
      ∀ (options : SuggestOptions) (refresh : Bool),
        ∃ library e, Library.ofDirectory fs path = .ok library ∧
          (ofSettings options refresh [path]).start = .ok e ∧
          ∀ command,
            (library.get? command).map (·.name) =
              ((e.settle (Cli.host none) { files := fs }).1.suggestorFor command).map
                (·.dictionary.name) := by
  intro every
  obtain ⟨ds, holds, indexed, first⟩ := Files.holds_shortForms
  obtain ⟨library, e, read, started, same⟩ := every _ _ ds holds {} false
  have reads : (Cli.host none).load { files := Files.shortForms } "commands" =
      Library.ofPath Files.shortForms "commands" := rfl
  obtain ⟨_, _, again, restarted, _, _, published⟩ := loaded_directory holds reads {} false
  obtain rfl := Except.ok.inj (read.symm.trans again)
  obtain rfl := Except.ok.inj (started.symm.trans restarted)
  obtain rfl := Except.ok.inj (read.symm.trans holds.ofDirectory)
  have differ := same "g"
  rw [indexed, published "g", first] at differ
  exact absurd differ (by decide)

theorem same_selection_of_unshared [Codec] {fs : Files} {path : String}
    {ds : List (Dictionary Source)} (holds : fs.Holds path ds)
    (reads : host.load w path = Library.ofPath fs path) (options : SuggestOptions)
    (refresh : Bool) :
    ∃ library e, Library.ofDirectory fs path = .ok library ∧
      (ofSettings options refresh [path]).start = .ok e ∧
      ∀ command,
        (∀ d ∈ ds, ∀ e ∈ ds, d.claims command = true → e.claims command = true →
          d.name = e.name) →
        (∀ d ∈ ds, d.claims command = true → d.matchesKey command = true) →
        (library.get? command).map (·.name) =
          ((e.settle host w).1.suggestorFor command).map (·.dictionary.name) := by
  obtain ⟨library, e, read, started, indexed, inside, published⟩ :=
    loaded_directory holds reads options refresh
  refine ⟨library, e, read, started, fun command unshared ascii => ?_⟩
  rw [published]
  refine indexed.same_name_of_unshared ?_ fun d stored => ascii d (inside d stored)
  intro d stored f claims claimed
  have member : f ∈ ds := List.mem_reverse.mp (List.mem_of_find?_eq_some claimed)
  exact unshared f member d (inside d stored) (indexed.claims command f claimed) claims

end Engine

end LineCompletion

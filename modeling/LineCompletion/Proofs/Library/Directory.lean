import Mathlib.Data.List.Sort
import LineCompletion.Library.Load
import LineCompletion.Proofs.Library.Index

/-! # The library of a directory

A directory lists its names in any order, and its files are read side by side. Neither shows: the
library is that of the dictionary files in the order of their paths, so the last of them has a name
or a command word that several have, and it is there exactly where each of these files can be
loaded.
-/

namespace LineCompletion

/-! ## Gathered results -/

section Gathers

variable {ε α : Type}

/-- Results that are gathered keep their order where all are good, and otherwise one of the failures
is told. -/
structure Gathers (gather : List (Except ε α) → Except ε (List α)) : Prop where
  all : ∀ as, gather (as.map .ok) = .ok as
  failing : ∀ results cause, .error cause ∈ results →
    ∃ told, gather results = .error told ∧ .error told ∈ results

/-- Gathers results up to the first failure. -/
def inOrder : List (Except ε α) → Except ε (List α)
  | [] => .ok []
  | .error cause :: _ => .error cause
  | .ok a :: rest => (inOrder rest).map (a :: ·)

theorem gathers_inOrder : Gathers (inOrder (ε := ε) (α := α)) where
  all as := by
    induction as with
    | nil => rfl
    | cons a rest ih => rw [List.map_cons, inOrder, ih]; rfl
  failing results cause member := by
    induction results with
    | nil => simp at member
    | cons first rest ih =>
        cases first with
        | error own => exact ⟨own, rfl, List.mem_cons_self⟩
        | ok a =>
            obtain ⟨told, gathered, among⟩ := ih (by simpa using member)
            exact ⟨told, by rw [inOrder, gathered]; rfl, List.mem_cons_of_mem _ among⟩

theorem exists_eq_map_ok {results : List (Except ε α)} (good : ∀ cause, .error cause ∉ results) :
    ∃ as : List α, results = as.map .ok := by
  induction results with
  | nil => exact ⟨[], rfl⟩
  | cons first rest ih =>
      cases first with
      | error cause => exact absurd List.mem_cons_self (good cause)
      | ok a =>
          obtain ⟨as, rfl⟩ := ih fun cause later => good cause (List.mem_cons_of_mem _ later)
          exact ⟨a :: as, rfl⟩

namespace Gathers

variable {gather : List (Except ε α) → Except ε (List α)}

theorem eq_ok_iff (gathers : Gathers gather) {results : List (Except ε α)} {as : List α} :
    gather results = .ok as ↔ results = as.map .ok := by
  constructor
  · intro gathered
    have good : ∀ cause, .error cause ∉ results := by
      intro cause member
      obtain ⟨told, failed, _⟩ := gathers.failing results cause member
      rw [gathered] at failed
      cases failed
    obtain ⟨own, rfl⟩ := exists_eq_map_ok good
    rw [Except.ok.inj (gathered.symm.trans (gathers.all own))]
  · rintro rfl
    exact gathers.all as

theorem mem_of_eq_error (gathers : Gathers gather) {results : List (Except ε α)} {cause : ε}
    (failed : gather results = .error cause) : .error cause ∈ results := by
  by_contra absent
  by_cases good : ∀ other, .error other ∉ results
  · obtain ⟨as, rfl⟩ := exists_eq_map_ok good
    rw [gathers.all as] at failed
    cases failed
  · obtain ⟨other, member⟩ := not_forall_not.mp good
    obtain ⟨told, gathered, among⟩ := gathers.failing results other member
    rw [failed] at gathered
    exact absent (Except.error.inj gathered ▸ among)

end Gathers

end Gathers

/-! ## Trees that list their names in another order -/

namespace Files

/-- Two trees hold the same, but directories may list their names in another order. -/
structure Relists (fs other : Files) : Prop where
  directory : other.directory = fs.directory
  entries : ∀ place, other.at? place = fs.at? place
  names : ∀ place, (other.names place).Perm (fs.names place)

theorem lookup_eq_some_iff_mem {entries : List (List String × FileEntry)}
    (distinct : (entries.map Prod.fst).Nodup) {place : List String} {entry : FileEntry} :
    entries.lookup place = some entry ↔ (place, entry) ∈ entries := by
  induction entries with
  | nil => simp
  | cons first rest ih =>
      obtain ⟨absent, distinct⟩ := List.nodup_cons.mp distinct
      rw [List.lookup_cons, List.mem_cons]
      by_cases here : place = first.1
      · have nowhere : (place, entry) ∉ rest := fun later =>
          absent (here ▸ List.mem_map.mpr ⟨(place, entry), later, rfl⟩)
        simp [here ▸ nowhere, here, Prod.ext_iff, eq_comm]
      · have apart : (place == first.1) = false := beq_eq_false_iff_ne.mpr here
        simp [apart, ih distinct, Prod.ext_iff, here]

theorem relists_of_perm {fs other : Files} (distinct : (fs.entries.map Prod.fst).Nodup)
    (directory : other.directory = fs.directory) (same : other.entries.Perm fs.entries) :
    fs.Relists other where
  directory := directory
  entries place := by
    unfold at?
    split
    · rfl
    · ext entry
      rw [lookup_eq_some_iff_mem distinct,
        lookup_eq_some_iff_mem ((same.map Prod.fst).nodup_iff.mpr distinct), same.mem_iff]
  names place := same.filterMap _

namespace Relists

variable {fs other : Files}

theorem walk (relists : fs.Relists other) (place names : List String) :
    other.walk place names = fs.walk place names := by
  induction names generalizing place with
  | nil => rfl
  | cons name rest ih => simp only [Files.walk, relists.entries, ih]

theorem find (relists : fs.Relists other) (path : String) : other.find path = fs.find path := by
  simp only [Files.find, locate, relists.directory, relists.walk, relists.entries]

theorem loadDictionary [Codec] (relists : fs.Relists other) (path : String) :
    other.loadDictionary path = fs.loadDictionary path := by
  have read : other.read path = fs.read path := by simp only [Files.read, relists.find]
  simp only [Files.loadDictionary, readDocument, read]

theorem list (relists : fs.Relists other) {path : String} {names : List String}
    (listed : fs.list path = .ok names) :
    ∃ others, other.list path = .ok others ∧ others.Perm names := by
  unfold Files.list at listed ⊢
  rw [relists.find]
  split at listed
  · simp at listed
  · simp at listed
  · rename_i place found
    obtain rfl := Except.ok.inj listed
    exact ⟨_, rfl, relists.names place⟩

end Relists

/-! ## The dictionary files of a directory -/

def isDictionaryFile (fs : Files) (path : String) : Bool :=
  fs.isFile path && isDictionaryPath path

theorem Relists.isDictionaryFile {fs other : Files} (relists : fs.Relists other) (path : String) :
    other.isDictionaryFile path = fs.isDictionaryFile path := by
  simp only [Files.isDictionaryFile, isFile, relists.find]

theorem dictionaryPaths_perm (fs : Files) (path : String) (names : List String) :
    (fs.dictionaryPaths path names).Perm
      ((names.map (Path.join path)).filter fs.isDictionaryFile) :=
  List.mergeSort_perm _ _

theorem dictionaryPaths_sorted (fs : Files) (path : String) (names : List String) :
    (fs.dictionaryPaths path names).Pairwise (· ≤ ·) :=
  List.pairwise_mergeSort' (· ≤ ·) _

theorem eq_dictionaryPaths_iff {fs : Files} {path : String} {names paths : List String} :
    fs.dictionaryPaths path names = paths ↔
      paths.Perm ((names.map (Path.join path)).filter fs.isDictionaryFile) ∧
        paths.Pairwise (· ≤ ·) := by
  constructor
  · rintro rfl
    exact ⟨fs.dictionaryPaths_perm path names, fs.dictionaryPaths_sorted path names⟩
  · rintro ⟨same, sorted⟩
    exact ((fs.dictionaryPaths_perm path names).trans same.symm).eq_of_pairwise'
      (fs.dictionaryPaths_sorted path names) sorted

/-- The dictionary files of a directory in the order of their paths, each with what it holds. -/
structure Holdings [Codec] (fs : Files) (path : String) (names : List String)
    (held : List (String × Dictionary Source)) : Prop where
  paths : (held.map Prod.fst).Perm ((names.map (Path.join path)).filter fs.isDictionaryFile)
  sorted : (held.map Prod.fst).Pairwise (· ≤ ·)
  loads : ∀ h ∈ held, fs.loadDictionary h.1 = .ok h.2

theorem Holdings.exists_of_mem [Codec] {fs : Files} {path : String} {names : List String}
    {held : List (String × Dictionary Source)} (holdings : fs.Holdings path names held)
    {name : String} (own : name ∈ names)
    (file : fs.isDictionaryFile (Path.join path name) = true) :
    ∃ d, fs.loadDictionary (Path.join path name) = .ok d := by
  have among : Path.join path name ∈ held.map Prod.fst :=
    holdings.paths.mem_iff.mpr (List.mem_filter.mpr ⟨List.mem_map_of_mem own, file⟩)
  obtain ⟨h, member, same⟩ := List.mem_map.mp among
  exact ⟨h.2, same ▸ holdings.loads h member⟩

theorem Relists.holdings_iff [Codec] {fs other : Files} (relists : fs.Relists other) {path : String}
    {names others : List String} (same : others.Perm names)
    {held : List (String × Dictionary Source)} :
    other.Holdings path others held ↔ fs.Holdings path names held := by
  have files : ((others.map (Path.join path)).filter other.isDictionaryFile).Perm
      ((names.map (Path.join path)).filter fs.isDictionaryFile) := by
    rw [show other.isDictionaryFile = fs.isDictionaryFile from funext relists.isDictionaryFile]
    exact (same.map _).filter _
  constructor
  · rintro ⟨paths, sorted, loads⟩
    refine ⟨paths.trans files, sorted, fun h member => ?_⟩
    exact (relists.loadDictionary h.1).symm.trans (loads h member)
  · rintro ⟨paths, sorted, loads⟩
    refine ⟨paths.trans files.symm, sorted, fun h member => ?_⟩
    exact (relists.loadDictionary h.1).trans (loads h member)

theorem loads_iff_holdings [Codec] {fs : Files} {path : String} {names : List String}
    {ds : List (Dictionary Source)} :
    (fs.dictionaryPaths path names).map fs.loadDictionary = ds.map .ok ↔
      ∃ held, fs.Holdings path names held ∧ ds = held.map Prod.snd := by
  constructor
  · intro loaded
    have long : (fs.dictionaryPaths path names).length = ds.length := by
      simpa using congrArg List.length loaded
    have first := List.map_fst_zip (Nat.le_of_eq long)
    obtain ⟨same, sorted⟩ := eq_dictionaryPaths_iff.mp rfl
    refine ⟨(fs.dictionaryPaths path names).zip ds, ⟨by rwa [first], by rwa [first], ?_⟩,
      (List.map_snd_zip (Nat.le_of_eq long.symm)).symm⟩
    intro h member
    obtain ⟨i, here, rfl⟩ := List.mem_iff_getElem.mp member
    rw [List.length_zip] at here
    have each := List.getElem_of_eq loaded (by simpa using (Nat.lt_min.mp here).1)
    simpa using each
  · rintro ⟨held, holdings, rfl⟩
    rw [eq_dictionaryPaths_iff.mpr ⟨holdings.paths, holdings.sorted⟩, List.map_map, List.map_map]
    exact List.map_congr_left holdings.loads

end Files

namespace Library

/-! ## Loading in any order -/

/-- Loads every dictionary file of a directory, gathering what the files hold in some way. -/
def ofDirectoryBy [Codec]
    (gather : List (Except LoadError (Dictionary Source)) →
      Except LoadError (List (Dictionary Source)))
    (fs : Files) (path : String) : Except LoadError (Library Source) :=
  match fs.list path with
  | .error e => .error (.file e)
  | .ok names =>
    (gather ((fs.dictionaryPaths path names).map fs.loadDictionary)).map (ofList (.directory path))

theorem loadAll_eq_inOrder [Codec] (fs : Files) (paths : List String) :
    loadAll fs paths = inOrder (paths.map fs.loadDictionary) := by
  induction paths with
  | nil => rfl
  | cons path rest ih =>
      rw [List.map_cons, loadAll]
      cases fs.loadDictionary path with
      | error cause => rfl
      | ok d => simp only [inOrder, ih]

theorem ofDirectory_eq_by [Codec] (fs : Files) (path : String) :
    ofDirectory fs path = ofDirectoryBy inOrder fs path := by
  unfold ofDirectory ofDirectoryBy
  cases fs.list path with
  | error e => rfl
  | ok names => simp only [loadAll_eq_inOrder]

section Gather

variable [Codec] {gather : List (Except LoadError (Dictionary Source)) →
    Except LoadError (List (Dictionary Source))} (gathers : Gathers gather) {fs : Files}
  {path : String} {names : List String}
  (listed : fs.list path = .ok names)
include gathers listed

theorem ofDirectoryBy_eq_ok_iff {l : Library Source} :
    ofDirectoryBy gather fs path = .ok l ↔
      ∃ held, fs.Holdings path names held ∧
        l = ofList (.directory path) (held.map Prod.snd) := by
  unfold ofDirectoryBy
  simp only [listed]
  constructor
  · intro loaded
    cases gathered : gather ((fs.dictionaryPaths path names).map fs.loadDictionary) with
    | error cause => simp [gathered, Except.map] at loaded
    | ok ds =>
        obtain rfl : ofList (.directory path) ds = l := by
          simpa [gathered, Except.map] using loaded
        obtain ⟨held, holdings, rfl⟩ := Files.loads_iff_holdings.mp (gathers.eq_ok_iff.mp gathered)
        exact ⟨held, holdings, rfl⟩
  · rintro ⟨held, holdings, rfl⟩
    have gathered := gathers.eq_ok_iff.mpr (Files.loads_iff_holdings.mpr ⟨held, holdings, rfl⟩)
    rw [gathered]
    rfl

theorem exists_of_ofDirectoryBy_eq_error {cause : LoadError}
    (failed : ofDirectoryBy gather fs path = .error cause) :
    ∃ name ∈ names, fs.isDictionaryFile (Path.join path name) = true ∧
      fs.loadDictionary (Path.join path name) = .error cause := by
  unfold ofDirectoryBy at failed
  simp only [listed] at failed
  cases gathered : gather ((fs.dictionaryPaths path names).map fs.loadDictionary) with
  | ok ds => simp [gathered, Except.map] at failed
  | error own =>
      obtain rfl : own = cause := by simpa [gathered, Except.map] using failed
      obtain ⟨p, among, fails⟩ := List.mem_map.mp (gathers.mem_of_eq_error gathered)
      rw [(fs.dictionaryPaths_perm path names).mem_iff, List.mem_filter, List.mem_map] at among
      obtain ⟨⟨name, own, rfl⟩, file⟩ := among
      exact ⟨name, own, file, fails⟩

end Gather

/-- In whatever order a directory lists its names and the results of its files come in, it gives one
library or none. It gives one exactly where every dictionary file in it can be loaded, and tells the
failure of one of them otherwise. The library is that of the dictionaries in the order of the paths:
of several with one name the last is stored, and of several with a key for a word the last answers
it, unless its name has gone to one that is later still. -/
theorem ofDirectory_any_order [Codec] {fs other : Files} (relists : fs.Relists other)
    {gather : List (Except LoadError (Dictionary Source)) →
      Except LoadError (List (Dictionary Source))} (gathers : Gathers gather)
    {path : String} {names : List String} (listed : fs.list path = .ok names) :
    (∀ l, ofDirectoryBy gather other path = .ok l ↔ ofDirectory fs path = .ok l) ∧
      ((∃ l, ofDirectory fs path = .ok l) ↔
        ∀ name ∈ names, fs.isDictionaryFile (Path.join path name) = true →
          ∃ d, fs.loadDictionary (Path.join path name) = .ok d) ∧
      (∀ cause, ofDirectoryBy gather other path = .error cause →
        ∃ name ∈ names, fs.isDictionaryFile (Path.join path name) = true ∧
          fs.loadDictionary (Path.join path name) = .error cause) ∧
      ∀ l, ofDirectory fs path = .ok l →
        ∃ held, fs.Holdings path names held ∧ l = ofList (.directory path) (held.map Prod.snd) ∧
          (∀ name, l.byName? name = (held.map Prod.snd).reverse.find? (·.name == name)) ∧
          ∀ command d, l.get? command = some d ↔
            (held.map Prod.snd).reverse.find? (·.claims command) = some d ∧
              (held.map Prod.snd).reverse.find? (·.name == d.name) = some d := by
  have given (l : Library Source) : ofDirectory fs path = .ok l ↔
      ∃ held, fs.Holdings path names held ∧
        l = ofList (.directory path) (held.map Prod.snd) := by
    rw [ofDirectory_eq_by, ofDirectoryBy_eq_ok_iff gathers_inOrder listed]
  obtain ⟨others, relisted, same⟩ := relists.list listed
  refine ⟨fun l => ?_, ?_, fun cause failed => ?_, fun l loaded => ?_⟩
  · rw [given, ofDirectoryBy_eq_ok_iff gathers relisted]
    exact exists_congr fun held => and_congr_left fun _ => relists.holdings_iff same
  · constructor
    · rintro ⟨l, loaded⟩ name own file
      obtain ⟨held, holdings, -⟩ := (given l).mp loaded
      exact holdings.exists_of_mem own file
    · intro good
      cases loaded : ofDirectory fs path with
      | ok l => exact ⟨l, rfl⟩
      | error cause =>
          rw [ofDirectory_eq_by] at loaded
          obtain ⟨name, own, file, fails⟩ :=
            exists_of_ofDirectoryBy_eq_error gathers_inOrder listed loaded
          obtain ⟨d, loads⟩ := good name own file
          rw [fails] at loads
          cases loads
  · obtain ⟨name, own, file, fails⟩ := exists_of_ofDirectoryBy_eq_error gathers relisted failed
    rw [relists.isDictionaryFile] at file
    rw [relists.loadDictionary] at fails
    exact ⟨name, same.subset own, file, fails⟩
  · obtain ⟨held, holdings, rfl⟩ := (given l).mp loaded
    exact ⟨held, holdings, rfl, byName?_ofList _ _, fun command d => get?_ofList_eq_some_iff⟩

end Library

namespace Files

/-- The octets of a document for a command with a key and a short form. -/
def shortForm (name : String) : List UInt8 :=
  Text.Utf8.encode <| ["\x7b\"name\":\"", name, "\",\"keys\":[\"", name, "\",\"g\"],",
    "\"platforms\":[\"all\"],", "\"parameters\":[\x7b\"name\":\"help\",",
    "\"keys\":[\"help\"],", "\"type\":\"command\"\x7d]\x7d"].flatMap String.toList

/-- A directory in which the last file by path with a short form does not have the first name. -/
def shortForms : Files where
  entries :=
    [(["commands"], .directory), (["commands", "a.json"], .file (shortForm "gh")),
      (["commands", "b.json"], .file (shortForm "git"))]

theorem dictionaryPaths_shortForms :
    shortForms.dictionaryPaths "commands" ["a.json", "b.json"] =
      ["commands/a.json", "commands/b.json"] := by
  have kept : (["a.json", "b.json"].map (Path.join "commands")).filter
      (fun p => shortForms.isFile p && isDictionaryPath p) =
        ["commands/a.json", "commands/b.json"] := by decide +kernel
  rw [dictionaryPaths, kept]
  exact List.mergeSort_of_pairwise (by decide +kernel)

/-- The same directory listing its names backwards. -/
def shortFormsBackwards : Files where
  entries := shortForms.entries.reverse

end Files

theorem Library.ofDirectory_any_order_shortForms :
    Files.shortForms.Relists Files.shortFormsBackwards ∧
      Gathers (inOrder (ε := LoadError) (α := Dictionary Source)) ∧
      Files.shortForms.list "commands" = .ok ["a.json", "b.json"] ∧
      Files.shortFormsBackwards.list "commands" = .ok ["b.json", "a.json"] ∧
      ∃ l, Library.ofDirectory Files.shortForms "commands" = .ok l ∧
        Library.ofDirectory Files.shortFormsBackwards "commands" = .ok l := by
  have relists : Files.shortForms.Relists Files.shortFormsBackwards :=
    Files.relists_of_perm (by decide +kernel) rfl (List.reverse_perm _)
  have listed : Files.shortForms.list "commands" = .ok ["a.json", "b.json"] := by decide +kernel
  have sound : ["a.json", "b.json"].all (fun name =>
      (Files.shortForms.loadDictionary (Path.join "commands" name)).toOption.isSome) = true := by
    decide +kernel
  obtain ⟨same, good, -⟩ := ofDirectory_any_order relists gathers_inOrder listed
  refine ⟨relists, gathers_inOrder, listed, by decide +kernel, ?_⟩
  obtain ⟨l, loaded⟩ := good.mpr fun name own _ => by
    have loads := List.all_eq_true.mp sound name own
    cases read : Files.shortForms.loadDictionary (Path.join "commands" name) with
    | error cause => simp [read, Except.toOption] at loads
    | ok d => exact ⟨d, rfl⟩
  refine ⟨l, loaded, ?_⟩
  rw [ofDirectory_eq_by]
  exact (same l).mpr loaded

end LineCompletion

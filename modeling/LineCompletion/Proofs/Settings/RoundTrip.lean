import LineCompletion.Settings.Basic
import LineCompletion.Proofs.Files.Writing
import LineCompletion.Proofs.Yaml.Faithful

/-! # Reading settings that were saved

Settings are written as a record of values, of which what is missing is left out. Whatever codec
reads the record that it has written, each reader finds the value of its field in it, and supplies
what was left out. So saved settings load as they were.
-/

namespace LineCompletion

/-! ## What is read of a record -/

section Records

variable {δ : Type} {r : RecordReader δ} {depth : Nat} {draft next : δ} {name s : String}
  {key value n : Node} {x : Json} {ms : List (String × Json)} {nodes : Members}

theorem Members.show_nil (shown : nodes.Show []) : nodes = .done := by
  cases shown
  rfl

theorem Members.show_cons (shown : nodes.Show ((name, x) :: ms)) :
    ∃ key value rest, nodes = .more key value rest ∧ key.text = .ok name ∧ value.Shows x ∧
      rest.Show ms := by
  cases shown with
  | more named shows others => exact ⟨_, _, _, rfl, named, shows, others⟩

theorem Node.bool_of_shows {b : Bool} (shows : n.Shows (.bool b)) : n.bool = .ok b := by
  cases shows with
  | bool reads => exact reads

theorem Node.text_of_shows (shows : n.Shows (.text s)) : n.text = .ok s := by
  cases shows with
  | text reads => exact reads

theorem Node.word_of_shows {k : UInt64} (shows : n.Shows (.int k.toNat)) :
    n.isNull = false ∧ n.word = .ok k := by
  generalize written : Json.int k.toNat = x at shows
  cases shows with
  | @word other _ some_value reads =>
      obtain rfl : k = other := UInt64.toNat_inj.mp (by simpa using written)
      exact ⟨some_value, reads⟩
  | _ => simp [Json.texts] at written

theorem Node.texts_of_shows {ss : List String} (shows : n.Shows (Json.texts ss)) (depth : Nat) :
    n.texts (depth + 1) = .ok ss := by
  generalize written : Json.texts ss = x at shows
  cases shows with
  | @texts others items reads =>
      have same : ss.map Json.text = others.map Json.text := by simpa [Json.texts] using written
      obtain rfl := (List.map_inj_right fun _ _ same => Json.text.inj same).mp same
      exact reads
  | _ => simp [Json.texts] at written

theorem Node.map_of_shows (shows : n.Shows (.map ms)) :
    ∃ nodes, n = .map nodes ∧ nodes.Show ms := by
  cases shows with
  | map members => exact ⟨_, rfl, members⟩

theorem Node.name_of_shows {α : Type} {a : α} {known : List α} {nameOf : α → String}
    (shows : n.Shows (.text (nameOf a))) (found : named known nameOf (nameOf a) = .ok a) :
    n.name known nameOf .yaml depth = .ok a := by
  have reads := text_of_shows shows
  unfold text at reads
  split at reads
  · obtain rfl := Except.ok.inj reads
    simp only [name, found]
    rfl
  · cases reads

theorem readMembers_field (named : key.text = .ok name) (known : r.fields.contains name = true)
    (read : r.read depth name value draft = .ok next) (rest : Members) :
    r.readMembers depth draft (.more key value rest) = r.readMembers depth next rest := by
  simp only [RecordReader.readMembers, named, known, read, if_true]

end Records

namespace Settings

variable {node : Node} {nodes : Members} {depth : Nat}

/-- The words of which the form of settings is made: the names of its fields, and what stands for
the choices. -/
def words : List String :=
  ["version", "dictionaries", "matching", "mode", "staleness", "execution", "command_timeout_secs",
    "refresh_on_suggest"] ++ MatchMode.all.map MatchMode.name ++ Staleness.all.map Staleness.name

theorem matchingOfNode_of_shows {o : SuggestOptions}
    (shows : node.Shows
      (.map [("mode", .text o.mode.name), ("staleness", .text o.staleness.name)])) :
    matchingOfNode (depth + 1) node = .ok o := by
  obtain ⟨nodes, rfl, shown⟩ := Node.map_of_shows shows
  obtain ⟨modeKey, mode, rest, rfl, modeNamed, modeShows, shown⟩ := Members.show_cons shown
  obtain ⟨stalenessKey, staleness, rest, rfl, stalenessNamed, stalenessShows, shown⟩ :=
    Members.show_cons shown
  obtain rfl := Members.show_nil shown
  let reader := SuggestOptions.reader "struct MatchingConfig" "mode" .yaml
  have modeName : mode.name MatchMode.all MatchMode.name .yaml depth = .ok o.mode :=
    Node.name_of_shows modeShows (by cases o.mode <;> rfl)
  have stalenessName : staleness.name Staleness.all Staleness.name .yaml depth = .ok o.staleness :=
    Node.name_of_shows stalenessShows (by cases o.staleness <;> rfl)
  have first : reader.read depth "mode" mode {} = .ok { mode := some o.mode } := by
    simp [reader, SuggestOptions.reader, once, modeName, bind, Except.bind, pure, Except.pure,
      Except.map]
  have second : reader.read depth "staleness" staleness { mode := some o.mode } =
      .ok { mode := some o.mode, staleness := some o.staleness } := by
    simp [reader, SuggestOptions.reader, once, stalenessName, bind, Except.bind, pure, Except.pure,
      Except.map]
  have read := (readMembers_field modeNamed rfl first _).trans
    (readMembers_field stalenessNamed rfl second .done)
  simp only [reader] at read
  simp only [matchingOfNode, RecordReader.readNode, Node.descend, read]
  rfl

theorem executionOfNode_of_shows {e : Execution} (shows : node.Shows e.toJson) :
    executionOfNode (depth + 1) node = .ok e := by
  obtain ⟨timeoutSeconds, refreshOnSuggest⟩ := e
  -- the last field is read alike, whether or not there is a time limit before it
  have last {nodes : Members} {d : Execution.Draft} (fresh : d.refreshOnSuggest = none)
      (shown : nodes.Show [("refresh_on_suggest", .bool refreshOnSuggest)]) :
      Execution.reader.readMembers depth d nodes =
        .ok { d with refreshOnSuggest := some refreshOnSuggest } := by
    obtain ⟨key, refresh, rest, rfl, named, shows, shown⟩ := Members.show_cons shown
    obtain rfl := Members.show_nil shown
    have truth := Node.bool_of_shows shows
    refine readMembers_field named rfl ?_ _
    simp [Execution.reader, once, fresh, truth, bind, Except.bind, pure, Except.pure, Except.map]
  obtain ⟨nodes, rfl, shown⟩ := Node.map_of_shows shows
  cases timeoutSeconds with
  | none =>
      have read := last (d := {}) rfl shown
      simp [executionOfNode, RecordReader.readNode, Node.descend, read, Except.map,
        Execution.Draft.finish]
  | some k =>
      obtain ⟨key, timeout, rest, rfl, named, shows, shown⟩ := Members.show_cons shown
      obtain ⟨given, word⟩ := Node.word_of_shows shows
      have first : Execution.reader.read depth "command_timeout_secs" timeout {} =
          .ok { timeoutSeconds := some (some k) } := by
        simp [Execution.reader, once, given, word, bind, Except.bind, pure, Except.pure, Except.map]
      have read := last (d := { timeoutSeconds := some (some k) }) rfl shown
      simp [executionOfNode, RecordReader.readNode, Node.descend, Except.map,
        readMembers_field named rfl first, read, Execution.Draft.finish]

/-- Who reads the members of settings in a map reads the settings. -/
theorem ofNode_of_show {s : Settings} (shown : nodes.Show s.members) :
    ofNode (.map nodes) = .ok s := by
  obtain ⟨key, version, rest, rfl, versionNamed, shows, shown⟩ := Members.show_cons shown
  have text := Node.text_of_shows shows
  obtain ⟨key, dictionaries, rest, rfl, dictionariesNamed, shows, shown⟩ := Members.show_cons shown
  have texts := Node.texts_of_shows shows 126
  obtain ⟨key, matching, rest, rfl, matchingNamed, shows, shown⟩ := Members.show_cons shown
  have options : matchingOfNode 127 matching = .ok s.matching := matchingOfNode_of_shows shows
  obtain ⟨key, execution, rest, rfl, executionNamed, shows, shown⟩ := Members.show_cons shown
  have rules : executionOfNode 127 execution = .ok s.execution := executionOfNode_of_shows shows
  obtain rfl := Members.show_nil shown
  have version : reader.read 127 "version" version {} = .ok { version := some s.version } := by
    simp [reader, once, text, bind, Except.bind, pure, Except.pure, Except.map]
  have dictionaries (d : Draft) (fresh : d.dictionaries = none) :
      reader.read 127 "dictionaries" dictionaries d =
        .ok { d with dictionaries := some s.dictionaries } := by
    simp [reader, once, fresh, texts, bind, Except.bind, pure, Except.pure, Except.map]
  have matching (d : Draft) (fresh : d.matching = none) :
      reader.read 127 "matching" matching d = .ok { d with matching := some s.matching } := by
    simp [reader, once, fresh, options, bind, Except.bind, pure, Except.pure, Except.map]
  have execution (d : Draft) (fresh : d.execution = none) :
      reader.read 127 "execution" execution d = .ok { d with execution := some s.execution } := by
    simp [reader, once, fresh, rules, bind, Except.bind, pure, Except.pure, Except.map]
  -- each field is read for the first time
  have read := (readMembers_field versionNamed rfl version _).trans
    ((readMembers_field dictionariesNamed rfl (dictionaries _ rfl) _).trans
      ((readMembers_field matchingNamed rfl (matching _ rfl) _).trans
        (readMembers_field executionNamed rfl (execution _ rfl) .done)))
  simp only [ofNode, RecordReader.readNode, Format.maxDepth, Node.descend, read]
  rfl

/-! ## What is written -/

theorem isRecord_matching (o : SuggestOptions) :
    Json.IsRecord words (Json.IsWord words)
      [("mode", .text o.mode.name), ("staleness", .text o.staleness.name)] where
  filled := by simp
  distinct := by simp
  names := by simp [words]
  values := by
    have mode : o.mode.name ∈ words := by cases o.mode <;> simp [words, MatchMode.all]
    have staleness : o.staleness.name ∈ words := by
      cases o.staleness <;> simp [words, Staleness.all]
    simp [Json.IsWord.name mode, Json.IsWord.name staleness]

theorem isField_execution (e : Execution) : Json.IsField words e.toJson := by
  obtain ⟨timeoutSeconds, refreshOnSuggest⟩ := e
  have truth : Json.IsWord words (.bool refreshOnSuggest) := .truth _
  cases timeoutSeconds with
  | none =>
      exact .record ⟨by simp [Json.optional], by simp [Json.optional],
        by simp [words, Json.optional], by simp [Json.optional, truth]⟩
  | some k =>
      have number : Json.IsWord words (.int k.toNat) := .number k
      exact .record ⟨by simp [Json.optional], by simp [Json.optional],
        by simp [words, Json.optional], by simpa [Json.optional, truth] using number⟩

theorem isRecord_members (s : Settings) :
    Json.IsRecord words (Json.IsField words) s.members where
  filled := by simp [members]
  distinct := by simp [members]
  names := by simp [members, words]
  values := by
    have version : Json.IsField words (.text s.version) := .text _
    have dictionaries : Json.IsField words (Json.texts s.dictionaries) := .texts _
    have matching : Json.IsField words (.map [("mode", .text s.matching.mode.name),
        ("staleness", .text s.matching.staleness.name)]) := .record (isRecord_matching _)
    have execution := isField_execution s.execution
    simp [members, version, dictionaries, matching, execution]

/-- Settings that are saved to a file load as they were, with any codec that reads what it has
written. -/
theorem load_saved [Codec] (faithful : Codec.Faithful words) (s : Settings) {fs written : Files}
    {path : String} {content : List UInt8} (writable : fs.write path content = .ok written) :
    ∃ saved, s.save fs path = .ok saved ∧ load saved path = .ok s := by
  obtain ⟨place, writable, -⟩ := Files.writable_of_write writable
  obtain ⟨nodes, parsed, shown⟩ := faithful s.members (isRecord_members s)
  refine ⟨fs.put place (.file (Text.Utf8.encode s.text.toList)), ?_, ?_⟩
  · rw [save, writable.write]
    rfl
  · simp only [load, Files.readDocument, writable.read, text, parsed, Document.read,
      ofNode_of_show shown]
    rfl

/-- Settings whose texts look like other values, or have line ends and quotes in them. -/
def unusual : Settings where
  version := ""
  dictionaries := ["null", "~/it's.yml", "1.0", " two\nlines\n\n", "\u2028", "- \"\t\x00\\"]
  matching := { mode := .anywhere, staleness := .rejectExpired }
  execution := { timeoutSeconds := some 30, refreshOnSuggest := false }

theorem load_saved_unusual :
    Codec.Faithful words ∧
      ({} : Files).write "settings.yml" [] = .ok (({} : Files).put ["settings.yml"] (.file [])) ∧
      ∃ saved, unusual.save {} "settings.yml" = .ok saved ∧
        load saved "settings.yml" = .ok unusual := by
  have faithful : Codec.Faithful words := Yaml.faithful (by decide)
  have writable : ({} : Files).write "settings.yml" [] =
      .ok (({} : Files).put ["settings.yml"] (.file [])) := rfl
  exact ⟨faithful, writable, load_saved faithful unusual writable⟩

end Settings

end LineCompletion

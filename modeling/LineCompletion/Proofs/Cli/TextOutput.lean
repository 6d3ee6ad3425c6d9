import LineCompletion.Proofs.Cli.FailingSources
import LineCompletion.Proofs.Suggest.KeptWords

/-! # Reading the text output back

Each suggestion is printed as a line, with its description behind a tab. Neither is escaped. So who
reads the lines gets the suggestions back exactly where no text has a tab or a line end and no
description a line end. The values of commands never bring one; the words typed, the keys and the
static values may, and so may their descriptions.
-/

namespace LineCompletion

/-- No tab and no line end is in a text. -/
structure Plain (text : String) : Prop where
  untabbed : '\t' ∉ text.toList
  unbroken : '\n' ∉ text.toList

structure Suggestion.Readable (s : Suggestion) : Prop where
  text : Plain s.text
  description : ∀ description, s.description = some description → '\n' ∉ description.toList

namespace Cli

def linesOf : List Char → List (List Char)
  | [] => []
  | c :: rest =>
    if c = '\n' then [] :: linesOf rest
    else match linesOf rest with
      | [] => [[c]]
      | line :: more => (c :: line) :: more

/-- What stands before the first tab of a line and, if there is one, what stands after it. -/
def fieldsOf (line : List Char) : String × Option String :=
  (String.ofList (line.takeWhile (· ≠ '\t')),
    match line.dropWhile (· ≠ '\t') with
    | [] => none
    | _ :: description => some (String.ofList description))

def readBack (output : String) : List (String × Option String) :=
  (linesOf output.toList).map fieldsOf

/-- What is printed of a suggestion, without the end of the line. -/
def lineFor (s : Suggestion) : String :=
  match s.description with
  | some description => s.text ++ "\t" ++ description
  | none => s.text

theorem render_text (suggestions : List Suggestion) :
    render .text suggestions = unlines (suggestions.map lineFor) := rfl

/-! ## Lines -/

theorem toList_unlines (lines : List String) :
    (unlines lines).toList = lines.flatMap fun line => line.toList ++ ['\n'] := by
  induction lines with
  | nil => rfl
  | cons line rest ih =>
      simp only [unlines] at ih
      simp [unlines, ih]

theorem linesOf_append {line : List Char} (unbroken : '\n' ∉ line) (rest : List Char) :
    linesOf (line ++ '\n' :: rest) = line :: linesOf rest := by
  induction line with
  | nil => simp [linesOf]
  | cons c line ih =>
      obtain ⟨other, later⟩ : '\n' ≠ c ∧ '\n' ∉ line := by simpa using unbroken
      rw [List.cons_append, linesOf, if_neg (Ne.symm other), ih later]

theorem length_linesOf_append (text rest : List Char) :
    (linesOf (text ++ '\n' :: rest)).length = text.count '\n' + 1 + (linesOf rest).length := by
  induction text with
  | nil =>
      rw [List.nil_append, linesOf, if_pos rfl, List.length_cons, List.count_nil]
      omega
  | cons c text ih =>
      rw [List.cons_append, linesOf]
      by_cases newline : c = '\n'
      · rw [if_pos newline, newline, List.length_cons, ih, List.count_cons_self]
        omega
      · rw [if_neg newline, List.count_cons_of_ne newline, ← ih]
        cases lines : linesOf (text ++ '\n' :: rest) with
        | nil =>
            rw [lines, List.length_nil] at ih
            omega
        | cons line more => rfl

theorem length_linesOf_unlines (lines : List String) :
    (linesOf (unlines lines).toList).length =
      lines.length + (lines.map fun line => line.toList.count '\n').sum := by
  rw [toList_unlines]
  induction lines with
  | nil => rfl
  | cons line rest ih =>
      rw [List.flatMap_cons, List.append_assoc, List.singleton_append, length_linesOf_append, ih,
        List.map_cons, List.sum_cons, List.length_cons]
      omega

theorem linesOf_unlines {lines : List String} (unbroken : ∀ line ∈ lines, '\n' ∉ line.toList) :
    linesOf (unlines lines).toList = lines.map String.toList := by
  rw [toList_unlines]
  induction lines with
  | nil => rfl
  | cons line rest ih =>
      obtain ⟨now, later⟩ := List.forall_mem_cons.mp unbroken
      rw [List.flatMap_cons, List.append_assoc, List.singleton_append, linesOf_append now,
        ih later, List.map_cons]

theorem unbroken_of_length {lines : List String}
    (many : (linesOf (unlines lines).toList).length = lines.length) :
    ∀ line ∈ lines, '\n' ∉ line.toList := by
  intro line member broken
  rw [length_linesOf_unlines] at many
  have none : ((lines.map fun line => line.toList.count '\n').sum) = 0 := by omega
  have counted := List.sum_eq_zero_iff.mp none _ (List.mem_map_of_mem member)
  exact absurd (List.count_pos_iff.mpr broken) (by omega)

/-! ## Fields -/

theorem untabbed_of_takeWhile {line : List Char} {text : String}
    (before : String.ofList (line.takeWhile (· ≠ '\t')) = text) : '\t' ∉ text.toList := by
  rw [← before, String.toList_ofList]
  intro tab
  simpa using List.mem_takeWhile_imp tab

theorem forall_ne_tab {text : List Char} (untabbed : '\t' ∉ text) :
    ∀ c ∈ text, decide (c ≠ '\t') = true := by
  intro c member
  exact decide_eq_true fun tab => untabbed (tab ▸ member)

theorem fieldsOf_append {text : List Char} (untabbed : '\t' ∉ text) (rest : List Char) :
    fieldsOf (text ++ '\t' :: rest) = (String.ofList text, some (String.ofList rest)) := by
  have other := forall_ne_tab untabbed
  rw [fieldsOf, List.takeWhile_append_of_pos other, List.dropWhile_append_of_pos other]
  simp

theorem fieldsOf_untabbed {text : List Char} (untabbed : '\t' ∉ text) :
    fieldsOf text = (String.ofList text, none) := by
  have other := forall_ne_tab untabbed
  rw [fieldsOf, List.takeWhile_eq_self_iff.mpr other, List.dropWhile_eq_nil_iff.mpr other]

theorem fieldsOf_lineFor_iff (s : Suggestion) :
    fieldsOf (lineFor s).toList = (s.text, s.description) ↔ '\t' ∉ s.text.toList := by
  constructor
  · intro same
    exact untabbed_of_takeWhile (congrArg Prod.fst same)
  · intro untabbed
    cases described : s.description with
    | none =>
        rw [lineFor, described]
        simp [fieldsOf_untabbed untabbed]
    | some description =>
        have line : (lineFor s).toList = s.text.toList ++ '\t' :: description.toList := by
          simp [lineFor, described]
        rw [line, fieldsOf_append untabbed, String.ofList_toList, String.ofList_toList]

theorem mem_newline_lineFor (s : Suggestion) :
    '\n' ∈ (lineFor s).toList ↔
      '\n' ∈ s.text.toList ∨ ∃ description, s.description = some description ∧
        '\n' ∈ description.toList := by
  unfold lineFor
  cases s.description with
  | none => simp
  | some description => simp

/-- What is printed of suggestions is read back exactly where each of them can be. -/
theorem readBack_render_iff (suggestions : List Suggestion) :
    readBack (render .text suggestions) = suggestions.map (fun s => (s.text, s.description)) ↔
      ∀ s ∈ suggestions, s.Readable := by
  have unbroken_iff : (∀ line ∈ suggestions.map lineFor, '\n' ∉ line.toList) ↔
      ∀ s ∈ suggestions, '\n' ∉ s.text.toList ∧
        ∀ description, s.description = some description → '\n' ∉ description.toList := by
    rw [List.forall_mem_map]
    refine forall₂_congr fun s _ => ?_
    rw [mem_newline_lineFor]
    simp
  rw [readBack, render_text]
  constructor
  · intro same
    -- a broken line would be read as more than one
    have many := congrArg List.length same
    rw [List.length_map, List.length_map, ← List.length_map (f := lineFor)] at many
    have unbroken := unbroken_of_length many
    rw [linesOf_unlines unbroken, List.map_map, List.map_map] at same
    intro s member
    obtain ⟨text, description⟩ := unbroken_iff.mp unbroken s member
    have fields := List.map_inj_left.mp same s member
    exact ⟨⟨(fieldsOf_lineFor_iff s).mp fields, text⟩, description⟩
  · intro readable
    have unbroken := unbroken_iff.mpr fun s member =>
      ⟨(readable s member).text.unbroken, (readable s member).description⟩
    rw [linesOf_unlines unbroken, List.map_map, List.map_map]
    refine List.map_congr_left fun s member => ?_
    exact (fieldsOf_lineFor_iff s).mpr (readable s member).text.untabbed

/-! ## What a completion prints -/

/-- The engine when a completion asks it for suggestions, and its surroundings: the sources of the
dictionary that handles the command word were refreshed. -/
def refreshed [Codec] [ScriptRunner] (limit : Option Nat) (c : Completion) (e : Engine)
    (w : Surroundings) :
    Engine × Surroundings :=
  match e.suggestorFor (requestOf c).command with
  | none => (e, w)
  | some s =>
    (wait limit c.seconds.toNat (e.refreshDictionary s.dictionary (requestOf c).directory) w).2

def suggestionsOf? [Codec] [ScriptRunner] (files : Files) (c : Completion) :
    Option (List Suggestion) :=
  (loaded? files c).map fun loaded =>
    let limit := limitOf loaded.1
    let ready := refreshed limit c loaded.2 (begin files c)
    (ready.1.suggest ((host limit).clock ready.2) (requestOf c)).1

variable {files : Files} {c : Completion}

theorem complete_output [Codec] [ScriptRunner] (answered : (complete files c).status = 0) :
    ∃ suggestions, suggestionsOf? files c = some suggestions ∧
      (complete files c).output = render c.format suggestions := by
  obtain ⟨settings, e, loaded⟩ := loaded_of_complete answered
  refine ⟨_, by rw [suggestionsOf?, loaded]; rfl, ?_⟩
  rw [(complete_eq_answer loaded).1]
  simp only [answer, refreshed]
  cases e.suggestorFor (requestOf c).command with
  | none => rfl
  | some s =>
      simp only
      cases wait (limitOf settings) c.seconds.toNat
          (e.refreshDictionary s.dictionary (requestOf c).directory) (begin files c) with
      | mk result ready => cases result <;> rfl

/-- The text output of a completion is its suggestions, one line each, and these are read back from
it exactly where no text has a tab or a line end and no description a line end. -/
theorem text_read_back_iff [Codec] [ScriptRunner] (format : c.format = .text)
    (answered : (complete files c).status = 0) :
    ∃ suggestions, suggestionsOf? files c = some suggestions ∧
      (complete files c).output = render .text suggestions ∧
      (readBack (complete files c).output = suggestions.map (fun s => (s.text, s.description)) ↔
        ∀ s ∈ suggestions, s.Readable) := by
  obtain ⟨suggestions, suggested, output⟩ := complete_output answered
  rw [format] at output
  exact ⟨suggestions, suggested, output, output ▸ readBack_render_iff suggestions⟩

def describedFlag (description : String) : Files where
  entries := [(["tool.json"], .file (Text.Utf8.encode <|
    ["\x7b\"name\":\"tool\",\"keys\":[\"tool\"],\"platforms\":[\"all\"],\"parameters\":[",
      "\x7b\"name\":\"All\",\"keys\":[\"--all\"],\"type\":\"flag\",\"description\":\"",
      description, "\"\x7d]\x7d"].flatMap String.toList))]

theorem text_read_back_iff_described :
    (completeTool "tool ").format = .text ∧
      (complete (describedFlag "Every\\tone") (completeTool "tool ")).status = 0 ∧
      ∃ suggestions,
        suggestionsOf? (describedFlag "Every\\tone") (completeTool "tool ") = some suggestions ∧
        (complete (describedFlag "Every\\tone") (completeTool "tool ")).output =
          render .text suggestions ∧
        (readBack (complete (describedFlag "Every\\tone") (completeTool "tool ")).output =
            suggestions.map (fun s => (s.text, s.description)) ↔
          ∀ s ∈ suggestions, s.Readable) := by
  have answered : (complete (describedFlag "Every\\tone") (completeTool "tool ")).status = 0 := by
    decide +kernel
  exact ⟨rfl, answered, text_read_back_iff rfl answered⟩

/-- A description of two lines makes two lines of its suggestion. -/
theorem description_not_read_back :
    ¬ ∀ (files : Files) (c : Completion), c.format = .text → (complete files c).status = 0 →
      ∀ suggestions, suggestionsOf? files c = some suggestions →
        readBack (complete files c).output =
          suggestions.map fun s => (s.text, s.description) := by
  intro promised
  have answered : (complete (describedFlag "Every\\none") (completeTool "tool ")).status = 0 := by
    decide +kernel
  have one : (suggestionsOf? (describedFlag "Every\\none") (completeTool "tool ")).map
      List.length = some 1 := by decide +kernel
  have two : (readBack (complete (describedFlag "Every\\none")
      (completeTool "tool ")).output).length = 2 := by decide +kernel
  obtain ⟨suggestions, suggested, single⟩ := Option.map_eq_some_iff.mp one
  have same := congrArg List.length (promised _ _ rfl answered suggestions suggested)
  rw [two, List.length_map, single] at same
  exact absurd same (by decide)

end Cli

/-! ## What stands in a suggestion -/

theorem plain_iff {text : String} : Plain text ↔ ∀ c ∈ text.toList, c ≠ '\t' ∧ c ≠ '\n' := by
  constructor
  · rintro ⟨untabbed, unbroken⟩ c member
    exact ⟨fun tab => untabbed (tab ▸ member), fun newline => unbroken (newline ▸ member)⟩
  · intro every
    exact ⟨fun tab => (every _ tab).1 rfl, fun newline => (every _ newline).2 rfl⟩

theorem plain_append {a b : String} : Plain (a ++ b) ↔ Plain a ∧ Plain b := by
  simp only [plain_iff, String.toList_append, List.forall_mem_append]

namespace Literal

theorem forall_escapeDouble {P : Char → Prop} (backslash : P '\\') (cs : List Char) :
    (∀ c ∈ escapeDouble cs, P c) ↔ ∀ c ∈ cs, P c := by
  induction cs with
  | nil => rfl
  | cons c rest ih =>
      rw [escapeDouble]
      split <;> simp [ih, backslash]

theorem Form.plain_iff {cs word : List Char} (form : Form cs word) :
    (∀ c ∈ word, c ≠ '\t' ∧ c ≠ '\n') ↔ ∀ c ∈ cs, c ≠ '\t' ∧ c ≠ '\n' := by
  cases form with
  | bare => rfl
  | single =>
      rw [List.forall_mem_cons, List.forall_mem_append, List.forall_mem_singleton]
      simp
  | double =>
      rw [List.forall_mem_cons, List.forall_mem_append, List.forall_mem_singleton,
        forall_escapeDouble (by decide)]
      simp

theorem plain_write (text : String) (quote : Quote) : Plain (write text quote) ↔ Plain text := by
  rw [LineCompletion.plain_iff, LineCompletion.plain_iff, toList_write]
  exact (chars_form text.toList quote).plain_iff

end Literal

theorem Insertion.plain_write (i : Insertion) (quote : Quote) :
    Plain (i.write quote) ↔ Plain i.text := by
  cases i with
  | literal text => exact Literal.plain_write text quote
  | assigned key value => simp only [write, text, plain_append, Literal.plain_write]

namespace Predictions

variable {σ : Type}

theorem plain_space : Plain " " := ⟨by simp, by simp⟩

theorem plain_joinWords (words : List String) :
    Plain (joinWords words) ↔ ∀ word ∈ words, Plain word := by
  rw [joinWords]
  induction words with
  | nil => simp [plain_iff]
  | cons word rest ih =>
      cases rest with
      | nil => simp
      | cons next later =>
          rw [String.intercalate_cons_cons, plain_append, plain_append, ih,
            List.forall_mem_cons (l := next :: later), and_iff_left plain_space]

/-- The suggestions can be read back exactly where the words in front, what is inserted and the
descriptions allow it. -/
theorem readable_iff {p : Predictions σ} (fresh : p.buffered = []) :
    (∀ s ∈ p.toList, s.Readable) ↔
      p.toList = [] ∨ Plain p.lead ∧ (∀ i ∈ p.insertions, Plain i.text) ∧
        ∀ s ∈ p.toList, ∀ description, s.description = some description →
          '\n' ∉ description.toList := by
  have texts : (∀ s ∈ p.toList, Plain s.text) ↔
      ∀ i ∈ p.insertions, Plain p.lead ∧ Plain i.text := by
    have written : (∀ text ∈ p.toList.map (·.text), Plain text) ↔
        ∀ i ∈ p.insertions, Plain p.lead ∧ Plain i.text := by
      rw [texts_eq fresh, List.forall_mem_map]
      refine forall₂_congr fun i _ => ?_
      rw [plain_append, plain_append, Insertion.plain_write, and_iff_left plain_space]
    rwa [List.forall_mem_map] at written
  have some_iff : p.toList = [] ↔ p.insertions = [] := by
    have many := congrArg List.length (texts_eq fresh)
    rw [List.length_map, List.length_map] at many
    rw [← List.length_eq_zero_iff, many, List.length_eq_zero_iff]
  constructor
  · intro readable
    by_cases none : p.toList = []
    · exact .inl none
    · have plain := texts.mp fun s member => (readable s member).text
      obtain ⟨i, inserted⟩ := List.exists_mem_of_ne_nil _ fun empty => none (some_iff.mpr empty)
      exact .inr ⟨(plain i inserted).1, fun i member => (plain i member).2,
        fun s member => (readable s member).description⟩
  · rintro (none | ⟨lead, inserted, descriptions⟩) s member
    · simp [none] at member
    · exact ⟨texts.mpr (fun i member => ⟨lead, inserted i member⟩) s member,
        descriptions s member⟩

end Predictions

/-- The suggestions for a typed line can be read back exactly where neither a kept word nor what is
offered has a tab or a line end, and no description a line end. -/
theorem Suggestor.readable_iff (s : Suggestor) (caches : Caches) (clock : Clock) (line : String)
    (directory : Option String) :
    let predictions := s.predict caches clock { line := TokenLine.ofLine line, directory }
    (∀ g ∈ predictions.toList, g.Readable) ↔
      predictions.toList = [] ∨
        (∀ word ∈ s.dictionary.keptWords (SplitLine.ofLine line), Plain word) ∧
          (∀ i ∈ predictions.insertions, Plain i.text) ∧
          ∀ g ∈ predictions.toList, ∀ description, g.description = some description →
            '\n' ∉ description.toList := by
  intro predictions
  have nonempty : ∀ word ∈ (SplitLine.ofLine line).words, word ≠ "" := by
    rintro word member rfl
    exact (SplitLine.ofLine_wordsEnd line).nonempty [] (List.mem_map_of_mem member) rfl
  obtain ⟨fresh, lead⟩ : predictions.buffered = [] ∧ (predictions.choices = [] ∨
      s.dictionary.keptWords (SplitLine.ofLine line) ≠ [] ∧ predictions.lead =
        Predictions.joinWords (s.dictionary.keptWords (SplitLine.ofLine line))) :=
    s.dictionary.lead_predictWith s.options.mode (s.itemsOf caches clock directory)
      (SplitLine.ofLine line) nonempty
  rw [Predictions.readable_iff fresh]
  rcases lead with choices | ⟨-, lead⟩
  · have none : predictions.toList = [] := by simp [Predictions.toList, fresh, choices]
    simp [none]
  · rw [lead, Predictions.plain_joinWords]

/-! ## The values of commands -/

namespace Job

theorem unbroken_linesOf (text : List Char) : ∀ line ∈ linesOf text, '\n' ∉ line := by
  fun_induction linesOf text with
  | case1 => simp
  | case2 rest ih => simpa using ih
  | case3 c rest _ newline ih => simpa using ih
  | case4 c rest _ other lines ih =>
      have apart : '\n' ≠ c := fun same => other (beq_iff_eq.mpr same.symm)
      simp [apart]
  | case5 c rest _ other line more lines ih =>
      rw [lines] at ih
      obtain ⟨now, later⟩ := List.forall_mem_cons.mp ih
      have apart : '\n' ≠ c := fun same => other (beq_iff_eq.mpr same.symm)
      exact List.forall_mem_cons.mpr ⟨by simp [apart, now], later⟩

theorem trimRight_subset (cs : List Char) : Text.trimRight cs ⊆ cs := by
  intro c member
  have kept := List.mem_reverse.mp member
  exact List.mem_reverse.mp ((List.dropWhile_sublist _).subset kept)

theorem trim_subset (cs : List Char) : Text.trim cs ⊆ cs := by
  intro c member
  exact (List.dropWhile_sublist _).subset (trimRight_subset _ member)

theorem plain_itemOf {line : List Char} (unbroken : '\n' ∉ line) :
    Plain (itemOf line).name ∧ '\n' ∉ (itemOf line).description.toList := by
  have parts := List.takeWhile_append_dropWhile (p := (· != '\t')) (l := line)
  have after : line.drop (line.takeWhile (· != '\t')).length = line.dropWhile (· != '\t') :=
    calc line.drop (line.takeWhile (· != '\t')).length
        = (line.takeWhile (· != '\t') ++ line.dropWhile (· != '\t')).drop
            (line.takeWhile (· != '\t')).length := by rw [parts]
      _ = line.dropWhile (· != '\t') := List.drop_left
  have untabbed : '\t' ∉ line.takeWhile (· != '\t') := by
    intro tab
    simpa using List.mem_takeWhile_imp tab
  simp only [itemOf, after]
  split
  · rename_i description found
    refine ⟨⟨?_, ?_⟩, ?_⟩ <;> rw [String.toList_ofList]
    · exact untabbed
    · exact fun newline => unbroken ((List.takeWhile_sublist _).subset newline)
    · intro newline
      have later := List.mem_cons_of_mem '\t' (trim_subset description newline)
      rw [← found] at later
      exact unbroken ((List.dropWhile_sublist _).subset later)
  · rename_i other
    have whole : line.dropWhile (· != '\t') = [] := by
      cases rest : line.dropWhile (· != '\t') with
      | nil => rfl
      | cons c more =>
          have stops := List.head?_dropWhile_not (· != '\t') line
          rw [rest] at stops
          obtain rfl : c = '\t' := by simpa using stops
          exact absurd rest (other more)
    rw [whole, List.append_nil] at parts
    rw [parts] at untabbed
    refine ⟨⟨?_, ?_⟩, by simp⟩ <;> rw [String.toList_ofList]
    · exact untabbed
    · exact unbroken

theorem plain_itemsOf (output : List UInt8) :
    ∀ item ∈ itemsOf output, Plain item.name ∧ '\n' ∉ item.description.toList := by
  intro item member
  obtain ⟨line, kept, rfl⟩ := List.mem_map.mp member
  obtain ⟨whole, printed, rfl⟩ := List.mem_map.mp (List.mem_of_mem_filter kept)
  refine plain_itemOf fun newline => ?_
  exact unbroken_linesOf _ whole printed (trimRight_subset whole newline)

end Job

end LineCompletion

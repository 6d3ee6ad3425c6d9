import Mathlib.Data.List.Basic
import LineCompletion.Proofs.Line.Assigned
import LineCompletion.Proofs.Line.LetterCase
import LineCompletion.Proofs.Suggest.Selection

/-! # Values behind a key

A value is joined to its key by an equals sign, or it is the word after the key. Both lead a walk to
the same place. The joined word that completes a value is read as the same assignment exactly where
the key holds no quote, no backslash and no equals sign, since the key is put back unescaped.
-/

namespace LineCompletion

variable {σ : Type}

/-! ## Words that are read as a key and a literal -/

theorem Word.unescape_ne_nil {cs : List Char} (nonempty : cs ≠ []) : unescape cs ≠ [] := by
  fun_induction unescape cs with
  | case1 c rest ih => simp
  | case2 c rest lone ih => simp
  | case3 => exact absurd rfl nonempty

theorem Token.parse_assigned (key text : String) (quote : Quote) :
    parse (key ++ "=" ++ Literal.write text quote) =
      ofChars (key.toList ++ '=' :: Literal.chars text.toList quote) := by
  simp [parse, Literal.toList_write]

namespace Assignment

/-- A key in which nothing is a quote, a backslash or an equals sign. -/
def Plain (key : String) : Prop :=
  ∀ c ∈ key.toList, c ≠ '"' ∧ c ≠ '\'' ∧ c ≠ '\\' ∧ c ≠ '='

theorem plain_congr {key other : String} (same : Text.equalAsciiCase key other = true) :
    Plain key ↔ Plain other := by
  have folded : key.toList.map Char.toLower = other.toList.map Char.toLower := by
    simpa [Text.equalAsciiCase] using same
  have mark (c : Char) {d : Char} (other : ¬ d.isAlpha = true) : c.toLower ≠ d ↔ c ≠ d :=
    not_congr (Text.toLower_eq_iff other)
  have small (text : String) : Plain text ↔ ∀ c ∈ text.toList.map Char.toLower,
      c ≠ '"' ∧ c ≠ '\'' ∧ c ≠ '\\' ∧ c ≠ '=' := by
    rw [List.forall_mem_map]
    refine forall₂_congr fun c _ => ?_
    rw [mark c (by decide), mark c (by decide), mark c (by decide), mark c (by decide)]
  rw [small, small, folded]

theorem Splits.plain_of_key {key rest front back : List Char}
    (splits : Splits (key ++ '=' :: rest) front back) (read : Word.unescape front = key) :
    ∀ c ∈ key, c ≠ '"' ∧ c ≠ '\'' ∧ c ≠ '\\' ∧ c ≠ '=' := by
  have shorter : key.length ≤ front.length := read ▸ (Word.unescape_sublist front).length_le
  rcases append_equals_cases splits.eq_append shorter with ⟨rfl, rfl⟩ | ⟨middle, whole, tail⟩
  · exact splits.plain_of_unescape read
  · -- the part before the split has one more equals sign than the key that is read from it
    have counts := Word.count_unescape (c := '=') (by decide) front
    rw [read, whole] at counts
    simp only [List.count_append, List.count_cons_self] at counts
    omega

theorem read_back_iff {key : String} (nonempty : key ≠ "") (text : String) (quote : Quote) :
    (∃ a, (Token.parse (key ++ "=" ++ Literal.write text quote)).assignment = some a ∧
        a.key = key ∧ a.value.text = text) ↔ Plain key := by
  rw [Token.parse_assigned, Token.assignment_ofChars]
  constructor
  · rintro ⟨a, assigned, same, _⟩
    obtain ⟨⟨front, back⟩, split, rfl⟩ := Option.map_eq_some_iff.mp assigned
    have read : Word.unescape front = key.toList := by
      rw [← same, String.toList_ofList]
    exact (splits_of_split? split).1.plain_of_key read
  · intro plain
    have front : key.toList ≠ [] := by simpa using nonempty
    have split := (splits_of_plain plain (Literal.chars text.toList quote)).split? front
    have slash : '\\' ∉ key.toList := fun inside => (plain _ inside).2.2.1 rfl
    have read := (Literal.chars_form text.toList quote).readChars.1
    refine ⟨_, by rw [split, Option.map_some], ?_, ?_⟩
    · simp [Word.unescape_eq_self slash]
    · simp [Word.ofChars, read]

theorem closed_of_plain {key : String} (nonempty : key ≠ "") (plain : Plain key) (text : String)
    (quote : Quote) : (Token.parse (key ++ "=" ++ Literal.write text quote)).closed = true := by
  have front : key.toList ≠ [] := by simpa using nonempty
  rw [Token.parse_assigned, Token.closed_ofChars,
    (splits_of_plain plain (Literal.chars text.toList quote)).split? front]
  exact (Literal.chars_form text.toList quote).readChars.2

theorem key_ne_empty {raw : String} {a : Assignment}
    (assigned : (Token.parse raw).assignment = some a) : a.key ≠ "" := by
  rw [Token.parse, Token.assignment_ofChars] at assigned
  obtain ⟨⟨front, back⟩, split, rfl⟩ := Option.map_eq_some_iff.mp assigned
  have nonempty := Word.unescape_ne_nil (splits_of_split? split).2
  simpa [← String.toList_inj] using nonempty

end Assignment

/-! ## Assignments under the cursor -/

namespace Walk

theorem declared_of_findKeyed {w : Walk σ} {text : String} {hit : Hit σ}
    (found : w.findKeyed text = some hit) :
    ∃ key ∈ hit.parameter.keys, Text.equalAsciiCase key text = true := by
  obtain ⟨s, ⟨_, _, _, same⟩, selects⟩ := findKeyed_located found
  rw [same]
  exact Validation.matchesKey_lower ((Bool.and_eq_true _ _).mp selects).1

/-- Values behind a key are those of the slot that the word assigns to. -/
theorem assigned_of_complete {w : Walk σ} {token : Token} {p : Parameter σ} {key : String}
    {typed : Typed} (complete : w.complete token = .values p (some key) typed) :
    ∃ hit a, w.assignmentHit token = some (hit, a) ∧ hit.parameter = p ∧ a.key = key ∧
      typed = { text := a.value.text, quote := a.value.quote } := by
  unfold Walk.complete at complete
  cases pending : w.pending with
  | some q =>
      simp only [pending] at complete
      split at complete
      · simp at complete
      · simp at complete
  | none =>
      cases assigned : w.assignmentHit token with
      | some found =>
          obtain ⟨hit, a⟩ := found
          simp only [pending, assigned] at complete
          split at complete
          · simp at complete
          · obtain ⟨same, own, text⟩ := Completion.values.inj complete
            exact ⟨hit, a, rfl, same, Option.some.inj own, text.symm⟩
      | none =>
          -- every other word is consumed or begins a key
          simp only [pending, assigned] at complete
          repeat' split at complete
          all_goals simp at complete

/-- A closed word that gives a value to the slot that another word assigns to, by the same key. -/
structure ReadsAs (w : Walk σ) (typed word : Token) (value : String) : Prop where
  closed : word.closed = true
  assigns : ∃ hit before after, w.assignmentHit typed = some (hit, before) ∧
    w.assignmentHit word = some (hit, after) ∧ after.key = before.key ∧ after.value.text = value

theorem readsAs_iff {w : Walk σ} {raw : String} {hit : Hit σ} {a : Assignment}
    (assigned : w.assignmentHit (Token.parse raw) = some (hit, a)) (text : String) (quote : Quote) :
    w.ReadsAs (Token.parse raw) (Token.parse (a.key ++ "=" ++ Literal.write text quote)) text ↔
      Assignment.Plain a.key := by
  obtain ⟨own, found, takes⟩ := assignmentHit_located assigned
  have nonempty := Assignment.key_ne_empty own
  constructor
  · rintro ⟨_, other, before, after, typed, word, key, value⟩
    obtain ⟨rfl, rfl⟩ := Prod.mk.inj (Option.some.inj (assigned.symm.trans typed))
    obtain ⟨split, _, _⟩ := assignmentHit_located word
    exact (Assignment.read_back_iff nonempty text quote).mp ⟨after, split, key, value⟩
  · intro plain
    obtain ⟨after, split, key, value⟩ :=
      (Assignment.read_back_iff nonempty text quote).mpr plain
    have word : w.assignmentHit (Token.parse (a.key ++ "=" ++ Literal.write text quote)) =
        some (hit, after) := by
      simp [assignmentHit, split, key, found, takes]
    exact ⟨Assignment.closed_of_plain nonempty plain text quote,
      hit, a, after, assigned, word, key, value⟩

end Walk

namespace Dictionary

/-- The word that is suggested for a value behind a key is closed and gives this value to the same
slot by the same key exactly where no quote, backslash or equals sign is in the key, as typed or as
the dictionary declares it. -/
theorem assigned_value_read_back_iff (d : Dictionary σ) (tokens : List Token) (raw : String)
    {p : Parameter σ} {key : String} {typed : Typed}
    (complete : (d.walk tokens).complete (Token.parse raw) = .values p (some key) typed)
    (predictions : Predictions σ) (under : predictions.typed = typed) (item : Item) :
    let word := key ++ "=" ++ Literal.write item.name typed.quote
    (predictions.valueSuggestion (some key) item).text = predictions.lead ++ " " ++ word ∧
      ((d.walk tokens).ReadsAs (Token.parse raw) (Token.parse word) item.name ↔
        Assignment.Plain key) ∧
      ∃ declared ∈ p.keys, Text.equalAsciiCase declared key = true ∧
        (Assignment.Plain declared ↔ Assignment.Plain key) := by
  obtain ⟨hit, a, assigned, rfl, rfl, _⟩ := Walk.assigned_of_complete complete
  obtain ⟨_, found, _⟩ := Walk.assignmentHit_located assigned
  obtain ⟨declared, member, same⟩ := Walk.declared_of_findKeyed found
  refine ⟨?_, Walk.readsAs_iff assigned item.name typed.quote, ?_⟩
  · rw [← under]
    rfl
  · exact ⟨declared, member, same, Assignment.plain_congr same⟩

def zone (key : String) : Parameter Source :=
  (Parameter.value [key] "Zone").withSource
    { name := "Zones", provider := .fixed [{ name := "east" }, { name := "far west" }] }

def zoned (key : String) : Dictionary Source :=
  (ofCommand "deploy").withParameter (zone key)

/-- A value with a blank, behind a key in other letters. -/
theorem assigned_value_read_back_iff_zone :
    let predictions : Predictions Source :=
      { lead := "deploy", typed := { text := "far", quote := .single } }
    ((zoned "--zone").walk []).complete (Token.parse "--ZONE='far") =
        .values (zone "--zone") (some "--ZONE") predictions.typed ∧
      (predictions.valueSuggestion (some "--ZONE") { name := "far west" }).text =
        "deploy --ZONE='far west'" ∧
      ((zoned "--zone").walk []).ReadsAs (Token.parse "--ZONE='far")
        (Token.parse "--ZONE='far west'") "far west" := by
  intro predictions
  have complete : ((zoned "--zone").walk []).complete (Token.parse "--ZONE='far") =
      .values (zone "--zone") (some "--ZONE") predictions.typed := by rfl
  obtain ⟨text, reads, _⟩ := assigned_value_read_back_iff (zoned "--zone") [] "--ZONE='far"
    complete predictions rfl { name := "far west" }
  exact ⟨complete, text, reads.mpr (by simp [Assignment.Plain])⟩

/-- An equals sign in a key is typed with a backslash and put back without one, so the value is
assigned to another key. -/
theorem assigned_value_not_read_back :
    ¬ ∀ d : Dictionary Source, d.validate = .ok () → ∀ tokens raw p key typed,
      (d.walk tokens).complete (Token.parse raw) = .values p (some key) typed →
        ∀ source items, p.source? = some source → source.provider = .fixed items →
          ∀ item ∈ items, (d.walk tokens).ReadsAs (Token.parse raw)
            (Token.parse (key ++ "=" ++ Literal.write item.name typed.quote)) item.name := by
  intro every
  obtain ⟨_, hit, before, after, _, word, _, _⟩ := every (zoned "--zone=main") (by rfl) []
    "--zone\\=main=e" (zone "--zone=main") "--zone=main" { text := "e" } (by rfl) _ _ rfl rfl
    { name := "east" } (by simp)
  have lost : ((zoned "--zone=main").walk []).assignmentHit (Token.parse "--zone=main=east") =
      none := by rfl
  exact absurd (lost.symm.trans word) (by simp)

end Dictionary

/-! ## One word or two -/

namespace Walk

/-- Whether a parameter is a value that may be the word after its key. -/
def takesBlank (p : Parameter σ) : Bool :=
  match p.kind with
  | .value _ separator => separator.acceptsBlank
  | _ => false

theorem waitsForValue_iff {p : Parameter σ} {bound : Bool} :
    waitsForValue p bound = true ↔ bound = false ∧ p.keys ≠ [] ∧ takesBlank p = true := by
  unfold waitsForValue takesBlank
  cases p.kind with
  | command | flag => simp
  | value source separator => simp [and_assoc]

theorem consume_of_assigned {w : Walk σ} (free : w.pending = none) {token : Token} {hit : Hit σ}
    {a : Assignment} (assigned : w.assignmentHit token = some (hit, a)) :
    w.consume token = (w.useUp hit).enter hit.parameter := by
  have selects : w.selection? token = some (hit, true) := by
    simp [selection?, assigned]
  have bound : ¬ waitsForValue hit.parameter true = true := by
    simp [waitsForValue_iff]
  rw [consume_eq_select free, selects]
  simp [select, bound]

theorem consume_of_key {w : Walk σ} (free : w.pending = none) {token : Token} {hit : Hit σ}
    (unassigned : w.assignmentHit token = none) (found : w.findKeyed token.text = some hit)
    (blank : takesBlank hit.parameter = true) :
    w.consume token = { w.useUp hit with pending := some hit.parameter } := by
  obtain ⟨declared, member, _⟩ := declared_of_findKeyed found
  have waits : waitsForValue hit.parameter false = true :=
    waitsForValue_iff.mpr ⟨rfl, List.ne_nil_of_mem member, blank⟩
  have selects : w.selection? token = some (hit, false) := by
    simp [selection?, unassigned, found]
  rw [consume_eq_select free, selects]
  simp [select, waits]

end Walk

/-- A key and its value may be one word or two: where the value may be the next word, a line with
both leads where the line with the assignment leads, whatever the value is. -/
theorem Dictionary.assignment_eq_two_words (d : Dictionary σ) (tokens : List Token)
    (free : (d.walk tokens).pending = none) {joined : Token} {hit : Hit σ} {a : Assignment}
    (assigned : (d.walk tokens).assignmentHit joined = some (hit, a))
    (blank : Walk.takesBlank hit.parameter = true) {key : Token}
    (unassigned : key.assignment = none)
    (same : key.text = a.key) (value : Token) (rest : List Token) :
    d.walk (tokens ++ key :: value :: rest) = d.walk (tokens ++ joined :: rest) := by
  obtain ⟨_, found, _⟩ := Walk.assignmentHit_located assigned
  have alone : (d.walk tokens).assignmentHit key = none := by
    simp [Walk.assignmentHit, unassigned]
  have waiting := Walk.consume_of_key free alone (same ▸ found) blank
  -- the key is used up at once, and only the frame that the value opens is left to the next word
  have used : { (d.walk tokens).useUp hit with pending := none } = (d.walk tokens).useUp hit := by
    rw [← free, ← Walk.pending_useUp _ hit]
  have two : ((d.walk tokens).consume key).consume value = (d.walk tokens).consume joined := by
    calc ((d.walk tokens).consume key).consume value
        = Walk.enter { (d.walk tokens).useUp hit with pending := none } hit.parameter := by
          rw [waiting]
          rfl
      _ = ((d.walk tokens).useUp hit).enter hit.parameter := by rw [used]
      _ = (d.walk tokens).consume joined := (Walk.consume_of_assigned free assigned).symm
  rw [walk_append, walk_append, List.foldl_cons, List.foldl_cons, two, List.foldl_cons]

/-- A setting for every depth, which opens a scope of its own. -/
def Parameter.setting : Parameter Unit :=
  (withParameter (flag ["--global"] "Global") (value ["--config"] "Config")).markRecursive

/-- A command whose subcommand has no setting of its own. -/
def Dictionary.withSetting : Dictionary Unit :=
  ((ofCommand "git").withParameter (Parameter.command "commit")).withParameter Parameter.setting

/-- The key may be quoted, and the value may look like another assignment. -/
theorem Dictionary.assignment_eq_two_words_setting :
    let w := withSetting.walk [Token.parse "commit"]
    let setting : Hit Unit := { up := 1, index := 1, parameter := Parameter.setting }
    w.pending = none ∧
      w.assignmentHit (Token.parse "--config='a b'") =
        some (setting, { key := "--config", value := Word.ofChars "'a b'".toList }) ∧
      Walk.takesBlank setting.parameter = true ∧
      (Token.parse "'--config'").assignment = none ∧
      (Token.parse "'--config'").text = "--config" ∧
      withSetting.walk ([Token.parse "commit"] ++
          Token.parse "'--config'" :: Token.parse "b=c" :: [Token.parse "--global"]) =
        withSetting.walk ([Token.parse "commit"] ++
          Token.parse "--config='a b'" :: [Token.parse "--global"]) := by
  intro w setting
  have free : w.pending = none := by rfl
  have assigned : w.assignmentHit (Token.parse "--config='a b'") =
      some (setting, { key := "--config", value := Word.ofChars "'a b'".toList }) := by rfl
  exact ⟨free, assigned, by rfl, by rfl, by rfl,
    assignment_eq_two_words withSetting [Token.parse "commit"] free assigned (by rfl) (by rfl)
      (by rfl) (Token.parse "b=c") [Token.parse "--global"]⟩

end LineCompletion

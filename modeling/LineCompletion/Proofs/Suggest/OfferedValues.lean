import Mathlib.Data.List.Basic
import LineCompletion.Proofs.Line.Assigned
import LineCompletion.Proofs.Suggest.OfferedKeys

/-! # Values that are offered and values that are taken

The values of every free positional parameter of the innermost frame are offered, but the next word
goes to the first of them only, and to none where it is read as a key, as an assignment or as a
flag. A recursive positional parameter takes the next word and is never offered.
-/

namespace LineCompletion

variable {σ : Type}

/-! ## Literals that are read as assignments or flags -/

theorem Token.isQuoted_ofChars (cs : List Char) : (ofChars cs).isQuoted = opensQuote cs := by
  by_cases opens : opensQuote cs = true
  · rw [ofChars_of_opensQuote opens, opens]
    cases cs with
    | nil => simp [opensQuote] at opens
    | cons c rest =>
        simp only [opensQuote, Bool.or_eq_true, beq_iff_eq] at opens
        rcases opens with rfl | rfl <;> rfl
  · have bare : opensQuote cs = false := by simpa using opens
    cases split : Assignment.split? cs with
    | none =>
        simp [ofChars_of_whole split, isQuoted, Word.ofChars, Word.readChars_of_bare bare, bare]
    | some parts => simp [ofChars_of_split split, isQuoted, bare]

namespace Literal

def IsBare (text : String) (quote : Quote) : Prop :=
  quote = .bare ∧ needsQuotes text.toList = false

theorem write_of_isBare {text : String} {quote : Quote} (bare : IsBare text quote) :
    write text quote = text := by
  obtain ⟨rfl, plain⟩ := bare
  have kept : chars text.toList .bare = text.toList := by
    have single : (Quote.bare == Quote.single) = false := rfl
    simp [chars, plain, single]
  rw [write, kept, String.ofList_toList]

theorem opensQuote_of_not_isBare {text : String} {quote : Quote} (quoted : ¬ IsBare text quote) :
    Token.opensQuote (write text quote).toList = true := by
  rw [toList_write]
  unfold chars
  split
  · rfl
  · split
    · rename_i bare
      rw [Bool.and_eq_true, beq_iff_eq, Bool.not_eq_true'] at bare
      exact absurd bare quoted
    · rfl

theorem isFlagLike_parse_write (text : String) (quote : Quote) :
    (Token.parse (write text quote)).isFlagLike = true ↔
      IsBare text quote ∧ text.toList.head? = some '-' := by
  have read := (parse_write text quote).1
  have opens : (Token.parse (write text quote)).isQuoted =
      Token.opensQuote (write text quote).toList := Token.isQuoted_ofChars _
  by_cases bare : IsBare text quote
  · rw [write_of_isBare bare, opensQuote_of_needsQuotes bare.2] at opens
    rw [write_of_isBare bare] at read ⊢
    simp [Token.isFlagLike, opens, read, bare]
  · rw [opensQuote_of_not_isBare bare] at opens
    simp [Token.isFlagLike, opens, bare]

/-- Only a bare literal can be an assignment, and then it is split at its first equals sign. -/
theorem assignment_parse_write {text : String} {quote : Quote} {a : Assignment} :
    (Token.parse (write text quote)).assignment = some a ↔
      IsBare text quote ∧ ∃ key value, text.toList = key ++ '=' :: value ∧ key ≠ [] ∧ '=' ∉ key ∧
        a = { key := String.ofList key, value := Word.ofChars value } := by
  by_cases bare : IsBare text quote
  · have special := (plain_of_needsQuotes bare.2).2
    rw [write_of_isBare bare, Token.parse, Token.ofChars, opensQuote_of_needsQuotes bare.2]
    simp only [Bool.false_eq_true, if_false, bare, true_and]
    constructor
    · intro assigned
      cases split : Assignment.split? text.toList with
      | none => simp [split] at assigned
      | some parts =>
          obtain ⟨key, value⟩ := parts
          obtain ⟨splits, nonempty⟩ := Assignment.splits_of_split? split
          have slash : '\\' ∉ key := by
            intro member
            have inside : '\\' ∈ text.toList := by simp [splits.eq_append, member]
            exact (ne_of_not_special (special _ inside)).2.2.2 rfl
          have kept := Word.unescape_eq_self slash
          have equals : '=' ∉ key := fun member =>
            (splits.plain_of_unescape kept '=' member).2.2.2 rfl
          simp only [split, kept] at assigned
          exact ⟨key, value, splits.eq_append, nonempty, equals, (Option.some.inj assigned).symm⟩
    · rintro ⟨key, value, whole, nonempty, equals, rfl⟩
      have plain : ∀ c ∈ key, c ≠ '"' ∧ c ≠ '\'' ∧ c ≠ '\\' ∧ c ≠ '=' := by
        intro c member
        obtain ⟨_, double, single, slash⟩ := ne_of_not_special (special c (by simp [whole, member]))
        exact ⟨double, single, slash, fun same => equals (same ▸ member)⟩
      have kept := Word.unescape_eq_self fun member => (plain '\\' member).2.2.1 rfl
      rw [whole, (Assignment.splits_of_plain plain value).split? nonempty]
      simp only [kept]
  · rw [Token.parse, Token.ofChars_of_opensQuote (opensQuote_of_not_isBare bare)]
    simp [bare]

end Literal

/-! ## Slots whose values are offered -/

theorem Parameter.matchesKey_of_isPositional {p : Parameter σ} (positional : p.isPositional = true)
    (text : String) : p.matchesKey text = false := by
  rw [isPositional, Bool.and_eq_true, List.isEmpty_iff] at positional
  simp [matchesKey, positional.2]

def Candidate.isValues : Candidate σ → Bool
  | .key _ => false
  | .values _ _ => true

namespace Walk

/-- Whether a slot offers its values where its frame is the innermost. -/
def offering (s : Slot σ) : Bool :=
  s.parameter.isPositional && !s.used && !s.parameter.recursive

theorem offering_iff {s : Slot σ} :
    offering s = true ↔
      s.parameter.isPositional = true ∧ s.used = false ∧ s.parameter.recursive = false := by
  simp [offering, and_assoc]

/-- A slot of the innermost frame that offers its values. -/
structure Offers (w : Walk σ) (hit : Hit σ) : Prop where
  innermost : hit.up = 0
  slot : ∃ s, w.At hit s ∧ offering s = true

theorem Offers.isPositional {w : Walk σ} {hit : Hit σ} (offers : w.Offers hit) :
    hit.parameter.isPositional = true := by
  obtain ⟨s, ⟨f, _, _, same⟩, shown⟩ := offers.slot
  rw [same]
  exact (offering_iff.mp shown).1

theorem Offers.not_recursive {w : Walk σ} {hit : Hit σ} (offers : w.Offers hit) :
    hit.parameter.recursive = false := by
  obtain ⟨s, ⟨f, _, _, same⟩, shown⟩ := offers.slot
  rw [same]
  exact (offering_iff.mp shown).2.2

theorem values_mem_freeCandidate {s : Slot σ} {p : Parameter σ} {key : Option String} :
    .values p key ∈ freeCandidate false s ↔ offering s = true ∧ p = s.parameter ∧ key = none := by
  unfold freeCandidate offering
  cases s.parameter.isPositional <;> cases s.used <;> cases s.parameter.recursive <;> simp

theorem find?_freeCandidate_isValues (s : Slot σ) :
    (freeCandidate false s).find? Candidate.isValues =
      if offering s then some (.values s.parameter none) else none := by
  unfold freeCandidate offering
  cases s.parameter.isPositional <;> cases s.used <;> cases s.parameter.recursive <;>
    simp [Candidate.isValues]

theorem isValues_of_mem_recursiveCandidates {frames : List (Frame σ)} {c : Candidate σ}
    (member : c ∈ frames.flatMap recursiveCandidates) : c.isValues = false := by
  obtain ⟨f, _, inside⟩ := List.mem_flatMap.mp member
  obtain ⟨s, _, rfl⟩ := List.mem_map.mp inside
  rfl

theorem values_mem_enumerate {w : Walk σ} (free : w.pending = none) {p : Parameter σ} :
    .values p none ∈ w.enumerate false ↔ ∃ hit, w.Offers hit ∧ hit.parameter = p := by
  simp only [enumerate, free, List.mem_append]
  constructor
  · rintro (offered | recursive)
    · cases frames : w.frames with
      | nil => simp [frames] at offered
      | cons f rest =>
          rw [frames, List.head?_cons, Option.getD_some] at offered
          obtain ⟨s, member, inside⟩ := List.mem_flatMap.mp offered
          obtain ⟨shown, rfl, _⟩ := values_mem_freeCandidate.mp inside
          obtain ⟨index, slot⟩ := List.mem_iff_getElem?.mp member
          refine ⟨{ up := 0, index, parameter := s.parameter }, ⟨rfl, s, ?_, shown⟩, rfl⟩
          exact ⟨f, by simp [frames], slot, rfl⟩
    · exact absurd (isValues_of_mem_recursiveCandidates recursive) (by simp [Candidate.isValues])
  · rintro ⟨hit, offers, rfl⟩
    obtain ⟨s, ⟨f, frame, slot, same⟩, shown⟩ := offers.slot
    rw [offers.innermost, ← List.head?_eq_getElem?] at frame
    refine .inl (List.mem_flatMap.mpr ⟨s, ?_, values_mem_freeCandidate.mpr ⟨shown, same, rfl⟩⟩)
    simpa [frame] using List.mem_of_getElem? slot

theorem offers_findPositional {w : Walk σ} {hit : Hit σ} (found : w.findPositional = some hit) :
    w.Offers hit ↔ hit.parameter.recursive = false := by
  obtain ⟨s, place, innermost, positional, unused⟩ := findPositional_located found
  obtain ⟨f, frame, slot, same⟩ := place
  constructor
  · exact Offers.not_recursive
  · intro once
    rw [same] at once
    exact ⟨innermost, s, ⟨f, frame, slot, same⟩, offering_iff.mpr ⟨positional, unused, once⟩⟩

theorem find?_and {α : Type} {p q : α → Bool} {as : List α} {a : α} (found : as.find? p = some a)
    (holds : q a = true) : as.find? (fun b => p b && q b) = some a := by
  obtain ⟨own, before, after, rfl, none⟩ := List.find?_eq_some_iff_append.mp found
  refine List.find?_eq_some_iff_append.mpr ⟨by simp [own, holds], before, after, rfl, ?_⟩
  intro b member
  have missed : p b = false := by simpa using none b member
  simp [missed]

theorem find?_freeCandidates_isValues (f : Frame σ) :
    (f.flatMap (freeCandidate false)).find? Candidate.isValues =
      (List.find? offering f).map fun s => .values s.parameter none := by
  induction f with
  | nil => rfl
  | cons s rest ih =>
      rw [List.flatMap_cons, List.find?_append, find?_freeCandidate_isValues, ih, List.find?_cons]
      cases offering s with
      | true => simp
      | false => simp

/-- Where the slot that the next word binds offers its values, they are the first offered. -/
theorem first_of_findPositional {w : Walk σ} (free : w.pending = none) {hit : Hit σ}
    (found : w.findPositional = some hit) (once : hit.parameter.recursive = false) :
    (w.enumerate false).find? Candidate.isValues = some (.values hit.parameter none) := by
  unfold findPositional at found
  split at found
  · simp at found
  · rename_i f rest frames
    obtain ⟨⟨index, s⟩, inner, rfl⟩ := Option.map_eq_some_iff.mp found
    have slot : List.find? (fun s => s.parameter.isPositional && !s.used) f = some s := by
      rw [← Frame.find?_slot, inner]
      rfl
    have single : (!s.parameter.recursive) = true := by simpa using once
    have offers := find?_and (q := fun s => !s.parameter.recursive) slot single
    change List.find? offering f = some s at offers
    simp only [enumerate, free, frames, List.head?_cons, Option.getD_some]
    rw [List.find?_append, find?_freeCandidates_isValues, offers]
    rfl

/-- What is offered leaves a literal to the positional parameters: it is no key, and where it is
written bare it is neither like a flag nor an assignment to a key that takes one. -/
structure LeavesLiteral (w : Walk σ) (text : String) (quote : Quote) : Prop where
  key : ∀ p, .key p ∈ w.enumerate false → p.matchesKey text = false
  flag : Literal.IsBare text quote → text.toList.head? ≠ some '-'
  assignment : Literal.IsBare text quote → ∀ key value, text.toList = key ++ '=' :: value →
    key ≠ [] → '=' ∉ key →
      ∀ p, (w.enumerate false).find? (Candidate.hasKey (String.ofList key)) = some (.key p) →
        takesAssignment p = false

theorem findKeyed_eq_none_iff {w : Walk σ} (clear : w.Clear) (free : w.pending = none)
    (text : String) :
    w.findKeyed text = none ↔ ∀ p, .key p ∈ w.enumerate false → p.matchesKey text = false := by
  rw [← Option.map_eq_none_iff (f := fun hit => Candidate.key hit.parameter),
    findKeyed_eq_find? clear free, List.find?_eq_none]
  constructor
  · intro none p offered
    simpa [Candidate.hasKey] using none _ offered
  · intro none c offered
    cases c with
    | key p => simp [Candidate.hasKey, none p offered]
    | values p key => simp [Candidate.hasKey]

theorem assignmentHit_literal_eq_none_iff {w : Walk σ} (clear : w.Clear) (free : w.pending = none)
    (text : String) (quote : Quote) :
    w.assignmentHit (Token.parse (Literal.write text quote)) = none ↔
      (Literal.IsBare text quote → ∀ key value, text.toList = key ++ '=' :: value → key ≠ [] →
        '=' ∉ key →
          ∀ p, (w.enumerate false).find? (Candidate.hasKey (String.ofList key)) = some (.key p) →
            takesAssignment p = false) := by
  have located (key : String) := findKeyed_eq_find? clear free key
  constructor
  · intro none bare key value whole nonempty equals p first
    have assigned := Literal.assignment_parse_write.mpr
      ⟨bare, key, value, whole, nonempty, equals, rfl⟩
    have same := (located (String.ofList key)).trans first
    obtain ⟨hit, keyed, same⟩ := Option.map_eq_some_iff.mp same
    obtain rfl := Candidate.key.inj same
    rw [← Bool.not_eq_true]
    intro takes
    simp [assignmentHit, assigned, keyed, takes] at none
  · intro other
    unfold assignmentHit
    cases assigned : (Token.parse (Literal.write text quote)).assignment with
    | none => rfl
    | some a =>
        obtain ⟨bare, key, value, whole, nonempty, equals, rfl⟩ :=
          Literal.assignment_parse_write.mp assigned
        cases keyed : w.findKeyed (String.ofList key) with
        | none => simp [keyed]
        | some hit =>
            have first := located (String.ofList key)
            rw [keyed, Option.map_some] at first
            have refused := other bare key value whole nonempty equals hit.parameter first.symm
            simp [keyed, refused]

theorem isPositional_of_assignmentHit {w : Walk σ} {word : Token} {hit : Hit σ} {a : Assignment}
    (assigned : w.assignmentHit word = some (hit, a)) : hit.parameter.isPositional = false := by
  obtain ⟨_, keyed, _⟩ := assignmentHit_located assigned
  obtain ⟨s, ⟨_, _, _, same⟩, selects⟩ := findKeyed_located keyed
  obtain ⟨own, _⟩ := (Bool.and_eq_true _ _).mp selects
  rw [same, ← Bool.not_eq_true]
  intro positional
  rw [Parameter.matchesKey_of_isPositional positional] at own
  exact absurd own Bool.false_ne_true

/-- A slot that offers its values takes a literal exactly where it is the first free one and nothing
else that is offered wants the literal. -/
theorem selection?_literal_iff {w : Walk σ} (clear : w.Clear) (free : w.pending = none)
    {hit : Hit σ} (offers : w.Offers hit) (text : String) (quote : Quote) :
    w.selection? (Token.parse (Literal.write text quote)) = some (hit, true) ↔
      w.findPositional = some hit ∧ w.LeavesLiteral text quote := by
  have read := (Literal.parse_write text quote).1
  constructor
  · intro selected
    rcases selection?_cases selected with
      ⟨⟨a, assigned⟩, _⟩ | ⟨_, _, bound⟩ | ⟨unassigned, unkeyed, flag, found, _⟩
    · have positional := offers.isPositional
      rw [isPositional_of_assignmentHit assigned] at positional
      exact absurd positional Bool.false_ne_true
    · exact Bool.noConfusion bound
    · rw [read] at unkeyed
      refine ⟨found, ?_, ?_, ?_⟩
      · exact (findKeyed_eq_none_iff clear free text).mp unkeyed
      · intro bare dash
        rw [(Literal.isFlagLike_parse_write text quote).mpr ⟨bare, dash⟩] at flag
        exact Bool.noConfusion flag
      · exact (assignmentHit_literal_eq_none_iff clear free text quote).mp unassigned
  · rintro ⟨found, leaves⟩
    have unassigned :=
      (assignmentHit_literal_eq_none_iff clear free text quote).mpr leaves.assignment
    have unkeyed := (findKeyed_eq_none_iff clear free text).mpr leaves.key
    have flag : ¬ (Token.parse (Literal.write text quote)).isFlagLike = true := by
      rw [Literal.isFlagLike_parse_write]
      rintro ⟨bare, dash⟩
      exact leaves.flag bare dash
    simp [selection?, unassigned, read, unkeyed, flag, found]

end Walk

namespace Dictionary

/-- In a checked dictionary, a parameter whose values are offered takes one of them exactly where
its slot is the first free one, and the literal is not read as an offered key, an assignment to one
or a flag. -/
theorem offered_value_taken_iff {d : Dictionary σ} (valid : d.validate = .ok ())
    (tokens : List Token) (free : (d.walk tokens).pending = none) :
    let w := d.walk tokens
    (∀ p, .values p none ∈ w.enumerate false ↔ ∃ hit, w.Offers hit ∧ hit.parameter = p) ∧
      ∀ hit, w.Offers hit → ∀ text quote,
        let word := Token.parse (Literal.write text quote)
        (w.consume word =
            match w.selection? word with
            | none => w
            | some (hit, bound) => w.select hit bound) ∧
          (w.selection? word = some (hit, true) ↔
            w.findPositional = some hit ∧ w.LeavesLiteral text quote) := by
  intro w
  refine ⟨fun p => Walk.values_mem_enumerate free, ?_⟩
  intro hit offers text quote
  exact ⟨Walk.consume_eq_select free _,
    Walk.selection?_literal_iff (walk_clear valid tokens) free offers text quote⟩

def origin : Parameter Source :=
  (Parameter.positional "From").withSource
    { name := "From", provider := .fixed [{ name := "a" }, { name := "-n" }] }

def target : Parameter Source :=
  (Parameter.positional "To").withSource { name := "To", provider := .fixed [{ name := "b" }] }

def copying : Dictionary Source :=
  (((ofCommand "cp").withParameter (Parameter.flag ["--force"] "Force")).withParameter
    origin).withParameter target

def originSlot : Hit Source :=
  { up := 0, index := 1, parameter := origin }

theorem offered_value_taken_iff_copying :
    copying.validate = .ok () ∧ (copying.walk []).pending = none ∧
      (copying.walk []).Offers originSlot ∧
      (copying.walk []).findPositional = some originSlot ∧
      (copying.walk []).LeavesLiteral "-n" .double := by
  have valid : copying.validate = .ok () := by rfl
  have offers : (copying.walk []).Offers originSlot :=
    ⟨rfl, { parameter := originSlot.parameter }, ⟨_, rfl, rfl, rfl⟩, by decide⟩
  obtain ⟨_, each⟩ := offered_value_taken_iff valid [] (by rfl)
  -- in quotes the word is not like a flag
  obtain ⟨found, leaves⟩ := (each originSlot offers "-n" .double).2.mp (by rfl)
  exact ⟨valid, by rfl, offers, found, leaves⟩

/-- The place to copy to is offered at once, but the next word is the place to copy from. -/
theorem offered_value_not_taken :
    ¬ ∀ d : Dictionary Source, d.validate = .ok () → ∀ tokens, (d.walk tokens).pending = none →
      ∀ p, .values p none ∈ (d.walk tokens).enumerate false →
        ∀ source items, p.source? = some source → source.provider = .fixed items →
          ∀ item ∈ items, ∀ quote, ∃ hit bound,
            (d.walk tokens).selection? (Token.parse (Literal.write item.name quote)) =
              some (hit, bound) ∧ hit.parameter = p := by
  intro every
  have offered : (copying.walk []).enumerate false =
      [.key (Parameter.flag ["--force"] "Force"), .values origin none, .values target none] := by
    rfl
  obtain ⟨hit, bound, selected, same⟩ := every copying (by rfl) [] (by rfl) target
    (by simp [offered]) _ _ rfl rfl { name := "b" } (List.mem_singleton_self _) .bare
  have taken : (copying.walk []).selection? (Token.parse (Literal.write "b" .bare)) =
      some (originSlot, true) := by rfl
  rw [taken] at selected
  obtain ⟨rfl, _⟩ := Prod.mk.inj (Option.some.inj selected)
  exact absurd (congrArg Parameter.name same) (by decide)

/-- The slot that the next word binds offers its values, then as the first, exactly where its
parameter is not recursive. -/
theorem bound_positional_offered_iff (d : Dictionary σ) (tokens : List Token)
    (free : (d.walk tokens).pending = none) {hit : Hit σ}
    (found : (d.walk tokens).findPositional = some hit) :
    let w := d.walk tokens
    (w.Offers hit ↔ hit.parameter.recursive = false) ∧
      (.values hit.parameter none ∈ w.enumerate false ↔ hit.parameter.recursive = false) ∧
      (hit.parameter.recursive = false →
        (w.enumerate false).find? Candidate.isValues = some (.values hit.parameter none)) := by
  intro w
  refine ⟨Walk.offers_findPositional found, ?_, Walk.first_of_findPositional free found⟩
  rw [Walk.values_mem_enumerate free]
  constructor
  · rintro ⟨other, offers, same⟩
    exact same ▸ offers.not_recursive
  · intro once
    exact ⟨hit, (Walk.offers_findPositional found).mpr once, rfl⟩

theorem bound_positional_offered_iff_copying :
    (copying.walk []).pending = none ∧ (copying.walk []).findPositional = some originSlot ∧
      .values originSlot.parameter none ∈ (copying.walk []).enumerate false := by
  have found : (copying.walk []).findPositional = some originSlot := by rfl
  obtain ⟨_, offered, _⟩ := bound_positional_offered_iff copying [] (by rfl) found
  exact ⟨by rfl, found, offered.mpr (by rfl)⟩

/-- A command that takes files at every depth. -/
def reading : Dictionary Source :=
  (ofCommand "cat").withParameter <| Parameter.markRecursive <|
    (Parameter.positional "File").withSource
      { name := "Files", provider := .fixed [{ name := "notes" }] }

/-- Its files are taken and never offered. -/
theorem bound_positional_not_offered :
    ¬ ∀ d : Dictionary Source, d.validate = .ok () → ∀ tokens, (d.walk tokens).pending = none →
      ∀ hit, (d.walk tokens).findPositional = some hit →
        ∃ p, .values p none ∈ (d.walk tokens).enumerate false ∧
          p.source? = hit.parameter.source? := by
  intro every
  have valid : reading.validate = .ok () := by rfl
  obtain ⟨p, offered, _⟩ := every reading valid [] (by rfl) _ (by rfl)
  have nothing : (reading.walk []).enumerate false = [] := by rfl
  rw [nothing] at offered
  simp at offered

end Dictionary

end LineCompletion

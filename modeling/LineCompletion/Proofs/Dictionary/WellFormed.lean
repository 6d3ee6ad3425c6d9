import Mathlib.Data.List.Basic
import LineCompletion.Proofs.Dictionary.DistinctKeys

/-! # Well-formed dictionaries

The rules of a dictionary, said of the lists of siblings in its tree. The check passes exactly the
dictionaries that keep them, although it looks at each list with the keys seen so far and stops at
the first thing it does not like. What it reports is a rule that is broken at the place it names.
One of the rules makes a text select at most one of any siblings.
-/

namespace LineCompletion

variable {σ : Type}

structure Parameter.Usable (p : Parameter σ) : Prop where
  named : Text.allBlank p.name = false
  keyed : p.isValue = false → p.keys ≠ []
  filled : ∀ key ∈ p.keys, Text.allBlank key = false

namespace Validation

/-- The lists of siblings at and below a list whose path of names is given, with their paths. -/
inductive Level : List String → List (Parameter σ) → List String → List (Parameter σ) → Prop where
  | top {path : List String} {ps : List (Parameter σ)} : Level path ps path ps
  | under {path inner : List String} {ps qs : List (Parameter σ)} {p : Parameter σ}
      (member : p ∈ ps) (deeper : Level (path ++ [p.name]) p.children inner qs) :
      Level path ps inner qs

/-- The rules that a list of siblings must keep. -/
structure Keeps (ps : List (Parameter σ)) : Prop where
  each : ∀ p ∈ ps, p.Usable
  distinct : DistinctKeys ps

/-- An error and what it finds wrong with the list of siblings of a path. -/
inductive Breaks (path : List String) (ps : List (Parameter σ)) : ConfigurationError → Prop where
  | name {p : Parameter σ} (member : p ∈ ps) (blank : Text.allBlank p.name = true) :
      Breaks path ps (.missingParameterName (scopeText path))
  | keyless {p : Parameter σ} (member : p ∈ ps) (other : p.isValue = false) (none : p.keys = []) :
      Breaks path ps (.missingKeys p.name)
  | blankKey {p : Parameter σ} {key : String} (member : p ∈ ps) (own : key ∈ p.keys)
      (blank : Text.allBlank key = true) : Breaks path ps (.missingKeys p.name)
  | repeated {before after : List String} {key : String}
      (keys : ps.flatMap Parameter.keys = before ++ key :: after)
      (earlier : Text.lower key ∈ before.map Text.lower) :
      Breaks path ps (.duplicateKey (scopeText path) key)

theorem Breaks.not_keeps {path : List String} {ps : List (Parameter σ)} {e : ConfigurationError}
    (broken : Breaks path ps e) : ¬ Keeps ps := by
  intro keeps
  cases broken with
  | name member blank => simp [(keeps.each _ member).named] at blank
  | keyless member other none => exact (keeps.each _ member).keyed other none
  | blankKey member own blank => simp [(keeps.each _ member).filled _ own] at blank
  | repeated keys earlier =>
      have distinct := keeps.distinct
      rw [DistinctKeys, keys, List.map_append, List.map_cons, List.nodup_append] at distinct
      exact distinct.2.2 _ earlier _ List.mem_cons_self rfl

/-! ## One parameter -/

theorem checkParameter_eq_ok_iff {path seen after : List String} {p : Parameter σ} :
    checkParameter path seen p = .ok after ↔
      Text.allBlank p.name = false ∧ (p.isValue = false → p.keys ≠ []) ∧
        addKeys (scopeText path) p.name seen p.keys = .ok after ∧
        ∃ inner, checkParameters (path ++ [p.name]) [] p.children = .ok inner := by
  cases p with
  | node keys name description recursive kind children =>
      have value : (Parameter.node keys name "" false kind []).isValue =
          (Parameter.node keys name description recursive kind children).isValue := rfl
      simp only [checkParameter, value, Parameter.name, Parameter.keys, Parameter.children]
      cases Text.allBlank name with
      | true => simp
      | false =>
          by_cases keyless : keys = [] ∧
              (Parameter.node keys name description recursive kind children).isValue = false
          · rw [if_neg (by simp), if_pos (by simpa using keyless)]
            exact iff_of_false (by simp) fun rules => rules.2.1 keyless.2 keyless.1
          · have keyed : (Parameter.node keys name description recursive kind children).isValue =
                false → keys ≠ [] := fun other none => keyless ⟨none, other⟩
            rw [if_neg (by simp), if_neg (by simpa using keyless)]
            cases addKeys (scopeText path) name seen keys with
            | error e => simp
            | ok added =>
                cases checkParameters (path ++ [name]) [] children with
                | error e => simp
                | ok inner => simpa using fun _ => keyed

/-- Why a parameter is refused: for its name, for want of a key, for one of its keys, or for what is
below it. -/
theorem checkParameter_error {path seen : List String} {p : Parameter σ} {e : ConfigurationError}
    (refused : checkParameter path seen p = .error e) :
    (Text.allBlank p.name = true ∧ e = .missingParameterName (scopeText path)) ∨
      (p.isValue = false ∧ p.keys = [] ∧ e = .missingKeys p.name) ∨
      addKeys (scopeText path) p.name seen p.keys = .error e ∨
      checkParameters (path ++ [p.name]) [] p.children = .error e := by
  cases p with
  | node keys name description recursive kind children =>
      simp only [checkParameter] at refused
      split at refused
      · rename_i blank
        exact .inl ⟨blank, (Except.error.inj refused).symm⟩
      · split at refused
        · rename_i keyless
          obtain ⟨none, other⟩ : keys = [] ∧
              (Parameter.node keys name "" false kind []).isValue = false := by
            simpa using keyless
          exact .inr (.inl ⟨other, none, (Except.error.inj refused).symm⟩)
        · split at refused
          · rename_i wrong
            exact .inr (.inr (.inl (wrong.trans refused)))
          · split at refused
            · rename_i wrong
              exact .inr (.inr (.inr (wrong.trans refused)))
            · simp at refused

theorem addKeys_filled {scope parameter : String} {seen keys after : List String}
    (passed : addKeys scope parameter seen keys = .ok after) :
    ∀ key ∈ keys, Text.allBlank key = false := by
  induction keys generalizing seen with
  | nil => simp
  | cons key rest ih =>
      simp only [addKeys] at passed
      split at passed
      · simp at passed
      · rename_i filled
        split at passed
        · simp at passed
        · intro other member
          rcases List.mem_cons.mp member with rfl | member
          · simpa using filled
          · exact ih passed other member

/-- Why keys are refused: one is blank, or one is in lowercase among those seen or those before
it. -/
theorem addKeys_error {scope parameter : String} {seen keys : List String} {e : ConfigurationError}
    (refused : addKeys scope parameter seen keys = .error e) :
    (∃ key ∈ keys, Text.allBlank key = true ∧ e = .missingKeys parameter) ∨
      ∃ before key after, keys = before ++ key :: after ∧
        (Text.lower key ∈ seen ∨ Text.lower key ∈ before.map Text.lower) ∧
        e = .duplicateKey scope key := by
  induction keys generalizing seen with
  | nil => simp [addKeys] at refused
  | cons key rest ih =>
      simp only [addKeys] at refused
      split at refused
      · rename_i blank
        exact .inl ⟨key, List.mem_cons_self, blank, (Except.error.inj refused).symm⟩
      · split at refused
        · rename_i old
          refine .inr ⟨[], key, rest, rfl, .inl (by simpa using old), ?_⟩
          exact (Except.error.inj refused).symm
        · rcases ih refused with
            ⟨other, member, blank, same⟩ | ⟨before, other, after, rfl, old, same⟩
          · exact .inl ⟨other, List.mem_cons_of_mem _ member, blank, same⟩
          · refine .inr ⟨key :: before, other, after, rfl, ?_, same⟩
            rcases old with old | old
            · rcases List.mem_cons.mp old with here | old
              · exact .inr (by simp [here])
              · exact .inl old
            · exact .inr (List.mem_cons_of_mem _ old)

/-! ## A list of siblings -/

theorem checkParameters_mem {path seen after : List String} {ps : List (Parameter σ)}
    (passed : checkParameters path seen ps = .ok after) {p : Parameter σ} (member : p ∈ ps) :
    ∃ before behind, checkParameter path before p = .ok behind := by
  induction ps generalizing seen with
  | nil => simp at member
  | cons first rest ih =>
      simp only [checkParameters] at passed
      split at passed
      · simp at passed
      · rename_i middle one
        rcases List.mem_cons.mp member with rfl | member
        · exact ⟨seen, middle, one⟩
        · exact ih passed member

theorem checkParameters_error {path seen : List String} {ps : List (Parameter σ)}
    {e : ConfigurationError} (refused : checkParameters path seen ps = .error e) :
    ∃ before p after middle, ps = before ++ p :: after ∧
      checkParameters path seen before = .ok middle ∧ checkParameter path middle p = .error e := by
  induction ps generalizing seen with
  | nil => simp [checkParameters] at refused
  | cons first rest ih =>
      cases one : checkParameter path seen first with
      | error cause =>
          refine ⟨[], first, rest, seen, rfl, rfl, ?_⟩
          simpa [checkParameters, one] using refused
      | ok middle =>
          simp only [checkParameters, one] at refused
          obtain ⟨before, p, after, last, rfl, earlier, wrong⟩ := ih refused
          refine ⟨first :: before, p, after, last, rfl, ?_, wrong⟩
          simpa [checkParameters, one] using earlier

theorem Level.checked {path inner : List String} {ps qs : List (Parameter σ)}
    (level : Level path ps inner qs) (passed : ∃ after, checkParameters path [] ps = .ok after) :
    ∃ after, checkParameters inner [] qs = .ok after := by
  induction level with
  | top => exact passed
  | under member deeper ih =>
      obtain ⟨after, passed⟩ := passed
      obtain ⟨before, behind, one⟩ := checkParameters_mem passed member
      exact ih (checkParameter_eq_ok_iff.mp one).2.2.2

theorem keeps_of_checked {path after : List String} {ps : List (Parameter σ)}
    (passed : checkParameters path [] ps = .ok after) : Keeps ps where
  each p member := by
    obtain ⟨before, behind, one⟩ := checkParameters_mem passed member
    obtain ⟨named, keyed, added, -⟩ := checkParameter_eq_ok_iff.mp one
    exact ⟨named, keyed, addKeys_filled added⟩
  distinct := (checkParameters_checked passed).distinct

/-- A list that is refused breaks a rule itself, or a list below it does. -/
theorem breaks_of_refused {path : List String} {ps : List (Parameter σ)} {e : ConfigurationError}
    (refused : checkParameters path [] ps = .error e) :
    ∃ inner qs, Level path ps inner qs ∧ Breaks inner qs e := by
  obtain ⟨before, p, after, middle, whole, earlier, wrong⟩ := checkParameters_error refused
  have member : p ∈ ps := by simp [whole]
  have seen : middle = ((before.flatMap Parameter.keys).map Text.lower).reverse := by
    simpa using (checkParameters_checked earlier).added
  rcases checkParameter_error wrong with
    ⟨blank, rfl⟩ | ⟨other, none, rfl⟩ | keys | children
  · exact ⟨path, ps, .top, .name member blank⟩
  · exact ⟨path, ps, .top, .keyless member other none⟩
  · rcases addKeys_error keys with ⟨key, own, blank, rfl⟩ | ⟨front, key, back, own, old, rfl⟩
    · exact ⟨path, ps, .top, .blankKey member own blank⟩
    · have keys : ps.flatMap Parameter.keys = (before.flatMap Parameter.keys ++ front) ++
          key :: (back ++ after.flatMap Parameter.keys) := by
        simp [whole, own]
      refine ⟨path, ps, .top, .repeated keys ?_⟩
      rw [List.map_append, List.mem_append]
      rcases old with old | old
      · exact .inl (by simpa [seen] using old)
      · exact .inr old
  · obtain ⟨inner, qs, level, broken⟩ := breaks_of_refused children
    exact ⟨inner, qs, .under member level, broken⟩
termination_by sizeOf ps
decreasing_by
  have inside := List.sizeOf_lt_of_mem member
  have below : sizeOf p.children < sizeOf p := by
    cases p
    simp [Parameter.children]
  omega

end Validation

namespace Dictionary

open Validation

structure WellFormed (d : Dictionary σ) : Prop where
  command : ∃ key ∈ d.keys, Text.allBlank key = false
  platforms : d.platforms ≠ .empty
  name : Text.allBlank d.name = false
  parameters : d.parameters ≠ []
  levels : ∀ path ps, Level [d.name] d.parameters path ps → Keeps ps

/-- An error for a part of the dictionary that is missing. -/
inductive Lacks (d : Dictionary σ) : ConfigurationError → Prop where
  | command (blank : ∀ key ∈ d.keys, Text.allBlank key = true) : Lacks d (.missingField .keys)
  | platforms (none : d.platforms = .empty) : Lacks d (.missingField .platforms)
  | name (blank : Text.allBlank d.name = true) : Lacks d (.missingField .name)
  | parameters (none : d.parameters = []) : Lacks d (.missingField .parameters)

theorem Lacks.not_wellFormed {d : Dictionary σ} {e : ConfigurationError} (lacks : d.Lacks e) :
    ¬ d.WellFormed := by
  intro formed
  cases lacks with
  | command blank =>
      obtain ⟨key, member, filled⟩ := formed.command
      simp [blank key member] at filled
  | platforms none => exact formed.platforms none
  | name blank => simp [formed.name] at blank
  | parameters none => exact formed.parameters none

end Dictionary

theorem Platforms.isEmpty_iff {p : Platforms} : p.isEmpty = true ↔ p = .empty := by
  cases p
  simp [isEmpty, empty, and_assoc]

namespace Dictionary

open Validation

/-- The check refuses a dictionary that lacks a part, and any other where its parameters are
refused. -/
theorem validate_cases (d : Dictionary σ) :
    (∃ e, d.Lacks e ∧ d.validate = .error e) ∨
      ((∃ key ∈ d.keys, Text.allBlank key = false) ∧ d.platforms ≠ .empty ∧
        Text.allBlank d.name = false ∧ d.parameters ≠ [] ∧
        d.validate = (checkParameters [d.name] [] d.parameters).map fun _ => ()) := by
  cases command : d.keys.all Text.allBlank with
  | true =>
      exact .inl ⟨_, .command (by simpa using command), by simp [validate, command]⟩
  | false =>
      cases platforms : d.platforms.isEmpty with
      | true =>
          refine .inl ⟨_, .platforms (Platforms.isEmpty_iff.mp platforms), ?_⟩
          simp [validate, command, platforms]
      | false =>
          cases name : Text.allBlank d.name with
          | true => exact .inl ⟨_, .name name, by simp [validate, command, platforms, name]⟩
          | false =>
              cases parameters : d.parameters.isEmpty with
              | true =>
                  refine .inl ⟨_, .parameters (by simpa using parameters), ?_⟩
                  simp [validate, command, platforms, name, parameters]
              | false =>
                  refine .inr ⟨by simpa using command, ?_, rfl, by simpa using parameters, ?_⟩
                  · intro none
                    simp [Platforms.isEmpty_iff.mpr none] at platforms
                  · simp only [validate, command, platforms, name, parameters]
                    cases checkParameters [d.name] [] d.parameters <;> rfl

theorem validate_error {d : Dictionary σ} {e : ConfigurationError}
    (refused : d.validate = .error e) :
    d.Lacks e ∨ ∃ path ps, Level [d.name] d.parameters path ps ∧ Breaks path ps e := by
  rcases validate_cases d with ⟨cause, lacks, same⟩ | ⟨-, -, -, -, same⟩
  · obtain rfl := Except.error.inj (same.symm.trans refused)
    exact .inl lacks
  · rw [same] at refused
    cases wrong : checkParameters [d.name] [] d.parameters with
    | ok after => simp [wrong, Except.map] at refused
    | error cause =>
        obtain rfl : cause = e := by simpa [wrong, Except.map] using refused
        exact .inr (breaks_of_refused wrong)

theorem wellFormed_of_validate {d : Dictionary σ} (valid : d.validate = .ok ()) : d.WellFormed := by
  rcases validate_cases d with ⟨cause, -, same⟩ | ⟨command, platforms, name, parameters, same⟩
  · simp [same] at valid
  · refine ⟨command, platforms, name, parameters, fun path ps level => ?_⟩
    have passed : ∃ after, checkParameters [d.name] [] d.parameters = .ok after := by
      rw [same] at valid
      cases checked : checkParameters [d.name] [] d.parameters with
      | ok after => exact ⟨after, rfl⟩
      | error cause => simp [checked, Except.map] at valid
    obtain ⟨after, passed⟩ := level.checked passed
    exact keeps_of_checked passed

/-- The check passes the dictionaries that keep every rule and no others, and an error is about a
part that is missing or about a rule broken in the scope, or by the parameter, that it names. -/
theorem valid_iff_wellFormed (d : Dictionary σ) :
    (d.validate = .ok () ↔ d.WellFormed) ∧
      ∀ e, d.validate = .error e →
        d.Lacks e ∨ ∃ path ps, Level [d.name] d.parameters path ps ∧ Breaks path ps e := by
  refine ⟨⟨wellFormed_of_validate, ?_⟩, fun e => validate_error⟩
  intro formed
  cases checked : d.validate with
  | ok => rfl
  | error e =>
      rcases validate_error checked with lacks | ⟨path, ps, level, broken⟩
      · exact absurd formed lacks.not_wellFormed
      · exact absurd (formed.levels path ps level) broken.not_keeps

/-- A command whose subcommand has two parameters with one key, in different letters. -/
def withRepeatedKey : Dictionary Unit :=
  (ofCommand "git").withParameter <|
    .node ["commit"] "commit" "" false .command
      [.flag ["--verbose", "-v"] "Verbose", .value ["-V"] "Version"]

theorem valid_iff_wellFormed_repeatedKey :
    withRepeatedKey.validate = .error (.duplicateKey "git commit" "-V") ∧
      (withRepeatedKey.Lacks (.duplicateKey "git commit" "-V") ∨
        ∃ path ps, Level [withRepeatedKey.name] withRepeatedKey.parameters path ps ∧
          Breaks path ps (.duplicateKey "git commit" "-V")) := by
  have refused : withRepeatedKey.validate = .error (.duplicateKey "git commit" "-V") := by rfl
  exact ⟨refused, (valid_iff_wellFormed withRepeatedKey).2 _ refused⟩

/-- In a dictionary that passes the check, whatever list of siblings in its tree, a text selects at
most one of them, and by at most one of its keys. -/
theorem key_selects_once {d : Dictionary σ} (valid : d.validate = .ok ()) {path : List String}
    {ps : List (Parameter σ)} (siblings : Level [d.name] d.parameters path ps) (text : String) :
    ps.countP (·.matchesKey text) ≤ 1 ∧
      ∀ p ∈ ps, p.keys.countP (Text.equalAsciiCase · text) ≤ 1 := by
  have formed := wellFormed_of_validate valid
  have once := (formed.levels path ps siblings).distinct.countP_le_one text
  constructor
  · exact (countP_matchesKey_le ps text).trans once
  · intro p member
    have part : p.keys.Sublist (ps.flatMap Parameter.keys) :=
      List.sublist_flatten_of_mem (List.mem_map_of_mem member)
    exact part.countP_le.trans once

/-- Keys that end in a capital sigma and in a small one, which are not equal in lowercase. -/
def sigmaFlags : List (Parameter Unit) :=
  [.flag ["--xΣ", "--sum"] "Sum", .flag ["--xσ"] "Sigma"]

def withSigmaFlags : Dictionary Unit :=
  (ofCommand "tool").withParameter (.node ["show"] "show" "" false .command sigmaFlags)

theorem key_selects_once_sigma :
    withSigmaFlags.validate = .ok () ∧
      Level [withSigmaFlags.name] withSigmaFlags.parameters ["tool", "show"] sigmaFlags ∧
      (∃ p ∈ sigmaFlags, p.matchesKey "--XΣ" = true) ∧
      sigmaFlags.countP (·.matchesKey "--XΣ") ≤ 1 ∧
      ∀ p ∈ sigmaFlags, p.keys.countP (Text.equalAsciiCase · "--XΣ") ≤ 1 := by
  have valid : withSigmaFlags.validate = .ok () := by rfl
  have siblings :
      Level [withSigmaFlags.name] withSigmaFlags.parameters ["tool", "show"] sigmaFlags :=
    .under (p := .node ["show"] "show" "" false .command sigmaFlags) (.head _) .top
  exact ⟨valid, siblings, ⟨_, .head _, by rfl⟩, key_selects_once valid siblings "--XΣ"⟩

end Dictionary

end LineCompletion

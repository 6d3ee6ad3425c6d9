import Mathlib.Data.List.Basic
import LineCompletion.Dictionary.Validation
import LineCompletion.Proofs.Text.AsciiCase

/-! # Keys of a checked dictionary

The check compares lowercase keys with those seen before in the same scope. So in a dictionary that
passes it a text selects at most one parameter of any list of siblings.
-/

namespace LineCompletion

variable {σ : Type}

namespace Validation

/-- No two keys of the parameters have the same lowercase form. -/
def DistinctKeys (ps : List (Parameter σ)) : Prop :=
  ((ps.flatMap Parameter.keys).map Text.lower).Nodup

/-- Distinct keys among the parameters, and among the children of each parameter below them. -/
structure Unambiguous (ps : List (Parameter σ)) : Prop where
  here : DistinctKeys ps
  below : ∀ p ∈ Parameter.preorderOfList ps, DistinctKeys p.children

/-- What a check that succeeds has found: it adds the lowercase keys, none of them twice, and has
checked the children of each parameter it went through. -/
structure Checked (keys : List String) (visited : List (Parameter σ)) (seen after : List String) :
    Prop where
  added : after = (keys.map Text.lower).reverse ++ seen
  fresh : seen.Nodup → after.Nodup
  below : ∀ p ∈ visited, DistinctKeys p.children

theorem addKeys_checked {scope parameter : String} {seen keys after : List String}
    (passed : addKeys scope parameter seen keys = .ok after) :
    Checked keys ([] : List (Parameter σ)) seen after := by
  induction keys generalizing seen with
  | nil =>
      obtain rfl : seen = after := by simpa [addKeys] using passed
      exact ⟨rfl, id, by simp⟩
  | cons key rest ih =>
      simp only [addKeys] at passed
      split at passed
      · simp at passed
      · split at passed
        · simp at passed
        · rename_i new
          obtain ⟨added, fresh, _⟩ := ih passed
          refine ⟨by simpa using added, fun distinct => fresh ?_, by simp⟩
          exact List.nodup_cons.mpr ⟨by simpa using new, distinct⟩

theorem Checked.trans {keys more : List String} {visited others : List (Parameter σ)}
    {seen middle after : List String} (first : Checked keys visited seen middle)
    (second : Checked more others middle after) :
    Checked (keys ++ more) (visited ++ others) seen after := by
  refine ⟨?_, fun distinct => second.fresh (first.fresh distinct), ?_⟩
  · rw [second.added, first.added]
    simp
  · intro p member
    rcases List.mem_append.mp member with member | member
    · exact first.below p member
    · exact second.below p member

theorem Checked.distinct {ps : List (Parameter σ)} {visited : List (Parameter σ)}
    {after : List String} (checked : Checked (ps.flatMap Parameter.keys) visited [] after) :
    DistinctKeys ps := by
  have fresh := checked.fresh List.nodup_nil
  rw [checked.added, List.append_nil, List.nodup_reverse] at fresh
  exact fresh

mutual
theorem checkParameter_checked {path seen after : List String} {p : Parameter σ}
    (passed : checkParameter path seen p = .ok after) :
    Checked p.keys p.preorder seen after := by
  cases p with
  | node keys name description recursive kind children =>
      simp only [checkParameter] at passed
      split at passed
      · simp at passed
      · split at passed
        · simp at passed
        · split at passed
          · simp at passed
          · rename_i middle added
            split at passed
            · simp at passed
            · rename_i inner walked
              obtain rfl : middle = after := by simpa using passed
              have own : Checked keys ([] : List (Parameter σ)) seen middle := addKeys_checked added
              have under := checkParameters_checked walked
              refine ⟨own.added, own.fresh, ?_⟩
              rintro q (_ | ⟨_, member⟩)
              · exact under.distinct
              · exact under.below q member
termination_by sizeOf p

theorem checkParameters_checked {path seen after : List String} {ps : List (Parameter σ)}
    (passed : checkParameters path seen ps = .ok after) :
    Checked (ps.flatMap Parameter.keys) (Parameter.preorderOfList ps) seen after := by
  cases ps with
  | nil =>
      obtain rfl : seen = after := by simpa [checkParameters] using passed
      exact ⟨rfl, id, by simp [Parameter.preorderOfList]⟩
  | cons p rest =>
      simp only [checkParameters] at passed
      split at passed
      · simp at passed
      · rename_i middle first
        exact (checkParameter_checked first).trans (checkParameters_checked passed)
termination_by sizeOf ps
end

theorem unambiguous_of_validate {d : Dictionary σ} (valid : d.validate = .ok ()) :
    Unambiguous d.parameters := by
  unfold Dictionary.validate at valid
  split at valid
  · simp at valid
  · split at valid
    · simp at valid
    · split at valid
      · simp at valid
      · split at valid
        · simp at valid
        · split at valid
          · simp at valid
          · rename_i after walked
            have checked := checkParameters_checked walked
            exact ⟨checked.distinct, checked.below⟩

end Validation

namespace Parameter

theorem preorder_eq_cons (p : Parameter σ) : p.preorder = p :: preorderOfList p.children := by
  cases p
  rfl

theorem preorder_subset {p : Parameter σ} {ps : List (Parameter σ)} (member : p ∈ ps) :
    p.preorder ⊆ preorderOfList ps := by
  induction ps with
  | nil => simp at member
  | cons first rest ih =>
      rcases List.mem_cons.mp member with rfl | member
      · exact List.subset_append_left _ _
      · exact List.subset_append_of_subset_right _ (ih member)

end Parameter

namespace Validation

theorem Unambiguous.children {ps : List (Parameter σ)} (clear : Unambiguous ps) {p : Parameter σ}
    (member : p ∈ ps) : Unambiguous p.children := by
  have tree := Parameter.preorder_subset member
  rw [Parameter.preorder_eq_cons] at tree
  exact ⟨clear.below p (tree (by simp)),
    fun q inside => clear.below q (tree (List.mem_cons_of_mem p inside))⟩

theorem DistinctKeys.countP_le_one {ps : List (Parameter σ)} (distinct : DistinctKeys ps)
    (text : String) :
    (ps.flatMap Parameter.keys).countP (Text.equalAsciiCase · text) ≤ 1 := by
  -- keys that equal the text all have its lowercase form, a final sigma included
  have lowered : ∀ key ∈ ps.flatMap Parameter.keys,
      Text.equalAsciiCase key text = true → (Text.lower key == Text.lower text) = true := by
    intro key _ equal
    rw [beq_iff_eq]
    exact Text.lower_eq_of_equalAsciiCase equal
  calc (ps.flatMap Parameter.keys).countP (Text.equalAsciiCase · text)
      ≤ (ps.flatMap Parameter.keys).countP (fun key => Text.lower key == Text.lower text) :=
        List.countP_mono_left lowered
    _ = ((ps.flatMap Parameter.keys).map Text.lower).count (Text.lower text) := by
        rw [List.count, List.countP_map]
        rfl
    _ ≤ 1 := List.nodup_iff_count.mp distinct _

theorem countP_matchesKey_le (ps : List (Parameter σ)) (text : String) :
    ps.countP (·.matchesKey text) ≤
      (ps.flatMap Parameter.keys).countP (Text.equalAsciiCase · text) := by
  induction ps with
  | nil => simp
  | cons p rest ih =>
      rw [List.countP_cons, List.flatMap_cons, List.countP_append]
      split
      · rename_i selects
        have own : 0 < p.keys.countP (Text.equalAsciiCase · text) :=
          List.countP_pos_iff.mpr (List.any_eq_true.mp selects)
        omega
      · omega

theorem matchesKey_lower {p : Parameter σ} {text : String} (selects : p.matchesKey text = true) :
    ∃ key ∈ p.keys, Text.equalAsciiCase key text = true :=
  List.any_eq_true.mp selects

theorem DistinctKeys.pairwise {ps : List (Parameter σ)} (distinct : DistinctKeys ps)
    (text : String) :
    ps.Pairwise fun p q => ¬ (p.matchesKey text = true ∧ q.matchesKey text = true) := by
  rw [DistinctKeys, List.map_flatMap, List.nodup_flatMap] at distinct
  refine distinct.2.imp fun {p q} apart both => ?_
  obtain ⟨left, leftMember, leftEqual⟩ := matchesKey_lower both.1
  obtain ⟨right, rightMember, rightEqual⟩ := matchesKey_lower both.2
  have same : Text.lower left = Text.lower right :=
    Text.lower_eq_of_equalAsciiCase (Text.equalAsciiCase_trans leftEqual rightEqual)
  exact apart (List.mem_map_of_mem leftMember) (same ▸ List.mem_map_of_mem rightMember)

end Validation

end LineCompletion

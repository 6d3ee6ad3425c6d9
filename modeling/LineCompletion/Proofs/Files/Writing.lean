import LineCompletion.Files.Basic

/-! # Reading files that were written

A file is written at a place that is no directory, so no path leads through it, and every path that
led to the place still does.
-/

namespace LineCompletion.Files

variable {fs : Files} {place target : List String} {entry : FileEntry}

theorem lookup_cons_eq (place other : List String) (entry : FileEntry)
    (entries : List (List String × FileEntry)) :
    ((place, entry) :: entries).lookup other =
      if other = place then some entry else entries.lookup other := by
  rw [List.lookup_cons]
  by_cases same : other = place
  · simp [same]
  · have apart : (other == place) = false := beq_eq_false_iff_ne.mpr same
    rw [apart, if_neg same]

theorem lookup_drop_append (place : List String) (entry : FileEntry) (other : List String)
    (entries : List (List String × FileEntry)) :
    (drop place entries ++ [(place, entry)]).lookup other =
      if other = place then some entry else entries.lookup other := by
  induction entries with
  | nil =>
      change List.lookup other [(place, entry)] = _
      rw [lookup_cons_eq]
  | cons first rest ih =>
      obtain ⟨name, content⟩ := first
      by_cases gone : name = place
      · subst gone
        have dropped : drop name ((name, content) :: rest) = drop name rest := by simp [drop]
        rw [dropped, ih, lookup_cons_eq]
        by_cases same : other = name <;> simp [same]
      · have kept : drop place ((name, content) :: rest) = (name, content) :: drop place rest :=
          List.filter_cons_of_pos (bne_iff_ne.mpr gone)
        rw [kept, List.cons_append, lookup_cons_eq, lookup_cons_eq, ih]
        by_cases same : other = name
        · simp [same, gone]
        · simp [same]

theorem at?_put (below : place ≠ []) (other : List String) :
    (fs.put place entry).at? other = if other = place then some entry else fs.at? other := by
  unfold at? put
  rw [lookup_drop_append]
  by_cases root : other = []
  · simp [root, below.symm]
  · simp [root]

theorem walk_put (below : place ≠ []) (apart : fs.at? place ≠ some .directory) {names : List String}
    {start : List String} (leads : fs.walk start names = .ok target) :
    (fs.put place entry).walk start names = .ok target := by
  induction names generalizing start with
  | nil => exact leads
  | cons name rest ih =>
      cases stands : fs.at? start with
      | none => simp [walk, stands] at leads
      | some found =>
          cases found with
          | file content => simp [walk, stands] at leads
          | directory =>
              have elsewhere : start ≠ place := fun same => apart (same ▸ stands)
              have kept : (fs.put place entry).at? start = some .directory := by
                rw [at?_put below, if_neg elsewhere, stands]
              simp only [walk, stands, kept] at leads ⊢
              split
              · simp_all
              · split <;> simp_all

theorem locate_put (below : place ≠ []) (apart : fs.at? place ≠ some .directory) {path : String}
    (leads : fs.locate path = .ok target) (entry : FileEntry) :
    (fs.put place entry).locate path = .ok target := by
  unfold locate at leads ⊢
  split at leads
  · simp at leads
  · split at leads
    · simp at leads
    · rename_i filled whole
      rw [if_neg filled, if_neg whole]
      exact walk_put below apart leads

/-- A path leads to a place at which a file can be written. -/
structure Writable (fs : Files) (path : String) (place : List String) : Prop where
  leads : fs.locate path = .ok place
  apart : fs.at? place ≠ some .directory
  file : Path.namesDirectory path = false
  write : ∀ content, fs.write path content = .ok (fs.put place (.file content))

/-- What is written plays no part in whether it can be written. -/
theorem writable_of_write {path : String} {content : List UInt8} {written : Files}
    (writes : fs.write path content = .ok written) :
    ∃ place, fs.Writable path place ∧ written = fs.put place (.file content) := by
  unfold write at writes
  cases leads : fs.locate path with
  | error e => simp [leads] at writes
  | ok place =>
      simp only [leads] at writes
      split at writes
      · simp at writes
      · rename_i before stands
        split at writes
        · simp at writes
        · rename_i file
          refine ⟨place, ⟨leads, by simp [stands], by simpa using file, fun other => ?_⟩,
            by simpa using writes.symm⟩
          simp only [write, leads, stands, file, Bool.false_eq_true, if_false]
      · rename_i stands
        split at writes
        · simp at writes
        · simp at writes
        · rename_i above
          split at writes
          · simp at writes
          · rename_i file
            refine ⟨place, ⟨leads, by simp [stands], by simpa using file, fun other => ?_⟩,
              by simpa using writes.symm⟩
            simp only [write, leads, stands, above, file, Bool.false_eq_true, if_false]

namespace Writable

variable {path : String}

theorem below (writable : fs.Writable path place) : place ≠ [] := by
  rintro rfl
  exact writable.apart rfl

theorem read (writable : fs.Writable path place) (content : List UInt8) :
    (fs.put place (.file content)).read path = .ok content := by
  have leads := locate_put writable.below writable.apart writable.leads (.file content)
  have stands : (fs.put place (.file content)).at? place = some (.file content) := by
    rw [at?_put writable.below, if_pos rfl]
  simp only [Files.read, find, leads, stands, writable.file, Bool.false_eq_true, if_false]

end Writable

end LineCompletion.Files

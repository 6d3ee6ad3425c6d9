import Mathlib.Data.List.Induction
import LineCompletion.Proofs.Source.Freshness
import LineCompletion.Proofs.Source.Refreshing

/-! # Refreshing sources that share caches

Sources are refreshed one after the other for one directory, while the time stands still and nobody
else writes to their caches. A refresh renews what is cached for its source, and for every other
source that has its values in the same scope of the same cache. What was renewed is as old as the
clock, so it is due again only where values have no time to live.
-/

namespace LineCompletion

namespace LiveSource

variable {s x : LiveSource} {caches last start : Caches} {clock : Clock}
  {directory : Option String} {context : ContextId}

/-! ## What is read of a cache -/

theorem cached?_congr (same : (last.get s.cell).snapshot = (caches.get s.cell).snapshot)
    (directory : Option String) :
    s.cached? last directory = s.cached? caches directory := by
  unfold cached? Cache.get?
  rw [same]

/-- What a refresh publishes is what is cached from then on for the sources that have its cache in
its scope, and for no other. -/
theorem cached?_publish {r : Refresh} (begun : s.startRefresh caches directory = .running r)
    (items : List Item) (now : Moment) (x : LiveSource) :
    x.cached? (r.publish caches items now) directory =
      if x.cell = s.cell ∧ x.policy.scope? directory = s.policy.scope? directory then
        some ⟨items, now, r.generation + 1⟩
      else x.cached? caches directory := by
  obtain ⟨command, bound, scope, -, -, belongs, rfl⟩ := startRefresh_eq_running_iff.mp begun
  have alone : (caches.get s.cell).made [] = 0 := rfl
  have published := Cache.publishes_of_made_eq_zero alone scope items now
  unfold cached? Refresh.publish
  cases own : x.policy.scope? directory with
  | none => simp [belongs]
  | some other =>
      rw [Option.bind_some, Option.bind_some, Caches.get_modify, belongs]
      by_cases here : x.cell = s.cell
      · rw [if_pos here]
        refine (published.entries other).trans ?_
        simp [here, Cache.changeAll, Cache.generation]
      · simp [here]

/-- Copies of a source that kept its policy are due at the same time. -/
theorem needsRefresh_copy (cell : x.cell = s.cell) (policy : x.policy = s.policy)
    (context : x.context = s.context) (dynamic : x.isDynamic = s.isDynamic) :
    x.needsRefresh caches clock directory = s.needsRefresh caches clock directory := by
  unfold needsRefresh cached? isExpired
  rw [cell, policy, context, dynamic]

theorem due_of_renewed {entry : Entry} (bound : s.context = some context)
    (cached : s.cached? caches directory = some entry) (now : entry.computedAt = clock context)
    (due : s.needsRefresh caches clock directory = true) :
    s.policy.isEnabled = false ∨ s.policy.ttlSeconds = some 0 := by
  obtain ⟨-, -, expired⟩ := needsRefresh_iff.mp due
  cases enabled : s.policy.isEnabled with
  | false => exact .inl rfl
  | true => exact .inr ((isExpired_now_iff bound now).mp (expired entry cached enabled))

theorem needsRefresh_publish {r : Refresh} (begun : s.startRefresh caches directory = .running r)
    (items : List Item) (bound : x.context = some context) (enabled : x.policy.isEnabled = true)
    (lasting : x.policy.ttlSeconds ≠ some 0)
    (fresh : x = s ∨ x.needsRefresh caches clock directory = false) :
    x.needsRefresh (r.publish caches items (clock context)) clock directory = false := by
  have cached := cached?_publish begun items (clock context) x
  refine Bool.eq_false_iff.mpr fun due => ?_
  split at cached
  · simpa [enabled, lasting] using due_of_renewed bound cached rfl due
  · rename_i apart
    obtain rfl | fresh := fresh
    · exact apart ⟨rfl, rfl⟩
    · rw [needsRefresh_congr bound cached rfl, fresh] at due
      cases due

/-! ## One refresh after the other -/

/-- The one way for a source that was not due to become so without time passing: its values have no
time to live, what it had was dated after now, and a source refreshed before it, which was due, has
the same cache under another policy. -/
structure ComesDue (s : LiveSource) (start : Caches) (clock : Clock) (directory : Option String)
    (before : List LiveSource) : Prop where
  timeless : s.policy.ttlSeconds = some 0
  ahead : ∃ context entry, s.context = some context ∧
    s.cached? start directory = some entry ∧ 0 < entry.computedAt.since (clock context)
  shared : ∃ x ∈ before, x.cell = s.cell ∧ x.policy ≠ s.policy ∧
    x.policy.scope? directory = s.policy.scope? directory ∧
    x.needsRefresh start clock directory = true

/-- What is cached for some sources after some of them were refreshed: what it was at the start, or
what one of those brought that were due then. -/
structure Renewed (sources : List LiveSource) (start : Caches) (context : ContextId) (clock : Clock)
    (directory : Option String) (refreshed : List LiveSource) (caches : Caches) : Prop where
  /-- Each was due at the start or came to be so. -/
  owed : ∀ before s later, refreshed = before ++ s :: later →
    s.needsRefresh start clock directory = true ∨ s.ComesDue start clock directory before
  entries : ∀ s ∈ sources, s.cached? caches directory = s.cached? start directory ∨
    ∃ entry, s.cached? caches directory = some entry ∧ entry.computedAt = clock context ∧
      ∃ x ∈ refreshed, x.cell = s.cell ∧
        x.policy.scope? directory = s.policy.scope? directory ∧
        x.needsRefresh start clock directory = true

namespace Renewed

variable {sources refreshed : List LiveSource}

theorem refl (sources : List LiveSource) (caches : Caches) (context : ContextId) (clock : Clock)
    (directory : Option String) : Renewed sources caches context clock directory [] caches :=
  ⟨by simp, fun _ _ => .inl rfl⟩

theorem congr (renewed : Renewed sources start context clock directory refreshed caches)
    (same : ∀ s ∈ sources, (last.get s.cell).snapshot = (caches.get s.cell).snapshot) :
    Renewed sources start context clock directory refreshed last := by
  refine ⟨renewed.owed, fun s listed => ?_⟩
  rw [cached?_congr (same s listed) directory]
  exact renewed.entries s listed

/-- A source that is due after others were refreshed was due at the start or came to be so. -/
theorem owed_of_due (renewed : Renewed sources start context clock directory refreshed caches)
    (bound : ∀ s ∈ sources, s.context = some context) (own : ∀ x ∈ refreshed, x ∈ sources)
    (listed : s ∈ sources) (due : s.needsRefresh caches clock directory = true) :
    s.needsRefresh start clock directory = true ∨
      s.ComesDue start clock directory refreshed := by
  obtain ⟨dynamic, inScope, -⟩ := needsRefresh_iff.mp due
  obtain same | ⟨entry, cached, now, x, member, cell, scope, was⟩ := renewed.entries s listed
  · left
    rwa [← needsRefresh_congr (bound s listed) same rfl]
  · refine or_iff_not_imp_left.mpr fun notDue => ?_
    -- it is due for what was renewed, so only the date of what it had kept it from being due before
    obtain ⟨first, found, enabled, fresh⟩ : ∃ first, s.cached? start directory = some first ∧
        s.policy.isEnabled = true ∧ s.isExpired clock first = false := by
      simpa [needsRefresh_iff, dynamic, inScope] using notDue
    have timeless : s.policy.ttlSeconds = some 0 := by
      simpa [enabled] using due_of_renewed (bound s listed) cached now due
    refine ⟨timeless, ⟨context, first, bound s listed, found, ?_⟩, x, member, cell, ?_, scope, was⟩
    · by_contra late
      have past : first.computedAt.nanoseconds + (0 : UInt64).toNat * 1000000000 ≤
          (clock context).nanoseconds := by
        rw [Moment.since] at late
        rw [UInt64.toNat_zero]
        omega
      have expired : s.isExpired clock first = true :=
        isExpired_iff.mpr ⟨0, context, timeless, bound s listed, past⟩
      simp [fresh] at expired
    · intro policy
      have copy : x.context = s.context := (bound x (own x member)).trans (bound s listed).symm
      refine notDue ((needsRefresh_copy cell policy copy ?_).symm.trans was)
      rw [dynamic, (needsRefresh_iff.mp was).1]

/-- One more source is refreshed. -/
theorem publish {r : Refresh}
    (renewed : Renewed sources start context clock directory refreshed caches)
    (bound : ∀ s ∈ sources, s.context = some context) (own : ∀ x ∈ refreshed, x ∈ sources)
    (listed : s ∈ sources) (due : s.needsRefresh caches clock directory = true)
    (begun : s.startRefresh caches directory = .running r) (items : List Item) :
    Renewed sources start context clock directory (refreshed ++ [s])
      (r.publish caches items (clock context)) := by
  have owed := renewed.owed_of_due bound own listed due
  refine ⟨fun before y later split => ?_, fun y member => ?_⟩
  · cases later using List.reverseRecOn with
    | nil =>
        obtain ⟨rfl, same⟩ := List.append_inj' split rfl
        obtain rfl := List.head_eq_of_cons_eq same
        exact owed
    | append_singleton later last =>
        rw [← List.cons_append, ← List.append_assoc] at split
        exact renewed.owed before y later (List.append_inj' split rfl).1
  · rw [cached?_publish begun items (clock context) y]
    split
    · rename_i here
      refine .inr ⟨_, rfl, rfl, ?_⟩
      obtain due | comes := owed
      · exact ⟨s, by simp, here.1.symm, here.2.symm, due⟩
      · obtain ⟨x, earlier, cell, -, scope, was⟩ := comes.shared
        exact ⟨x, by simp [earlier], cell.trans here.1.symm, scope.trans here.2.symm, was⟩
    · obtain same | ⟨entry, cached, now, x, earlier, rest⟩ := renewed.entries y member
      · exact .inl same
      · exact .inr ⟨entry, cached, now, x, by simp [earlier], rest⟩

end Renewed

end LiveSource

end LineCompletion

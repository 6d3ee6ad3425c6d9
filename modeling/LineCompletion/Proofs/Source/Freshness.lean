import Mathlib.Data.List.Basic
import LineCompletion.Source.Live

/-! # When cached values are fresh

A reader who rejects expired values and a scheduler who looks for refreshes that are due decide on
their own what is fresh. They agree: where a rule for caching is set and a directory has a scope, a
reader finds nothing exactly where a refresh is due. A reader who takes expired values finds
whatever is cached.
-/

namespace LineCompletion

namespace LiveSource

variable {s : LiveSource} {caches last : Caches} {clock : Clock} {directory : Option String}
  {entry : Entry}

/-- An entry has expired once its lifetime has passed for the context that is bound. A clock that
stands before the entry is no exception, for no lifetime is negative. -/
theorem isExpired_iff :
    s.isExpired clock entry = true ↔
      ∃ ttl context, s.policy.ttlSeconds = some ttl ∧ s.context = some context ∧
        entry.computedAt.nanoseconds + ttl.toNat * 1000000000 ≤ (clock context).nanoseconds := by
  unfold isExpired Moment.since
  cases timed : s.policy.ttlSeconds with
  | none => simp
  | some ttl =>
      cases bound : s.context with
      | none => simp
      | some context =>
          simp only [Bool.and_eq_true, decide_eq_true_eq, Option.some.injEq, exists_eq_left',
            exists_and_left]
          omega

theorem isExpired_now_iff {context : ContextId} (bound : s.context = some context)
    (now : entry.computedAt = clock context) :
    s.isExpired clock entry = true ↔ s.policy.ttlSeconds = some 0 := by
  rw [isExpired_iff]
  constructor
  · rintro ⟨ttl, other, timed, same, past⟩
    obtain rfl := Option.some.inj (bound.symm.trans same)
    rw [now] at past
    have zero : ttl.toNat = 0 := by omega
    rw [timed, show ttl = 0 from UInt64.toNat_inj.mp zero]
  · intro timed
    refine ⟨0, context, timed, bound, ?_⟩
    rw [now, UInt64.toNat_zero]
    omega

theorem needsRefresh_iff :
    s.needsRefresh caches clock directory = true ↔
      s.isDynamic = true ∧ (s.policy.scope? directory).isSome = true ∧
        ∀ entry, s.cached? caches directory = some entry →
          s.policy.isEnabled = true → s.isExpired clock entry = true := by
  unfold needsRefresh
  rw [Bool.and_eq_true, Bool.and_eq_true, and_assoc]
  refine and_congr_right fun _ => and_congr_right fun _ => ?_
  cases found : s.cached? caches directory with
  | none => simp
  | some entry => cases s.policy.isEnabled <;> simp

theorem needsRefresh_congr {context : ContextId} (bound : s.context = some context)
    (same : s.cached? last directory = s.cached? caches directory) {other : Clock}
    (time : other context = clock context) :
    s.needsRefresh last other directory = s.needsRefresh caches clock directory := by
  have expired (entry : Entry) : s.isExpired other entry = s.isExpired clock entry := by
    rw [Bool.eq_iff_iff, isExpired_iff, isExpired_iff]
    simp [bound, time]
  unfold needsRefresh
  rw [same]
  cases s.cached? caches directory with
  | none => rfl
  | some entry => simp only [expired]

theorem offer_advisory (dynamic : s.isDynamic = true) :
    s.offer caches clock directory .advisory =
      match s.cached? caches directory with
      | some entry => .cached entry
      | none => .nothing := by
  unfold Source.isDynamic at dynamic
  unfold offer
  cases provider : s.provider with
  | fixed items => simp [provider] at dynamic
  | dynamic command => cases s.cached? caches directory <;> rfl

theorem offer_rejectExpired_eq_nothing_iff (dynamic : s.isDynamic = true) :
    s.offer caches clock directory .rejectExpired = .nothing ↔
      ∀ entry, s.cached? caches directory = some entry → s.isExpired clock entry = true := by
  have rejects : (Staleness.rejectExpired == .rejectExpired) = true := rfl
  unfold Source.isDynamic at dynamic
  unfold offer
  cases provider : s.provider with
  | fixed items => simp [provider] at dynamic
  | dynamic command =>
      cases s.cached? caches directory with
      | none => simp
      | some entry => cases expired : s.isExpired clock entry <;> simp [expired, rejects]

/-- Where a rule is set and the directory has a scope, a reader who rejects expired values is
offered nothing exactly where a refresh is due, and that is where nothing is cached or its time is
up. A reader who takes them is offered what is cached, whatever the time. -/
theorem withheld_iff_due (dynamic : s.isDynamic = true) (caches : Caches) (clock : Clock)
    (directory : Option String) :
    (s.policy.isEnabled = true → (s.policy.scope? directory).isSome = true →
      (s.offer caches clock directory .rejectExpired = .nothing ↔
          s.needsRefresh caches clock directory = true) ∧
        (s.needsRefresh caches clock directory = true ↔
          ∀ entry, s.cached? caches directory = some entry →
            ∃ ttl context, s.policy.ttlSeconds = some ttl ∧ s.context = some context ∧
              entry.computedAt.nanoseconds + ttl.toNat * 1000000000 ≤
                (clock context).nanoseconds)) ∧
      (∀ entry, s.offer caches clock directory .advisory = .cached entry ↔
        s.cached? caches directory = some entry) ∧
      (s.offer caches clock directory .advisory = .nothing ↔
        s.cached? caches directory = none) := by
  refine ⟨fun enabled inScope => ?_, fun entry => ?_, ?_⟩
  · have due : s.needsRefresh caches clock directory = true ↔
        ∀ entry, s.cached? caches directory = some entry → s.isExpired clock entry = true := by
      simp [needsRefresh_iff, dynamic, inScope, enabled]
    refine ⟨(offer_rejectExpired_eq_nothing_iff dynamic).trans due.symm, ?_⟩
    simp only [due, isExpired_iff]
  · rw [offer_advisory dynamic]
    cases s.cached? caches directory <;> simp
  · rw [offer_advisory dynamic]
    cases s.cached? caches directory <;> simp

/-- A source whose values live for fifteen seconds, in use. -/
def ofRemotes : LiveSource :=
  { name := "Remotes", provider := .dynamic "git remote", policy := { ttlSeconds := some 15 },
    cell := 0, context := some 0 }

/-- What its command gave one second after the clock began. -/
def remotes : Entry :=
  { items := [{ name := "origin" }], computedAt := 1000, generation := 1 }

def remoteCaches : Caches :=
  ({} : Caches).set 0 { snapshot := { generation := 1, entries := [(.everywhere, remotes)] } }

/-- After its time the values are withheld and due, and not before, even if the clock has gone
back. -/
theorem withheld_iff_due_remotes :
    ofRemotes.isDynamic = true ∧ ofRemotes.policy.isEnabled = true ∧
      (ofRemotes.policy.scope? none).isSome = true ∧
      ofRemotes.offer remoteCaches (fun _ => 16000) none .rejectExpired = .nothing ∧
      ofRemotes.offer remoteCaches (fun _ => 16000) none .advisory = .cached remotes ∧
      ofRemotes.needsRefresh remoteCaches (fun _ => ⟨15999999999⟩) none = false ∧
      ofRemotes.needsRefresh remoteCaches (fun _ => 0) none = false := by
  have agree (clock : Clock) := withheld_iff_due (s := ofRemotes) rfl remoteCaches clock none
  have due (clock : Clock) := (agree clock).1 rfl rfl
  have cached : ofRemotes.cached? remoteCaches none = some remotes := rfl
  have fresh {now : Moment} (early : now.nanoseconds < 16000000000) :
      ofRemotes.needsRefresh remoteCaches (fun _ => now) none = false := by
    refine Bool.eq_false_iff.mpr fun expired => ?_
    obtain ⟨ttl, _, timed, _, past⟩ := (due _).2.mp expired remotes cached
    obtain rfl : 15 = ttl := Option.some.inj timed
    have lives : remotes.computedAt.nanoseconds + (15 : UInt64).toNat * 1000000000 = 16000000000 :=
      rfl
    omega
  refine ⟨rfl, rfl, rfl, (due _).1.mpr ((due _).2.mpr ?_), (agree _).2.1 remotes |>.mpr cached,
    fresh (by decide), fresh (by decide)⟩
  intro entry found
  obtain rfl := Option.some.inj (cached.symm.trans found)
  exact ⟨15, 0, rfl, rfl, by decide⟩

end LiveSource

end LineCompletion

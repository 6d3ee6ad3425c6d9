import Mathlib.Data.List.Basic
import LineCompletion.Proofs.Suggest.StoredWalk

/-! # A walk stays in bounds

Scopes are only ever opened, each below a parameter of a scope that is open, and a mark is only set
where a slot is. So a stored walk that starts with any list of parameters never reads or writes
outside of its lists, whatever words it is given, and neither does the making of suggestions.
-/

namespace LineCompletion

variable {σ : Type}

/-- Scopes that were opened one after the other: the first is a given list, and each further one has
the children of a parameter of a scope before it. -/
inductive Opened (ps : List (Parameter σ)) : List (List (Parameter σ)) → Prop where
  | root : Opened ps [ps]
  | under {scopes : List (List (Parameter σ))} {qs : List (Parameter σ)} {p : Parameter σ}
      (outer : Opened ps scopes) (scope : qs ∈ scopes) (member : p ∈ qs) :
      Opened ps (scopes ++ [p.children])

theorem Opened.ne_nil {ps : List (Parameter σ)} {scopes : List (List (Parameter σ))}
    (opened : Opened ps scopes) : scopes ≠ [] := by
  cases opened <;> simp

theorem Frame.mem_of_mem_use {f : Frame σ} {i : Nat} {s t : Slot σ} (slot : f[i]? = some s)
    (once : ¬ s.parameter.recursive = true) (member : t ∈ f.use i)
    (recursive : t.parameter.recursive = true) : t ∈ f := by
  obtain ⟨j, found⟩ := List.mem_iff_getElem?.mp member
  rw [Frame.getElem?_use] at found
  obtain ⟨u, before, rfl⟩ := Option.map_eq_some_iff.mp found
  by_cases marked : i = j
  · obtain rfl := Option.some.inj (before.symm.trans (marked ▸ slot))
    rw [if_pos marked] at recursive
    exact absurd recursive once
  · rw [if_neg marked]
    exact List.mem_of_getElem? before

namespace Walk

/-- What holds of a walk at any time: how its scopes were opened, that no recursive parameter is
used up, and that what waits for a value is a parameter of an open scope that takes one. -/
structure Sound (ps : List (Parameter σ)) (w : Walk σ) : Prop where
  opened : Opened ps w.scopes.reverse
  free : ∀ f ∈ w.frames, ∀ s ∈ f, s.parameter.recursive = true → s.used = false
  waiting : ∀ p, w.pending = some p → waitsForValue p false = true ∧ ∃ qs ∈ w.scopes, p ∈ qs

variable {ps : List (Parameter σ)} {w : Walk σ}

theorem Sound.nonempty (sound : w.Sound ps) : w.frames ≠ [] := by
  intro empty
  apply sound.opened.ne_nil
  simp [scopes, empty]

theorem sound_start (ps : List (Parameter σ)) : (start ps).Sound ps := by
  refine ⟨?_, ?_, ?_⟩
  · rw [scopes_start]
    exact .root
  · intro f frame s slot _
    obtain rfl := List.mem_singleton.mp frame
    obtain ⟨p, _, rfl⟩ := List.mem_map.mp slot
    rfl
  · intro p pending
    simp [start] at pending

theorem Sound.enter (sound : w.Sound ps) {p : Parameter σ} {qs : List (Parameter σ)}
    (scope : qs ∈ w.scopes) (member : p ∈ qs) : (w.enter p).Sound ps := by
  rcases enter_eq w p with same | pushed
  · rw [same]
    exact sound
  · rw [pushed]
    refine ⟨?_, ?_, ?_⟩
    · have scopes : (Frame.ofParameters p.children).map Slot.parameter = p.children :=
        Frame.parameters_ofParameters p.children
      simp only [Walk.scopes, List.map_cons, List.reverse_cons, scopes]
      exact .under sound.opened (List.mem_reverse.mpr scope) member
    · intro f frame s slot recursive
      rcases List.mem_cons.mp frame with rfl | frame
      · obtain ⟨q, _, rfl⟩ := List.mem_map.mp slot
        rfl
      · exact sound.free f frame s slot recursive
    · intro q pending
      obtain ⟨waits, other, open?, inside⟩ := sound.waiting q pending
      exact ⟨waits, other, List.mem_cons_of_mem _ open?, inside⟩

theorem mem_of_mem_useUp {hit : Hit σ} {s t : Slot σ} {f : Frame σ} (place : w.At hit s)
    (frame : f ∈ (w.useUp hit).frames) (member : t ∈ f) (recursive : t.parameter.recursive = true) :
    ∃ g ∈ w.frames, t ∈ g := by
  unfold Walk.useUp at frame
  split at frame
  · exact ⟨f, frame, member⟩
  · rename_i once
    obtain ⟨g, own, slot, same⟩ := place
    obtain ⟨i, found⟩ := List.mem_iff_getElem?.mp frame
    rw [List.getElem?_modify] at found
    obtain ⟨h, before, rfl⟩ := Option.map_eq_some_iff.mp found
    refine ⟨h, List.mem_of_getElem? before, ?_⟩
    split at member
    · rename_i here
      obtain rfl := Option.some.inj (before.symm.trans (here ▸ own))
      exact Frame.mem_of_mem_use slot (same ▸ once) member recursive
    · exact member

theorem Sound.useUp (sound : w.Sound ps) {hit : Hit σ} {s : Slot σ} (place : w.At hit s) :
    (w.useUp hit).Sound ps := by
  refine ⟨by simpa using sound.opened, ?_, by simpa using sound.waiting⟩
  intro f frame t member recursive
  obtain ⟨g, before, inside⟩ := mem_of_mem_useUp place frame member recursive
  exact sound.free g before t inside recursive

theorem Sound.select (sound : w.Sound ps) {hit : Hit σ} {s : Slot σ} (place : w.At hit s)
    (bound : Bool) : (w.select hit bound).Sound ps := by
  have used := sound.useUp place
  obtain ⟨qs, scope, member⟩ := mem_scope_of_at place
  rw [← scopes_useUp w hit] at scope
  rw [Walk.select]
  cases waits : waitsForValue hit.parameter bound with
  | true =>
      obtain rfl := eq_false_of_waitsForValue waits
      refine ⟨used.opened, used.free, ?_⟩
      intro p pending
      obtain rfl := Option.some.inj pending
      exact ⟨waits, qs, scope, member⟩
  | false => exact used.enter scope member

theorem Sound.consume (sound : w.Sound ps) (token : Token) : (w.consume token).Sound ps := by
  cases pending : w.pending with
  | some p =>
      obtain ⟨_, qs, scope, member⟩ := sound.waiting p pending
      have bound : ({ w with pending := none } : Walk σ).Sound ps :=
        ⟨sound.opened, sound.free, by simp⟩
      simp only [Walk.consume, pending]
      exact bound.enter scope member
  | none =>
      rw [consume_eq_select pending]
      cases selected : w.selection? token with
      | none => exact sound
      | some found =>
          obtain ⟨s, place⟩ := selection?_located selected
          exact sound.select place found.2

theorem sound_foldl (sound : w.Sound ps) (tokens : List Token) :
    (tokens.foldl Walk.consume w).Sound ps := by
  induction tokens generalizing w with
  | nil => exact sound
  | cons token rest ih => exact ih (sound.consume token)

theorem Sound.walkFrom (sound : w.Sound ps) (token : Token) :
    ((w.complete token).walkFrom w).Sound ps := by
  cases completed : w.complete token with
  | consumed next =>
      obtain rfl := consume_of_complete completed
      exact sound.consume token
  | filter typed => exact sound
  | values p assignmentKey typed => exact sound

end Walk

/-! ## Stored walks -/

namespace StoredWalk

/-- What the accesses of a stored walk rest on. Its outermost scope has the given parameters, and
each further one the children of a parameter of a scope before it. -/
structure Sound (ps : List (Parameter σ)) (w : StoredWalk σ) : Prop where
  nonempty : w.layers ≠ []
  beside : ∀ l ∈ w.layers, l.consumed.length = l.parameters.length
  free : ∀ l ∈ w.layers, ∀ (i : Nat) (p : Parameter σ), l.parameters[i]? = some p →
    p.recursive = true → l.consumed[i]? = some false
  opened : Opened ps (w.layers.map Layer.parameters)
  waiting : ∀ p, w.pending = some p → p.keys ≠ [] ∧
    ∃ source separator, p.kind = .value source separator ∧ separator.acceptsBlank = true

/-- Whether there is a slot at a site: a parameter, and beside it whether it is used up. -/
def HasSlot (w : StoredWalk σ) (site : Site) : Prop :=
  ∃ l p used, w.layers[site.depth]? = some l ∧ l.parameters[site.index]? = some p ∧
    l.consumed[site.index]? = some used

/-- Every search ends without a fault, and at a slot if it finds something; what can come next is
listed without a fault. -/
structure Answers (w : StoredWalk σ) : Prop where
  keyed : ∀ text, ∃ found, w.findKeyed text = .ok found ∧
    ∀ site, found = some site → w.HasSlot site
  positional : ∃ found, w.findPositional = .ok found ∧
    ∀ site, found = some site → w.HasSlot site
  assigned : ∀ token, ∃ found, w.assignmentHit token = .ok found ∧
    ∀ site a, found = some (site, a) → w.HasSlot site
  candidates : ∀ flagsOnly, ∃ offered, w.enumerate flagsOnly = .ok offered

theorem hasSlot_site {w : Walk σ} {hit : Hit σ} {s : Slot σ} (place : w.At hit s) :
    w.stored.HasSlot (w.site hit) := by
  obtain ⟨f, frame, slot, _⟩ := place
  refine ⟨f.layer, s.parameter, s.used, layers_stored frame, ?_, ?_⟩
  · simp [Frame.layer, Walk.site, slot]
  · simp [Frame.layer, Walk.site, slot]

theorem keyed_of_waitsForValue {p : Parameter σ} (waits : Walk.waitsForValue p false = true) :
    p.keys ≠ [] ∧
      ∃ source separator, p.kind = .value source separator ∧ separator.acceptsBlank = true := by
  unfold Walk.waitsForValue at waits
  split at waits
  · rename_i source separator kind
    simp only [Bool.not_false, Bool.true_and, Bool.and_eq_true, Bool.not_eq_true',
      List.isEmpty_eq_false_iff] at waits
    exact ⟨waits.1, source, separator, kind, waits.2⟩
  · exact absurd waits Bool.false_ne_true

theorem sound_stored {ps : List (Parameter σ)} {w : Walk σ} (sound : w.Sound ps) :
    w.stored.Sound ps := by
  have layers : w.stored.layers.map Layer.parameters = w.scopes.reverse := by
    simp [Walk.stored, Walk.scopes, Frame.layer, Function.comp_def]
  have layer_of_mem {l : Layer σ} (member : l ∈ w.stored.layers) : ∃ f ∈ w.frames, f.layer = l := by
    simpa [Walk.stored] using member
  refine ⟨?_, ?_, ?_, layers ▸ sound.opened, ?_⟩
  · simpa [Walk.stored] using sound.nonempty
  · intro l member
    obtain ⟨f, _, rfl⟩ := layer_of_mem member
    simp [Frame.layer]
  · intro l member i p found recursive
    obtain ⟨f, frame, rfl⟩ := layer_of_mem member
    rw [Frame.layer, List.getElem?_map] at found
    obtain ⟨s, slot, rfl⟩ := Option.map_eq_some_iff.mp found
    simp [Frame.layer, slot, sound.free f frame s (List.mem_of_getElem? slot) recursive]
  · intro p pending
    exact keyed_of_waitsForValue (sound.waiting p pending).1

theorem answers_stored {w : Walk σ} (nonempty : w.frames ≠ []) : w.stored.Answers := by
  refine ⟨fun text => ?_, ?_, fun token => ?_, fun flagsOnly => ?_⟩
  · refine ⟨_, findKeyed_stored nonempty text, ?_⟩
    intro site found
    obtain ⟨hit, keyed, rfl⟩ := Option.map_eq_some_iff.mp found
    obtain ⟨s, place, _⟩ := Walk.findKeyed_located keyed
    exact hasSlot_site place
  · refine ⟨_, findPositional_stored nonempty, ?_⟩
    intro site found
    obtain ⟨hit, positional, rfl⟩ := Option.map_eq_some_iff.mp found
    obtain ⟨s, place, _⟩ := Walk.findPositional_located positional
    exact hasSlot_site place
  · refine ⟨_, assignmentHit_stored nonempty token, ?_⟩
    intro site a found
    obtain ⟨⟨hit, b⟩, assigned, parts⟩ := Option.map_eq_some_iff.mp found
    obtain ⟨rfl, rfl⟩ := Prod.mk.inj parts
    obtain ⟨s, place⟩ := Walk.assignmentHit_at assigned
    exact hasSlot_site place
  · exact ⟨_, enumerate_stored nonempty flagsOnly⟩

/-- A parameter without a mark beside it is out of reach of a search. -/
example :
    let flag : Parameter Unit := .flag ["-v"] "Verbose"
    let w : StoredWalk Unit := { layers := [{ parameters := [flag], consumed := [] }] }
    w.findKeyed "-v" = .error (.outOfRange 0 0) := by
  rfl

theorem foldlM_stored {ps : List (Parameter σ)} {w : Walk σ} (sound : w.Sound ps)
    (tokens : List Token) :
    tokens.foldlM consume w.stored = .ok (tokens.foldl Walk.consume w).stored := by
  induction tokens generalizing w with
  | nil => rfl
  | cons token rest ih =>
      rw [List.foldlM_cons, consume_stored sound.nonempty, Fault.ok_bind]
      exact ih (sound.consume token)

end StoredWalk

namespace Dictionary

theorem sound_walk (d : Dictionary σ) (tokens : List Token) : (d.walk tokens).Sound d.parameters :=
  Walk.sound_foldl (Walk.sound_start d.parameters) tokens

theorem foldlM_consume (d : Dictionary σ) (tokens : List Token) :
    tokens.foldlM StoredWalk.consume (.start d.parameters) = .ok (d.walk tokens).stored := by
  rw [StoredWalk.start_eq_stored]
  exact StoredWalk.foldlM_stored (Walk.sound_start d.parameters) tokens

theorem predictStored_eq (d : Dictionary σ) (mode : MatchMode) (items : Parameter σ → List Item)
    (line : TokenLine) : d.predictStored mode items line = .ok (d.predictWith mode items line) := by
  unfold predictStored predictWith
  cases line.tokens with
  | nil => rfl
  | cons command rest =>
      cases handled : d.matchesKey command.text with
      | false => simp [handled]
      | true =>
          simp only [handled, Bool.not_true, Bool.false_eq_true, if_false]
          obtain ⟨completed, current⟩ := splitCursor rest line.trailingSpace
          have walk : completed.foldl Walk.consume (.start d.parameters) = d.walk completed := rfl
          have sound := d.sound_walk completed
          simp only [d.foldlM_consume, Fault.ok_bind, walk]
          cases current with
          | none =>
              simp only [StoredWalk.enumerate_stored sound.nonempty, Fault.ok_bind]
              rfl
          | some token =>
              have after := sound.walkFrom token
              simp only [StoredWalk.complete_stored sound.nonempty, Fault.ok_bind]
              cases completion : (d.walk completed).complete token with
              | consumed next =>
                  rw [completion] at after
                  have moved : next.Sound d.parameters := after
                  simp only [Completion.word, Completion.walkFrom,
                    StoredWalk.enumerate_stored moved.nonempty, Fault.ok_bind]
                  rfl
              | filter typed =>
                  simp only [Completion.word, Completion.walkFrom,
                    StoredWalk.enumerate_stored sound.nonempty, Fault.ok_bind]
                  rfl
              | values p assignmentKey typed => rfl

/-- A walk over any words, stored, takes every step without a fault, and then the word under the
cursor. It is sound at any time, each search ends at a slot or finds none, and what waits for a
value has it with the next word. So suggestions are made without a fault, whatever the line. -/
theorem walk_in_bounds (d : Dictionary σ) :
    (∀ tokens : List Token,
      let w := d.walk tokens
      tokens.foldlM StoredWalk.consume (.start d.parameters) = .ok w.stored ∧
      w.stored.Sound d.parameters ∧ w.stored.Answers ∧
      (∀ token, w.stored.pending ≠ none →
        ∃ next, w.stored.consume token = .ok next ∧ next.pending = none) ∧
      ∀ token,
        let last := (w.complete token).walkFrom w
        w.stored.complete token = .ok ((w.complete token).word, last.stored) ∧
        last.stored.Sound d.parameters ∧ last.stored.Answers) ∧
      ∀ mode items line, d.predictStored mode items line = .ok (d.predictWith mode items line) := by
  refine ⟨?_, d.predictStored_eq⟩
  intro tokens w
  have sound : w.Sound d.parameters := d.sound_walk tokens
  refine ⟨d.foldlM_consume tokens, StoredWalk.sound_stored sound,
    StoredWalk.answers_stored sound.nonempty, ?_, ?_⟩
  · intro token pending
    obtain ⟨p, waiting⟩ := Option.ne_none_iff_exists'.mp pending
    refine ⟨_, StoredWalk.consume_stored sound.nonempty token, ?_⟩
    rw [StoredWalk.pending_stored] at waiting ⊢
    simp [Walk.consume, waiting, Walk.bindPending]
  · intro token last
    have after : last.Sound d.parameters := sound.walkFrom token
    exact ⟨StoredWalk.complete_stored sound.nonempty token, StoredWalk.sound_stored after,
      StoredWalk.answers_stored after.nonempty⟩

end Dictionary

end LineCompletion

import LineCompletion.Proofs.Cli.FailingSources
import LineCompletion.Proofs.Number.Digits

/-! # Deadlines of a completion

A completion waits for the worker twice, and each wait has a deadline some seconds after the instant
at which it begins. The clock of the machine tells the seconds in 64 bits with a sign, but the
seconds to wait may be any number of 64 bits, so a wait breaks down where their sum is too large.
-/

namespace LineCompletion.Cli

theorem deadline?_eq_none_iff {now : Nat} {seconds : UInt64} :
    deadline? now seconds = none ↔ 2 ^ 63 ≤ now + seconds.toNat := by
  have size : Nat.pow 2 63 = 2 ^ 63 := rfl
  simp only [deadline?, size]
  split <;> simp <;> omega

/-! ## Seconds on the command line -/

theorem word?_of_digits {text : String} {n : UInt64} (filled : text.toList ≠ [])
    (digits : ∀ c ∈ text.toList, c.isDigit = true)
    (value : text.toList.foldl (fun n c => n * 10 + (c.toNat - '0'.toNat)) 0 = n.toNat) :
    word? text = some n := by
  have bound : n.toNat < UInt64.size := n.toNat_lt
  have value : text.toList.foldl (fun n c => n * 10 + (c.toNat - 48)) 0 = n.toNat := value
  unfold word?
  split
  · rename_i rest signed
    have digit := digits '+' (signed ▸ List.mem_cons_self)
    simp at digit
  · have all : text.toList.all Char.isDigit = true := List.all_eq_true.mpr digits
    have kept : text.toList.isEmpty = false := by simpa using filled
    simp only [all, kept, value, bound, Bool.not_true, Bool.or_false, Bool.false_eq_true, if_false,
      if_true, UInt64.ofNat_toNat]

theorem word?_toString (n : UInt64) : word? (toString n.toNat) = some n :=
  word?_of_digits (digitsOf_ne_nil n.toNat) (fun _ => isDigit_of_mem_digitsOf)
    (foldl_digitsOf n.toNat)

theorem shapeOf_of_digits {text : String} (digits : ∀ c ∈ text.toList, c.isDigit = true) :
    shapeOf text = .plain := by
  have unsigned : ∀ rest, text.toList ≠ '-' :: rest := by
    intro rest signed
    have digit := digits '-' (signed ▸ List.mem_cons_self)
    simp at digit
  unfold shapeOf
  split
  · exact absurd ‹_› (unsigned _)
  · exact absurd ‹_› (unsigned _)
  · exact absurd ‹_› (unsigned _)
  · rfl

theorem setValue_seconds {d : Draft} (free : d.given.contains .seconds = false) (n : UInt64) :
    d.setValue .seconds (toString n.toNat) =
      some { completion := { d.completion with seconds := n }, given := .seconds :: d.given } := by
  have noted : d.note .seconds = some { d with given := .seconds :: d.given } := by
    rw [Draft.note, free]
    rfl
  simp only [Draft.setValue, noted, Option.bind_some, word?_toString]

theorem readCompletion_seconds {d : Draft} (free : d.given.contains .seconds = false) (n : UInt64)
    (rest : List String) :
    readCompletion d none ("--timeout-secs" :: toString n.toNat :: rest) =
      readCompletion
        { completion := { d.completion with seconds := n }, given := .seconds :: d.given } none
        rest := by
  have option : shapeOf "--timeout-secs" = .long "timeout-secs" none := by decide
  have known : OptionName.completion "timeout-secs" = some .seconds := rfl
  have long : ("timeout-secs".length == 1) = false := by decide
  have plain := shapeOf_of_digits fun _ => isDigit_of_mem_digitsOf (n := n.toNat)
  calc readCompletion d none ("--timeout-secs" :: toString n.toNat :: rest)
      = readCompletion d (some .seconds) (toString n.toNat :: rest) := by
        rw [readCompletion.eq_def]
        simp only [option, long, known]
        rfl
    _ = (d.setValue .seconds (toString n.toNat)).bind fun d => readCompletion d none rest := by
        rw [readCompletion.eq_def]
        simp only [plain]
    _ = _ := by rw [setValue_seconds free, Option.bind_some]

/-! ## Waiting from an instant on -/

/-- Waits for the worker from an instant on. Nothing comes of it where its deadline cannot be
told. -/
def waitFrom [Codec] [ScriptRunner] (now : Nat) (limit : Option Nat) (seconds : UInt64)
    (e : Engine) (w : Surroundings) : Option (Except EngineError Unit × Engine × Surroundings) :=
  (deadline? now seconds).map fun _ => wait limit seconds.toNat e w

/-- The instants, in seconds, at which a completion begins to wait for its dictionaries and for the
values of their sources. -/
structure Instants where
  loading : Nat
  refreshing : Nat

/-- Completes a line with an engine that has loaded its dictionaries, unless the wait for the
sources breaks down. -/
def answerFrom [Codec] [ScriptRunner] (now : Nat) (limit : Option Nat) (c : Completion)
    (request : LineCompletion.Request) (e : Engine) (w : Surroundings) : Option Report :=
  match e.suggestorFor request.command with
  | none => some (answer limit c request e w)
  | some s =>
    (waitFrom now limit c.seconds (e.refreshDictionary s.dictionary request.directory) w).map
      fun _ => answer limit c request e w

/-- Completes a line unless a wait breaks down. -/
def completeFrom [Codec] [ScriptRunner] (instants : Instants) (files : Files) (c : Completion) :
    Option Report :=
  match settingsOf files c with
  | .error message => some (.failure "" message)
  | .ok s =>
    if s.dictionaries.isEmpty then
      some (.failure "" "no dictionaries given (use --dictionary or --config)")
    else if (lineOf c).tokens.isEmpty then some (.failure "" "nothing to complete")
    else
      match (Engine.ofSettings s.matching false s.dictionaries).start with
      | .error e => some (.failure "" e.message)
      | .ok e =>
        (waitFrom instants.loading (limitOf s) c.seconds e { files }).bind fun
          | (.error cause, e, _) => some (.failure "" (describe e cause))
          | (.ok (), e, w) => answerFrom instants.refreshing (limitOf s) c (requestOf c) e w

theorem exists_start (s : Settings) :
    ∃ e, (Engine.ofSettings s.matching false s.dictionaries).start = .ok e := by
  rw [Engine.ofSettings_eq]
  exact ⟨_, rfl⟩

section Breakdown

variable [Codec] [ScriptRunner] {files : Files} {c : Completion} {instants : Instants}

theorem waitFrom_eq_none_iff {now : Nat} {limit : Option Nat} {seconds : UInt64} {e : Engine}
    {w : Surroundings} :
    waitFrom now limit seconds e w = none ↔ 2 ^ 63 ≤ now + seconds.toNat := by
  rw [waitFrom, Option.map_eq_none_iff, deadline?_eq_none_iff]

theorem waitFrom_of_lt {now : Nat} {seconds : UInt64} (told : now + seconds.toNat < 2 ^ 63)
    (limit : Option Nat) (e : Engine) (w : Surroundings) :
    waitFrom now limit seconds e w = some (wait limit seconds.toNat e w) := by
  cases moment : deadline? now seconds with
  | none => exact absurd (deadline?_eq_none_iff.mp moment) (by omega)
  | some moment => simp [waitFrom, *]

theorem answerFrom_eq_none_iff {now : Nat} {limit : Option Nat} {request : LineCompletion.Request}
    {e : Engine} {w : Surroundings} :
    answerFrom now limit c request e w = none ↔
      (∃ g, e.suggestorFor request.command = some g) ∧ 2 ^ 63 ≤ now + c.seconds.toNat := by
  unfold answerFrom
  cases e.suggestorFor request.command with
  | none => simp
  | some s => simp [waitFrom_eq_none_iff]

theorem answerFrom_of_lt {now : Nat} (told : now + c.seconds.toNat < 2 ^ 63) (limit : Option Nat)
    (request : LineCompletion.Request) (e : Engine) (w : Surroundings) :
    answerFrom now limit c request e w = some (answer limit c request e w) := by
  unfold answerFrom
  split
  · rfl
  · rw [waitFrom_of_lt told, Option.map_some]

/-- On a machine that has just started the answer is that of the program, which ends with a status
of its own where a wait breaks down. -/
theorem complete_eq_completeFrom (files : Files) (c : Completion) :
    complete files c =
      (completeFrom ⟨leastUptime, leastUptime⟩ files c).getD { status := 101 } := by
  unfold complete completeFrom
  cases settingsOf files c with
  | error message => rfl
  | ok s =>
      obtain ⟨started, start⟩ := exists_start s
      dsimp only
      split
      · rfl
      split
      · rfl
      simp only [start]
      by_cases late : 2 ^ 63 ≤ leastUptime + c.seconds.toNat
      · simp [deadline?_eq_none_iff.mpr late, waitFrom_eq_none_iff.mpr late]
      · have told : leastUptime + c.seconds.toNat < 2 ^ 63 := Nat.lt_of_not_le late
        have moment : (deadline? leastUptime c.seconds).isNone = false := by
          rw [Option.isNone_eq_false_iff, Option.isSome_iff_ne_none, ne_eq, deadline?_eq_none_iff]
          exact late
        simp only [moment, waitFrom_of_lt told, answerFrom_of_lt told, Option.bind_some]
        simp only [Bool.false_eq_true, if_false, limitOf]
        generalize wait _ _ started { files } = ended
        obtain ⟨cause | done, e, w⟩ := ended
        · rfl
        · rfl

/-- A completion gets as far as waiting for its dictionaries. -/
structure Asks (files : Files) (c : Completion) (s : Settings) : Prop where
  settings : settingsOf files c = .ok s
  dictionaries : s.dictionaries ≠ []
  line : (lineOf c).tokens ≠ []

def Loads (files : Files) (c : Completion) (s : Settings) (e : Engine) : Prop :=
  ∃ started w, (Engine.ofSettings s.matching false s.dictionaries).start = .ok started ∧
    wait (limitOf s) c.seconds.toNat started { files } = (.ok (), e, w)

theorem completeFrom_of_asks {s : Settings} (asks : Asks files c s) (instants : Instants) :
    ∃ started, (Engine.ofSettings s.matching false s.dictionaries).start = .ok started ∧
      completeFrom instants files c =
        (waitFrom instants.loading (limitOf s) c.seconds started { files }).bind fun
          | (.error cause, e, _) => some (.failure "" (describe e cause))
          | (.ok (), e, w) => answerFrom instants.refreshing (limitOf s) c (requestOf c) e w := by
  obtain ⟨started, start⟩ := exists_start s
  have dictionaries : s.dictionaries.isEmpty = false := by simpa using asks.dictionaries
  have line : (lineOf c).tokens.isEmpty = false := by simpa using asks.line
  refine ⟨started, start, ?_⟩
  simp only [completeFrom, asks.settings, dictionaries, line, start, Bool.false_eq_true, if_false]

theorem asks_of_completeFrom (broken : completeFrom instants files c = none) :
    ∃ s, Asks files c s := by
  unfold completeFrom at broken
  split at broken
  · simp at broken
  · rename_i s settings
    split at broken
    · simp at broken
    · rename_i dictionaries
      split at broken
      · simp at broken
      · rename_i line
        exact ⟨s, settings, by simpa using dictionaries, by simpa using line⟩

theorem completeFrom_eq_none_iff {s : Settings} (asks : Asks files c s) :
    completeFrom instants files c = none ↔
      2 ^ 63 ≤ instants.loading + c.seconds.toNat ∨
        ∃ e, Loads files c s e ∧ (∃ g, e.suggestorFor (requestOf c).command = some g) ∧
          2 ^ 63 ≤ instants.refreshing + c.seconds.toNat := by
  obtain ⟨started, start, same⟩ := completeFrom_of_asks asks instants
  rw [same]
  by_cases late : 2 ^ 63 ≤ instants.loading + c.seconds.toNat
  · rw [waitFrom_eq_none_iff.mpr late]
    exact iff_of_true rfl (.inl late)
  · rw [waitFrom_of_lt (Nat.lt_of_not_le late), Option.bind_some, or_iff_right late]
    cases ends : wait (limitOf s) c.seconds.toNat started { files } with
    | mk ended rest =>
        have loads (e : Engine) : Loads files c s e ↔ ended = .ok () ∧ rest.1 = e := by
          simp [Loads, start, ends, Prod.ext_iff]
        cases ended with
        | error cause => simp [loads]
        | ok => simp [loads, answerFrom_eq_none_iff]

/-- All seconds of 64 bits can be asked for, and a completion breaks down exactly where the deadline
of a wait that it gets to lies beyond what the clock tells. That takes at least half of all seconds
that the clock tells, to wait or to have run before. -/
theorem completion_breaks_down_iff (instants : Instants) (files : Files) (c : Completion) :
    (∀ (seconds : UInt64) (rest : List String),
      Request.ofArguments ("complete" :: "--timeout-secs" :: toString seconds.toNat :: rest) =
        readCompletion { completion := { seconds }, given := [.seconds] } none rest) ∧
    (completeFrom instants files c = none ↔
      ∃ s, Asks files c s ∧
        (2 ^ 63 ≤ instants.loading + c.seconds.toNat ∨
          ∃ e, Loads files c s e ∧ (∃ g, e.suggestorFor (requestOf c).command = some g) ∧
            2 ^ 63 ≤ instants.refreshing + c.seconds.toNat)) ∧
    (instants.loading < 2 ^ 62 → instants.refreshing < 2 ^ 62 → c.seconds.toNat ≤ 2 ^ 62 →
      (completeFrom instants files c).isSome = true) := by
  have breaks : completeFrom instants files c = none ↔
      ∃ s, Asks files c s ∧
        (2 ^ 63 ≤ instants.loading + c.seconds.toNat ∨
          ∃ e, Loads files c s e ∧ (∃ g, e.suggestorFor (requestOf c).command = some g) ∧
            2 ^ 63 ≤ instants.refreshing + c.seconds.toNat) := by
    constructor
    · intro broken
      obtain ⟨s, asks⟩ := asks_of_completeFrom broken
      exact ⟨s, asks, (completeFrom_eq_none_iff asks).mp broken⟩
    · rintro ⟨s, asks, late⟩
      exact (completeFrom_eq_none_iff asks).mpr late
  refine ⟨fun seconds rest => readCompletion_seconds rfl seconds rest, breaks,
    fun loading refreshing seconds => ?_⟩
  rw [Option.isSome_iff_ne_none]
  intro broken
  obtain ⟨s, -, late | ⟨e, -, -, late⟩⟩ := breaks.mp broken
  · omega
  · omega

end Breakdown

/-- A completion that asks for the longest time breaks down as soon as it waits. -/
theorem accepted_seconds_break_down :
    ¬ ∀ (arguments : List String) (c : Completion) (files : Files) (instants : Instants),
      Request.ofArguments arguments = some (.complete c) →
      instants.loading < 2 ^ 62 → instants.refreshing < 2 ^ 62 →
      (completeFrom instants files c).isSome = true := by
  intro promised
  let longest : Completion :=
    { completeTool "tool --tag " with seconds := UInt64.ofNat (2 ^ 64 - 1) }
  have accepted : Request.ofArguments ["complete", "-d", "tool.json", "--timeout-secs",
      "18446744073709551615", "--line", "tool --tag "] = some (.complete longest) := by
    decide +kernel
  have ended := promised _ longest (twoSources "echo v1" "echo main") ⟨1, 1⟩ accepted
    (by decide) (by decide)
  have broken : completeFrom ⟨1, 1⟩ (twoSources "echo v1" "echo main") longest = none := by
    refine (completeFrom_eq_none_iff (s := { dictionaries := ["tool.json"] }) ⟨?_, ?_, ?_⟩).mpr
      (.inl (by decide))
    · decide +kernel
    · decide
    · decide +kernel
  simp [broken] at ended

end LineCompletion.Cli

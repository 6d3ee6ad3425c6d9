import LineCompletion.Proofs.Yaml.Places

/-! # Characters read back from their escapes

Between double quotes a character that cannot stand for itself is written as a letter of its own or
as its code point in base sixteen.
-/

namespace LineCompletion.Yaml

/-! ## Digits in base sixteen -/

theorem hexDigit_digitChar {d : Nat} (small : d < 16) :
    hexDigit (Nat.digitChar d).toUpper = some d := by
  have all : ∀ d : Fin 16, hexDigit (Nat.digitChar d).toUpper = some d.val := by decide
  exact all ⟨d, small⟩

/-- The number of digits, read on from another number. -/
def hexValue (start : Nat) (digits : List Char) : Option Nat :=
  digits.foldlM (fun n d => (hexDigit d).map (n * 16 + ·)) start

theorem hexValue_toDigits (n : Nat) :
    hexValue 0 ((Nat.toDigits 16 n).map Char.toUpper) = some n := by
  induction n using Nat.strongRecOn with
  | _ n ih =>
      rw [Nat.toDigits_eq_if (by decide)]
      split
      · rename_i small
        simp [hexValue, hexDigit_digitChar small]
      · rename_i large
        have front := ih (n / 16) (by omega)
        have last := hexDigit_digitChar (Nat.mod_lt n (by decide : 0 < 16))
        unfold hexValue at front ⊢
        rw [List.map_append, List.foldlM_append, front]
        simp [last]
        omega

theorem hexValue_replicate (count : Nat) : hexValue 0 (List.replicate count '0') = some 0 := by
  induction count with
  | zero => rfl
  | succ count ih => exact ih

theorem hexValue_hexDigits (width n : Nat) : hexValue 0 (hexDigits width n) = some n := by
  have zeros := hexValue_replicate (width - ((Nat.toDigits 16 n).map Char.toUpper).length)
  have digits := hexValue_toDigits n
  unfold hexValue at zeros digits ⊢
  rw [hexDigits, List.foldlM_append, zeros]
  exact digits

theorem length_hexDigits {width n : Nat} (fits : (Nat.toDigits 16 n).length ≤ width) :
    (hexDigits width n).length = width := by
  simp only [hexDigits, List.length_append, List.length_replicate, List.length_map]
  omega

theorem hexChar_hexDigits (width : Nat) (c : Char) :
    hexChar (hexDigits width c.toNat) = some c := by
  have value := hexValue_hexDigits width c.toNat
  have valid : c.toNat < 0xD800 ∨ (0xDFFF < c.toNat ∧ c.toNat < 0x110000) := c.valid
  have proper : ((0xD800 ≤ c.toNat && c.toNat ≤ 0xDFFF) || decide (0x10FFFF < c.toNat)) =
      false := by
    rw [Bool.or_eq_false_iff, Bool.and_eq_false_iff, decide_eq_false_iff_not,
      decide_eq_false_iff_not, decide_eq_false_iff_not]
    omega
  unfold hexValue at value
  simp only [hexChar, value, bind, Option.bind_some, proper, Bool.false_eq_true, if_false,
    Char.ofNat_toNat]

/-! ## Words between quotes -/

variable {rest : List Char} {i l k : Nat}

/-- Characters are read as one character of a word between quotes. -/
def ReadsAs (single : Bool) (written : List Char) (c : Char) : Prop :=
  ∀ (fuel : Nat) (acc rest : List Char) (i l k : Nat),
    readQuotedWord single (fuel + 1) acc ⟨written ++ rest, i, l, k⟩ =
      readQuotedWord single fuel (c :: acc)
        ⟨rest, i + written.length, l, k + written.length⟩

theorem readsAs_self {c : Char} (solid : isGap c = false) (quote : c ≠ '"') (escape : c ≠ '\\') :
    ReadsAs false [c] c := by
  intro fuel acc rest i l k
  obtain ⟨space, ends⟩ := isGap_eq_false.mp solid
  simp [readQuotedWord, Cursor.peek_cons, space, ends, quote, escape, Cursor.skip_eq]

def singleChar (c : Char) : List Char :=
  if c == '\'' then ['\'', '\''] else [c]

theorem readsAs_singleChar {c : Char} (solid : isGap c = false) :
    ReadsAs true (singleChar c) c := by
  intro fuel acc rest i l k
  obtain ⟨space, ends⟩ := isGap_eq_false.mp solid
  by_cases quote : c = '\''
  · subst quote
    simp [singleChar, readQuotedWord, Cursor.peek_cons, Cursor.meets_one, space, ends,
      Cursor.skip_eq]
  · simp [singleChar, readQuotedWord, Cursor.peek_cons, space, ends, quote, Cursor.skip_eq]

theorem readsAs_letter {e c : Char} (within : isBreak e = false) (length : escapeLength e = 0)
    (letter : escapeChar e = some c) : ReadsAs false ['\\', e] c := by
  intro fuel acc rest i l k
  have solid : isSpace '\\' = false ∧ isBreak '\\' = false := by decide
  simp [readQuotedWord, Cursor.peek_cons, Cursor.peek_one, solid, within, length, letter,
    Cursor.skip_eq]

theorem readsAs_digits {e c : Char} {digits : List Char} (within : isBreak e = false)
    (some_digits : escapeLength e ≠ 0) (length : digits.length = escapeLength e)
    (value : hexChar digits = some c) : ReadsAs false ('\\' :: e :: digits) c := by
  intro fuel acc rest i l k
  have solid : isSpace '\\' = false ∧ isBreak '\\' = false := by decide
  have read : (digits ++ rest).take (escapeLength e) = digits := by rw [← length, List.take_left]
  have skipped : (digits ++ rest).drop (escapeLength e) = rest := by
    rw [← length, List.drop_left]
  simp [readQuotedWord, Cursor.peek_cons, Cursor.peek_one, solid, within, some_digits, read,
    length, value, Cursor.skip_eq, Nat.add_comm 2, skipped]

theorem readsAs_ite {single : Bool} {p : Prop} [Decidable p] {yes no : List Char} {c : Char}
    (holds : p → ReadsAs single yes c) (fails : ¬p → ReadsAs single no c) :
    ReadsAs single (if p then yes else no) c := by
  split
  · exact holds ‹_›
  · exact fails ‹_›

/-- A character with an escape of its own. -/
theorem readsAs_code {e c : Char} {n : Nat} (within : isBreak e = false)
    (length : escapeLength e = 0) (letter : escapeChar e = some (Char.ofNat n))
    (code : (c.toNat == n) = true) : ReadsAs false ['\\', e] c := by
  have same : Char.ofNat n = c := by rw [← beq_iff_eq.mp code, Char.ofNat_toNat]
  exact readsAs_letter within length (same ▸ letter)

theorem readsAs_doubleChar {c : Char} (solid : c ≠ ' ') : ReadsAs false (doubleChar c) c := by
  have valid : c.toNat < 0xD800 ∨ (0xDFFF < c.toNat ∧ c.toNat < 0x110000) := c.valid
  have short {width : Nat} := Nat.length_toDigits_le_iff (n := c.toNat) (by decide : 1 < 16)
    (Nat.succ_pos width)
  refine readsAs_ite (fun quote => ?_) fun unquoted => ?_
  · obtain rfl | rfl : c = '"' ∨ c = '\\' := by simpa using quote
    · exact readsAs_letter rfl rfl rfl
    · exact readsAs_letter rfl rfl rfl
  refine readsAs_ite (fun printable => ?_) fun _ => ?_
  · obtain ⟨quote, escape⟩ : c ≠ '"' ∧ c ≠ '\\' := by simpa using unquoted
    obtain ⟨printable, unbroken⟩ : isPrintable c = true ∧ isBreak c = false := by
      simpa using printable
    have gap : isGap c = false := by
      rw [isGap, unbroken, Bool.or_false, Bool.eq_false_iff]
      exact fun space => solid (eq_of_isSpace space printable)
    exact readsAs_self gap quote escape
  iterate 12 refine readsAs_ite (readsAs_code rfl rfl rfl) fun _ => ?_
  refine readsAs_ite (fun fits => ?_) fun _ => readsAs_ite (fun fits => ?_) fun _ => ?_
  · exact readsAs_digits rfl (by decide) (length_hexDigits (short.mpr (by omega)))
      (hexChar_hexDigits 2 c)
  · exact readsAs_digits rfl (by decide) (length_hexDigits (short.mpr (by omega)))
      (hexChar_hexDigits 4 c)
  · exact readsAs_digits rfl (by decide) (length_hexDigits (short.mpr (by omega)))
      (hexChar_hexDigits 8 c)

end LineCompletion.Yaml

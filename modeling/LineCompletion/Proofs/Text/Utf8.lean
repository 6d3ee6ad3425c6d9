import LineCompletion.Text.Utf8
import Mathlib.Tactic.IntervalCases

/-! # Characters read back from their octets -/

namespace LineCompletion.Text.Utf8

theorem toNat_ofNat {n : Nat} (octet : n < 256) : (UInt8.ofNat n).toNat = n := by
  rw [UInt8.toNat_ofNat', Nat.mod_eq_of_lt octet]

/-! ## First octets -/

theorem lead_one {n : Nat} (small : n < 0x80) : lead (UInt8.ofNat n) = .whole (Char.ofNat n) := by
  simp [lead, toNat_ofNat (Nat.lt_trans small (by decide)), small]

theorem lead_two {n : Nat} (low : 2 ≤ n) (high : n < 0x20) :
    lead (UInt8.ofNat (n + 0xC0)) = .begins { value := n, count := 1 } := by
  have octet : (UInt8.ofNat (n + 0xC0)).toNat = n + 0xC0 := toNat_ofNat (by omega)
  rw [lead, octet, if_neg (by omega), if_neg (by omega), if_pos (by omega), Nat.add_sub_cancel]

theorem lead_three {n : Nat} (high : n < 0x10) :
    lead (UInt8.ofNat (n + 0xE0)) =
      .begins { value := n, count := 2, low := if n = 0 then 0xA0 else 0x80
                high := if n = 0xD then 0x9F else 0xBF } := by
  have octet : (UInt8.ofNat (n + 0xE0)).toNat = n + 0xE0 := toNat_ofNat (by omega)
  rw [lead, octet]
  interval_cases n <;> rfl

theorem lead_four {n : Nat} (high : n < 5) :
    lead (UInt8.ofNat (n + 0xF0)) =
      .begins { value := n, count := 3, low := if n = 0 then 0x90 else 0x80
                high := if n = 4 then 0x8F else 0xBF } := by
  have octet : (UInt8.ofNat (n + 0xF0)).toNat = n + 0xF0 := toNat_ofNat (by omega)
  rw [lead, octet]
  interval_cases n <;> rfl

/-! ## Octets that continue a character -/

theorem piecesFrom_last {value low high n : Nat} (rest : List UInt8) (above : low ≤ n + 0x80)
    (below : n + 0x80 ≤ high) (octet : n < 0x40) :
    piecesFrom (some ⟨value, 1, low, high⟩) (UInt8.ofNat (n + 0x80) :: rest) =
      some (Char.ofNat (value * 64 + n)) :: piecesFrom none rest := by
  have number : (UInt8.ofNat (n + 0x80)).toNat = n + 0x80 := toNat_ofNat (by omega)
  simp only [piecesFrom, number]
  simp [above, below]

theorem piecesFrom_next {value count low high n : Nat} (rest : List UInt8)
    (above : low ≤ n + 0x80) (below : n + 0x80 ≤ high) (octet : n < 0x40) :
    piecesFrom (some ⟨value, count + 2, low, high⟩) (UInt8.ofNat (n + 0x80) :: rest) =
      piecesFrom (some { value := value * 64 + n, count := count + 1 }) rest := by
  have number : (UInt8.ofNat (n + 0x80)).toNat = n + 0x80 := toNat_ofNat (by omega)
  simp only [piecesFrom, number]
  simp [above, below]

theorem piecesFrom_begins {owed : Owed} {b : UInt8} (begins : lead b = .begins owed)
    (rest : List UInt8) : piecesFrom none (b :: rest) = piecesFrom (some owed) rest := by
  simp [piecesFrom, begins]

/-! ## Whole characters -/

/-- The octets of a character are read as that character. -/
theorem piecesFrom_encodeChar (c : Char) (rest : List UInt8) :
    piecesFrom none (String.utf8EncodeChar c ++ rest) = some c :: piecesFrom none rest := by
  have same : Char.ofNat c.val.toNat = c := Char.ofNat_toNat c
  have valid : c.val.toNat < 0xD800 ∨ (0xDFFF < c.val.toNat ∧ c.val.toNat < 0x110000) := c.valid
  rw [String.utf8EncodeChar.eq_1]
  generalize c.val.toNat = n at same valid
  by_cases one : n ≤ 0x7F
  · rw [if_pos one, List.singleton_append, piecesFrom, lead_one (by omega), same]
  by_cases two : n ≤ 0x7FF
  · have value : n / 64 * 64 + n % 64 = n := by omega
    rw [if_neg one, if_pos two, Nat.mod_eq_of_lt (by omega)]
    simp only [List.cons_append, List.nil_append]
    rw [piecesFrom_begins (lead_two (by omega) (by omega)),
      piecesFrom_last rest (by omega) (by omega) (by omega), value, same]
  by_cases three : n ≤ 0xFFFF
  · have value : (n / 4096 * 64 + n / 64 % 64) * 64 + n % 64 = n := by omega
    rw [if_neg one, if_neg two, if_pos three, Nat.mod_eq_of_lt (by omega)]
    simp only [List.cons_append, List.nil_append]
    rw [piecesFrom_begins (lead_three (by omega)),
      piecesFrom_next _ (by split <;> omega) (by split <;> omega) (by omega),
      piecesFrom_last rest (by omega) (by omega) (by omega), value, same]
  · have value :
        ((n / 262144 * 64 + n / 4096 % 64) * 64 + n / 64 % 64) * 64 + n % 64 = n := by omega
    rw [if_neg one, if_neg two, if_neg three, Nat.mod_eq_of_lt (by omega)]
    simp only [List.cons_append, List.nil_append]
    rw [piecesFrom_begins (lead_four (by omega)),
      piecesFrom_next _ (by split <;> omega) (by split <;> omega) (by omega),
      piecesFrom_next _ (by omega) (by omega) (by omega),
      piecesFrom_last rest (by omega) (by omega) (by omega), value, same]

theorem pieces_encode (cs : List Char) : pieces (encode cs) = cs.map some := by
  unfold pieces
  induction cs with
  | nil => rfl
  | cons c cs ih =>
      have first : encode (c :: cs) = String.utf8EncodeChar c ++ encode cs := List.flatMap_cons
      rw [first, piecesFrom_encodeChar, ih, List.map_cons]

theorem decode?_encode (cs : List Char) : decode? (encode cs) = some cs := by
  rw [decode?, pieces_encode]
  induction cs with
  | nil => rfl
  | cons c cs ih => simp [ih]

theorem decodeLossy_encode (cs : List Char) : decodeLossy (encode cs) = cs := by
  simp [decodeLossy, pieces_encode, Function.comp_def]

end LineCompletion.Text.Utf8

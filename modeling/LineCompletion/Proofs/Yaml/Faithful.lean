import LineCompletion.Document.Parse
import LineCompletion.Proofs.Dictionary.RoundTrip
import LineCompletion.Proofs.Number.Digits
import LineCompletion.Proofs.Yaml.Documents

/-! # Records that were written

A number is written in digits, a name as it stands, and a text in a style that reads back as the
same text, whatever it looks like. So what is written of a record is read back as the record.
-/

namespace LineCompletion.Yaml

/-! ## Numbers -/

theorem hexDigit_of_isDigit {c : Char} (digit : c.isDigit = true) :
    hexDigit c = some (c.toNat - '0'.toNat) ∧ c.toNat - '0'.toNat < 10 := by
  obtain ⟨low, high⟩ := toNat_of_isDigit digit
  have within : ('0' ≤ c) ∧ (c ≤ '9') := ⟨low, high⟩
  refine ⟨by simp [hexDigit, within], ?_⟩
  have zero : '0'.toNat = 48 := rfl
  omega

theorem foldlM_digits {cs : List Char} (digits : ∀ c ∈ cs, c.isDigit = true) (value : Nat) :
    (cs.foldlM (fun n c => do
      let d ← hexDigit c
      if d < 10 then some (n * 10 + d) else none) value : Option Nat) =
      some (cs.foldl (fun n c => n * 10 + (c.toNat - '0'.toNat)) value) := by
  induction cs generalizing value with
  | nil => rfl
  | cons c cs ih =>
      obtain ⟨first, later⟩ := List.forall_mem_cons.mp digits
      obtain ⟨read, small⟩ := hexDigit_of_isDigit first
      simp only [List.foldlM_cons, List.foldl_cons, read, small, bind, Option.bind_some, if_true]
      exact ih later _

theorem digits?_digitsOf (n : Nat) : digits? 10 (digitsOf n) = some n := by
  have filled : (digitsOf n).isEmpty = false := by simpa using digitsOf_ne_nil n
  rw [digits?, filled, if_neg Bool.false_ne_true,
    foldlM_digits (fun c member => isDigit_of_mem_digitsOf member), foldl_digitsOf]

theorem splitSign_digitsOf (n : Nat) : splitSign (digitsOf n) = (none, digitsOf n) := by
  obtain ⟨c, cs, same⟩ := List.exists_cons_of_ne_nil (digitsOf_ne_nil n)
  have digit : c.isDigit = true := isDigit_of_mem_digitsOf (n := n) (by simp [same])
  rw [same]
  unfold splitSign
  split
  · rename_i sign
    exact absurd (List.cons.inj sign).1 (ne_of_isDigit digit rfl)
  · rename_i sign
    exact absurd (List.cons.inj sign).1 (ne_of_isDigit digit rfl)
  · rfl

theorem digitsOf_unmarked {n : Nat} {x : Char} {rest : List Char} (other : x.isDigit = false)
    (marked : digitsOf n = '0' :: x :: rest) : False := by
  have digit : x.isDigit = true := isDigit_of_mem_digitsOf (n := n) (by simp [marked])
  simp [other] at digit

theorem zeroPadded_digitsOf (n : Nat) : zeroPadded (digitsOf n) = false := by
  obtain rfl | positive : n = 0 ∨ 0 < n := by omega
  · decide
  · have front := head?_digitsOf positive
    unfold zeroPadded
    split
    · rename_i zero
      simp [zero] at front
    · rfl

theorem integer?_digitsOf (n : Nat) : integer? (digitsOf n) = some (n : Int) := by
  have positive : ((none : Option Bool) == some true) = false := rfl
  simp only [integer?, splitSign_digitsOf, positive, Bool.false_eq_true, if_false]
  split
  · exact (digitsOf_unmarked rfl ‹_›).elim
  · exact (digitsOf_unmarked rfl ‹_›).elim
  · exact (digitsOf_unmarked rfl ‹_›).elim
  · simp [zeroPadded_digitsOf, digits?_digitsOf]

theorem ne_of_letters {s word : String} (filled : s.toList ≠ [])
    (digits : ∀ c ∈ s.toList, c.isDigit = true)
    (letters : (word.toList.all fun c => !c.isDigit) = true) : s ≠ word := by
  rintro rfl
  obtain ⟨c, cs, same⟩ := List.exists_cons_of_ne_nil filled
  have member : c ∈ s.toList := by simp [same]
  have letter := List.all_eq_true.mp letters c member
  simp [digits c member] at letter

theorem plainData_digits {s : String} {n : Nat} (filled : s.toList ≠ [])
    (digits : ∀ c ∈ s.toList, c.isDigit = true) (read : integer? s.toList = some (n : Int))
    (small : n < UInt64.size) : plainData s = some (.int n) := by
  have some_digit : s.isEmpty = false := by
    rw [Bool.eq_false_iff]
    intro empty
    rw [String.isEmpty_iff] at empty
    simp [empty] at filled
  have other (word : String) (letters : (word.toList.all fun c => !c.isDigit) = true) :
      (s == word) = false :=
    beq_eq_false_iff_ne.mpr (ne_of_letters filled digits letters)
  have known : isNull s = false ∧ truth? s = none := by
    simp (disch := decide) [isNull, truth?, other, -beq_eq_false_iff_ne, -beq_iff_eq]
  have within : (-(Nat.pow 2 63 : Int) ≤ (n : Int) && (n : Int) < Nat.pow 2 64) = true := by
    have small : n < 18446744073709551616 := small
    simp
    omega
  simp only [plainData, some_digit, known, Bool.or_self, Bool.false_eq_true, if_false, read]
  rw [if_pos within]

/-! ## Values -/

variable {n : Nat} {words : List String} {x : Json}

instance (name : String) : Decidable (IsKey name) :=
  decidable_of_iff
    (Style.ofText name = .plain ∧ (name.toList.all fun c => !isGap c) = true ∧
      (name.toList.head?.all fun c => c != '-' && c != '.' && c != '\ufeff') = true ∧
      name.toList.length ≤ 1024)
    ⟨fun ⟨style, solid, lead, short⟩ => ⟨style, solid, lead, short⟩,
      fun ⟨style, solid, lead, short⟩ => ⟨style, solid, lead, short⟩⟩

theorem readsBack_plain {s : String} (style : Style.ofText s = .plain) :
    ReadsBack n (.text s) (scalarNode true s) := by
  have read := readsBack_word (n := n) (x := .text s) (bare_of_style style)
    (by simp [valueChars, scalarText, style])
  rwa [String.ofList_toList] at read

theorem word_scalarNode {s : String} {d : Data} (data : plainData s = some d) :
    (scalarNode true s).word = d.word.mapError .schema := by
  simp only [scalarNode, scalar, if_true, data, Node.word]

theorem each_textItems (ss : List String) : (textItems ss).each Node.text = .ok ss := by
  induction ss with
  | nil => rfl
  | cons s ss ih =>
      have first : (textNode s).text = .ok s := rfl
      simp only [textItems, Items.each, first, ih]
      rfl

/-- A value of a word is read back at any indentation. -/
theorem exists_word (keys : ∀ w ∈ words, IsKey w) (isWord : Json.IsWord words x) :
    ∃ node, ReadsBack n x node ∧ node.Shows x := by
  cases isWord with
  | truth b =>
      have bare : Bare (if b then "true" else "false").toList := by
        cases b <;>
          exact ⟨by decide, by decide, by simp [isPrintable], by simp [isBreak], by simp, by simp⟩
      exact ⟨_, readsBack_word (x := .bool b) bare rfl, .bool (by cases b <;> rfl)⟩
  | number k =>
      have bare : Bare (digitsOf k.toNat) :=
        bare_of_digits (digitsOf_ne_nil _) fun c member => isDigit_of_mem_digitsOf member
      have data : plainData (String.ofList (digitsOf k.toNat)) = some (.int k.toNat) := by
        rw [digitsOf, String.ofList_toList]
        exact plainData_digits (digitsOf_ne_nil _)
          (fun c member => isDigit_of_mem_digitsOf member) (integer?_digitsOf _) k.toNat_lt_size
      have written : valueChars n false (.int k.toNat) =
          ' ' :: (digitsOf k.toNat ++ ['\n']) := by
        rfl
      refine ⟨_, readsBack_word bare written, .word ?_ ?_⟩
      · simp only [scalarNode, scalar, if_true, data, Node.isNull]
      · rw [word_scalarNode data, Data.word_int]
        rfl
  | name known => exact ⟨_, readsBack_plain (keys _ known).style, .text rfl⟩

theorem exists_members {ms : List (String × Json)} (names : ∀ m ∈ ms, IsKey m.1)
    (values : ∀ m ∈ ms, ∃ node, ReadsBack n m.2 node ∧ node.Shows m.2) :
    ∃ nodes, MembersReadBack n ms nodes ∧ nodes.Show ms := by
  induction ms with
  | nil => exact ⟨_, membersReadBack_nil, .done⟩
  | cons m ms ih =>
      obtain ⟨name, names⟩ := List.forall_mem_cons.mp names
      obtain ⟨⟨node, written, shows⟩, values⟩ := List.forall_mem_cons.mp values
      obtain ⟨nodes, others, shown⟩ := ih names values
      exact ⟨_, others.cons name written, .more rfl shows shown⟩

theorem exists_field (keys : ∀ w ∈ words, IsKey w) (isField : Json.IsField words x) :
    ∃ node, ReadsBack 0 x node ∧ node.Shows x := by
  cases isField with
  | word isWord => exact exists_word keys isWord
  | text s => exact ⟨_, readsBack_text s, .text rfl⟩
  | texts ss => exact ⟨_, readsBack_texts ss, .texts (each_textItems ss)⟩
  | @record ms isRecord =>
      obtain ⟨m, ms, rfl⟩ := List.exists_cons_of_ne_nil isRecord.filled
      obtain ⟨nodes, written, shown⟩ := exists_members (n := 0 + 2)
        (fun m member => keys _ (isRecord.names m member))
        fun m member => exists_word keys (isRecord.values m member)
      exact ⟨_, written.map, .map shown⟩

/-- The YAML text of a record is read back as the record, if its names and words can be written as
keys. -/
theorem faithful (keys : ∀ w ∈ words, IsKey w) : Codec.Faithful words := by
  intro members isRecord
  obtain ⟨m, ms, rfl⟩ := List.exists_cons_of_ne_nil isRecord.filled
  obtain ⟨nodes, written, shown⟩ := exists_members
    (fun m member => keys _ (isRecord.names m member))
    fun m member => exists_field keys (isRecord.values m member)
  exact ⟨nodes, document_ofMembers written, shown⟩

end LineCompletion.Yaml

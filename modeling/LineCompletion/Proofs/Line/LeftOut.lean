import Mathlib.Data.List.Basic
import LineCompletion.Proofs.Line.Reading

/-! # What reading leaves out

Reading a word puts nothing in and moves nothing: it leaves out backslashes that escape, and the
quotes around a text. So the other characters can be counted, and the end of a word is still the end
of its text.
-/

namespace LineCompletion

namespace Word

/-! ## Nothing is put in -/

theorem unescape_sublist (cs : List Char) : (unescape cs).Sublist cs := by
  fun_induction unescape cs with
  | case1 c rest ih => exact (ih.cons_cons c).cons '\\'
  | case2 c rest lone ih => exact ih.cons_cons c
  | case3 => exact List.Sublist.refl []

theorem readDouble_sublist (cs : List Char) : (readDouble cs).1.Sublist cs := by
  fun_induction readDouble cs with
  | case1 => exact List.Sublist.refl []
  | case2 rest r ih => exact (ih.cons_cons '"').cons '\\'
  | case3 rest r ih => exact (ih.cons_cons '\\').cons '\\'
  | case4 c rest _ _ _ => exact (unescape_sublist rest).cons c
  | case5 c rest _ _ _ r ih => exact ih.cons_cons c

theorem readSingle_sublist (cs : List Char) : (readSingle cs).1.Sublist cs := by
  fun_induction readSingle cs with
  | case1 => exact List.Sublist.refl []
  | case2 c rest _ => exact (unescape_sublist rest).cons c
  | case3 c rest _ r ih => exact ih.cons_cons c

theorem readChars_sublist (cs : List Char) : (readChars cs).1.Sublist cs := by
  fun_cases readChars cs with
  | case1 rest => exact (readDouble_sublist rest).cons '"'
  | case2 rest => exact (readSingle_sublist rest).cons '\''
  | case3 => exact unescape_sublist cs

theorem length_readChars_lt {cs : List Char} (opens : Token.opensQuote cs = true) :
    (readChars cs).1.length < cs.length := by
  cases cs with
  | nil => simp [Token.opensQuote] at opens
  | cons c rest =>
      simp only [Token.opensQuote, Bool.or_eq_true, beq_iff_eq] at opens
      rcases opens with rfl | rfl
      · exact Nat.lt_succ_of_le (readDouble_sublist rest).length_le
      · exact Nat.lt_succ_of_le (readSingle_sublist rest).length_le

theorem plain_of_readChars_eq_self {cs : List Char} (same : (readChars cs).1 = cs) :
    Token.opensQuote cs = false ∧ unescape cs = cs := by
  have bare : Token.opensQuote cs = false := by
    by_contra opens
    have shorter := length_readChars_lt (Bool.not_eq_false _ |>.mp opens)
    rw [same] at shorter
    exact Nat.lt_irrefl _ shorter
  refine ⟨bare, ?_⟩
  rwa [readChars_of_bare bare] at same

theorem slash_notMem_of_unescape_eq_self {cs : List Char} (same : unescape cs = cs)
    (last : cs.getLast? ≠ some '\\') : '\\' ∉ cs := by
  fun_induction unescape cs with
  | case1 c rest ih =>
      have shorter := (unescape_sublist rest).length_le
      have equal := congrArg List.length same
      simp only [List.length_cons] at equal
      omega
  | case2 c rest lone ih =>
      obtain ⟨_, tail⟩ := List.cons.inj same
      cases rest with
      | nil => simpa using Ne.symm (by simpa using last : c ≠ '\\')
      | cons d rest =>
          have head : c ≠ '\\' := fun slash => lone d rest slash rfl
          rw [List.getLast?_cons_cons] at last
          simpa [Ne.symm head] using ih tail last
  | case3 => simp

/-! ## Counting -/

theorem count_unescape {c : Char} (slash : c ≠ '\\') (cs : List Char) :
    (unescape cs).count c = cs.count c := by
  fun_induction unescape cs with
  | case1 d rest ih => simp [List.count_cons, ih, Ne.symm slash]
  | case2 d rest lone ih => simp [List.count_cons, ih]
  | case3 => rfl

theorem count_readDouble {c : Char} (slash : c ≠ '\\') (quote : c ≠ '"') (cs : List Char) :
    (readDouble cs).1.count c = cs.count c := by
  fun_induction readDouble cs with
  | case1 => rfl
  | case2 rest r ih => simp [r, List.count_cons, ih, Ne.symm slash]
  | case3 rest r ih => simp [r, ih, Ne.symm slash]
  | case4 d rest _ _ closes =>
      obtain rfl : d = '"' := by simpa using closes
      simp [count_unescape slash, Ne.symm quote]
  | case5 d rest _ _ _ r ih => simp [r, List.count_cons, ih]

theorem count_readSingle {c : Char} (slash : c ≠ '\\') (quote : c ≠ '\'') (cs : List Char) :
    (readSingle cs).1.count c = cs.count c := by
  fun_induction readSingle cs with
  | case1 => rfl
  | case2 d rest closes =>
      obtain rfl : d = '\'' := by simpa using closes
      simp [count_unescape slash, Ne.symm quote]
  | case3 d rest _ r ih => simp [r, List.count_cons, ih]

/-- Of the quotes only the one that a word opens with is left out. -/
theorem count_readChars {c : Char} (slash : c ≠ '\\') {cs : List Char} (head : cs.head? ≠ some c) :
    (readChars cs).1.count c = cs.count c := by
  fun_cases readChars cs with
  | case1 rest r =>
      have quote : '"' ≠ c := by simpa using head
      simp [r, quote, count_readDouble slash quote.symm]
  | case2 rest r =>
      have quote : '\'' ≠ c := by simpa using head
      simp [r, quote, count_readSingle slash quote.symm]
  | case3 => exact count_unescape slash cs

theorem count_escapeDouble {c : Char} (slash : c ≠ '\\') (cs : List Char) :
    (Literal.escapeDouble cs).count c = cs.count c := by
  induction cs with
  | nil => rfl
  | cons d cs ih =>
      by_cases special : d == '"' || d == '\\'
      · simp [Literal.escapeDouble, special, List.count_cons, ih, Ne.symm slash]
      · simp [Literal.escapeDouble, special, List.count_cons, ih]

/-! ## The end of a word -/

theorem unescape_append {c : Char} (slash : c ≠ '\\') (cs rest : List Char) :
    ∃ front, unescape (cs ++ c :: rest) = front ++ c :: unescape rest := by
  fun_induction unescape cs with
  | case1 d others ih =>
      obtain ⟨front, same⟩ := ih
      exact ⟨d :: front, by simp [unescape, same]⟩
  | case2 d others lone ih =>
      obtain ⟨front, same⟩ := ih
      cases others with
      | nil =>
          -- a backslash at the end takes the character with it, which stays as it is
          by_cases escapes : d = '\\'
          · exact ⟨[], by simp [escapes, unescape]⟩
          · exact ⟨[d], by simp [unescape_cons escapes, unescape_cons slash]⟩
      | cons e others =>
          have plain : d ≠ '\\' := fun escapes => lone e others escapes rfl
          exact ⟨d :: front, by rw [List.cons_append, unescape_cons plain, same, List.cons_append]⟩
  | case3 => exact ⟨[], by simp [unescape_cons slash]⟩

theorem unescape_escapeDouble (cs rest : List Char) :
    unescape (Literal.escapeDouble cs ++ rest) = cs ++ unescape rest := by
  induction cs with
  | nil => rfl
  | cons c cs ih =>
      by_cases special : c == '"' || c == '\\'
      · simp [Literal.escapeDouble, special, unescape, ih]
      · have slash : c ≠ '\\' := by
          rintro rfl
          exact special rfl
        simp [Literal.escapeDouble, special, unescape_cons slash, ih]

/-- A double quote right after an equals sign closes what is open, unless it is closed already. -/
theorem readDouble_equals_quote (cs rest : List Char) :
    ∃ front, (readDouble (cs ++ '=' :: '"' :: rest)).1 = front ++ unescape rest := by
  have closing : readDouble ('=' :: '"' :: rest) = ('=' :: unescape rest, true) := by
    rw [readDouble_cons (by decide) (by decide)]
    simp [readDouble]
  fun_induction readDouble cs with
  | case1 => exact ⟨['='], by simp [closing]⟩
  | case2 others r ih =>
      obtain ⟨front, same⟩ := ih
      exact ⟨'"' :: front, by simp [readDouble, same]⟩
  | case3 others r ih =>
      obtain ⟨front, same⟩ := ih
      exact ⟨'\\' :: front, by simp [readDouble, same]⟩
  | case4 c others _ _ closes =>
      obtain rfl : c = '"' := by simpa using closes
      obtain ⟨front, same⟩ := unescape_append (c := '=') (by decide) others ('"' :: rest)
      exact ⟨front ++ ['=', '"'], by simp [readDouble, same, unescape_cons]⟩
  | case5 c others quote slash open' r ih =>
      obtain ⟨front, same⟩ := ih
      refine ⟨c :: front, ?_⟩
      rw [List.cons_append, readDouble.eq_4]
      · simp [open', same]
      · intro tail escapes starts
        cases others with
        | nil => simp at starts
        | cons d others => exact quote others escapes (by rw [(List.cons.inj starts).1])
      · intro tail escapes starts
        cases others with
        | nil => simp at starts
        | cons d others => exact slash others escapes (by rw [(List.cons.inj starts).1])

theorem readSingle_append_quote (cs rest : List Char) :
    ∃ front, (readSingle (cs ++ '\'' :: rest)).1 = front ++ unescape rest := by
  induction cs with
  | nil => exact ⟨[], by simp [readSingle]⟩
  | cons c cs ih =>
      by_cases closes : c = '\''
      · obtain ⟨front, same⟩ := unescape_append (c := '\'') (by decide) cs rest
        exact ⟨front ++ ['\''], by simp [readSingle, closes, same]⟩
      · obtain ⟨front, same⟩ := ih
        exact ⟨c :: front, by simp [readSingle, closes, same]⟩

end Word

namespace Token

/-- The text of a token is what is left of its word. -/
theorem text_sublist (cs : List Char) : (ofChars cs).text.toList.Sublist cs := by
  rw [text_ofChars]
  cases split : Assignment.split? cs with
  | none => exact Word.readChars_sublist cs
  | some parts =>
      obtain ⟨key, value⟩ := parts
      rw [Assignment.eq_append_of_split? split]
      exact (Word.unescape_sublist key).append ((Word.readChars_sublist value).cons_cons '=')

end Token

end LineCompletion

import GraphRequest.Value.Display
import GraphRequest.Proofs.Value.Numerals

/-!
# Names and other texts

A name stands for itself in a message, and any other value is written out there. What is written out
for a value that is no text does not begin with a small letter, so a name that does is told apart
from it.

* `Value.head_display`: how values that are no texts begin.
* `Value.eq_str_of_text`: a name that begins with a small letter is the text of no other value.
-/

namespace GraphRequest

theorem Decimal.exists_head_digitChars (n : Nat) :
    ∃ c cs, digitChars n = c :: cs ∧ c.isDigit = true := by
  obtain ⟨c, cs, digits⟩ : ∃ c cs, digitChars n = c :: cs :=
    List.exists_cons_of_ne_nil Nat.toDigits_ne_nil
  exact ⟨c, cs, digits, Value.isDigit_digitChars c (digits ▸ List.mem_cons_self)⟩

/-- The text of a number without its sign begins with a digit. -/
theorem Decimal.head_unsignedChars (d : Decimal) :
    ∃ c, d.unsignedChars.head? = some c ∧ c.isDigit = true := by
  obtain ⟨c, cs, digits, digit⟩ := exists_head_digitChars d.digits
  unfold unsignedChars
  rw [digits]
  dsimp only
  generalize (if d.digits = 0 then (1 : Int) else _) = whole
  split
  · unfold pointed
    split
    · exact ⟨'0', rfl, by decide⟩
    · rename_i positive
      obtain ⟨n, count⟩ : ∃ n, whole.toNat = n + 1 := ⟨whole.toNat - 1, by omega⟩
      rw [count]
      dsimp only
      split <;> exact ⟨c, rfl, digit⟩
  · unfold scientific
    cases cs <;> exact ⟨c, rfl, digit⟩

namespace Value

theorem isLower_of_isDigit {c : Char} (digit : c.isDigit = true) : c.isLower = false := by
  have above : c.val ≤ '9'.val := of_decide_eq_true (Bool.and_eq_true_iff.1 digit).2
  refine Bool.eq_false_iff.2 fun lower => ?_
  have below : 'a'.val ≤ c.val := of_decide_eq_true (Bool.and_eq_true_iff.1 lower).1
  exact absurd (UInt32.le_trans below above) (by decide)

/-- A value that is no text is not written with a small letter at its beginning. -/
theorem head_display {v : Value} (other : ∀ s, v ≠ .str s) :
    ∃ c, v.display.toList.head? = some c ∧ c.isLower = false := by
  have signed {cs : List Char} (negative : Prop) [Decidable negative]
      (h : ∃ c, cs.head? = some c ∧ c.isDigit = true) :
      ∃ c, (if negative then '-' :: cs else cs).head? = some c ∧ c.isLower = false := by
    obtain ⟨c, head, digit⟩ := h
    split
    · exact ⟨'-', rfl, by decide⟩
    · exact ⟨c, head, isLower_of_isDigit digit⟩
  have opened (first rest : String) {c : Char} (head : first.toList.head? = some c)
      (upper : c.isLower = false) :
      ∃ c, (first ++ rest).toList.head? = some c ∧ c.isLower = false := by
    rw [String.toList_append, List.head?_append, head]
    exact ⟨c, rfl, upper⟩
  cases v with
  | null => exact ⟨'N', by decide, by decide⟩
  | bool b => cases b <;> exact ⟨_, rfl, by decide⟩
  | int n =>
    obtain ⟨c, cs, digits, digit⟩ := Decimal.exists_head_digitChars n.natAbs
    unfold display
    rw [toList_integerText_eq]
    exact signed (n < 0) ⟨c, by rw [digits, List.head?_cons], digit⟩
  | float d =>
    unfold display
    rw [toList_text]
    exact signed (d.negative = true) d.head_unsignedChars
  | str s => exact absurd rfl (other s)
  | arr items =>
    unfold display
    rw [String.append_assoc]
    exact opened "[" _ (c := '[') (by decide) (by decide)
  | obj fields =>
    unfold display
    rw [String.append_assoc]
    exact opened "\x7b" _ (c := '\x7b') (by decide) (by decide)
  | columns names distinct =>
    unfold display
    simp only [String.append_assoc]
    exact opened "ColumnFunction(columns=" _ (c := 'C') (by decide) (by decide)

/-- A name that begins with a small letter is the text of no other value. -/
theorem eq_str_of_text {v : Value} {name : String} {c : Char}
    (begins : name.toList.head? = some c) (lower : c.isLower = true) (h : v.text = name) :
    v = .str name := by
  by_cases other : ∀ s, v ≠ .str s
  · obtain ⟨d, head, upper⟩ := head_display other
    have written : v.text = v.display := by
      unfold text
      split
      · exact absurd rfl (other _)
      · rfl
    rw [← written, h, begins] at head
    cases head
    rw [lower] at upper
    cases upper
  · push Not at other
    obtain ⟨s, rfl⟩ := other
    rw [← h, text_str]

end Value

end GraphRequest

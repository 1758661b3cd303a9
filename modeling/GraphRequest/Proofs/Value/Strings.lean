import GraphRequest.Value.Json

/-!
# JSON strings

Every character of a JSON string is written so that it is read back as itself, whatever follows: a
character on its own, a letter behind a backslash, one unit of sixteen bits or a pair of them. So a
string is read back from its text, and what follows the string is found.

* `readString_jsonChar`: one character is read back.
* `readString_jsonString`: so is a string.
-/

namespace GraphRequest.Value

/-! ### Units of sixteen bits -/

theorem hexValue?_hexDigit : ∀ d < 16, hexValue? (Text.hexDigit d) = some d := by decide

theorem hexDigits_four (n : Nat) : Text.hexDigits 4 n =
    [Text.hexDigit (n / 16 / 16 / 16 % 16), Text.hexDigit (n / 16 / 16 % 16),
      Text.hexDigit (n / 16 % 16), Text.hexDigit (n % 16)] := rfl

theorem hexNumber?_hexDigits {n : Nat} (small : n < 0x10000) :
    hexNumber? (Text.hexDigits 4 n) = some n := by
  have h₀ := hexValue?_hexDigit (n % 16) (Nat.mod_lt _ (by decide))
  have h₁ := hexValue?_hexDigit (n / 16 % 16) (Nat.mod_lt _ (by decide))
  have h₂ := hexValue?_hexDigit (n / 16 / 16 % 16) (Nat.mod_lt _ (by decide))
  have h₃ := hexValue?_hexDigit (n / 16 / 16 / 16 % 16) (Nat.mod_lt _ (by decide))
  rw [hexDigits_four, hexNumber?]
  simp only [List.foldlM_cons, List.foldlM_nil, h₀, h₁, h₂, h₃, Option.map_some,
    Option.bind_eq_bind, Option.bind_some]
  show some _ = some _
  congr 1
  omega

/-- Whether characters begin with a unit. -/
def BeginsWithUnit (cs : List Char) : Prop :=
  ∃ e f g h rest, cs = '\\' :: 'u' :: e :: f :: g :: h :: rest

theorem readString_of_hexNumber?_eq_none {a b c d : Char} (bad : hexNumber? [a, b, c, d] = none)
    (rest : List Char) : readString ('\\' :: 'u' :: a :: b :: c :: d :: rest) = none := by
  by_cases more : BeginsWithUnit rest
  · obtain ⟨e, f, g, h, rest, rfl⟩ := more
    rw [readString, bad]
    rfl
  · rw [readString, bad]
    · rfl
    · intro e f g h rest' same
      exact more ⟨e, f, g, h, rest', same⟩

/-- A unit that is no first half of a pair is a character. -/
theorem readString_single {a b c d : Char} {n : Nat} (reads : hexNumber? [a, b, c, d] = some n)
    (single : ¬ (0xd800 ≤ n ∧ n < 0xdc00)) (rest : List Char) :
    readString ('\\' :: 'u' :: a :: b :: c :: d :: rest) =
      (readString rest).map fun p => (Char.ofNat n :: p.1, p.2) := by
  by_cases more : BeginsWithUnit rest
  · obtain ⟨e, f, g, h, rest, rfl⟩ := more
    have apart : (decide (0xd800 ≤ n) && decide (n < 0xdc00)) = false := by simpa using single
    rw [readString, reads]
    cases low : hexNumber? [e, f, g, h] with
    | none =>
      rw [readString_of_hexNumber?_eq_none low]
      rfl
    | some m =>
      simp only [Option.bind_eq_bind, Option.bind_some, apart]
      cases readString ('\\' :: 'u' :: e :: f :: g :: h :: rest) <;> rfl
  · rw [readString, reads]
    · cases readString rest <;> rfl
    · intro e f g h rest' same
      exact more ⟨e, f, g, h, rest', same⟩

/-- A pair of units is a character. -/
theorem readString_pair {a b c d e f g h : Char} {m n : Nat}
    (high : hexNumber? [a, b, c, d] = some m) (low : hexNumber? [e, f, g, h] = some n)
    (paired : 0xd800 ≤ m ∧ m < 0xdc00) (rest : List Char) :
    readString ('\\' :: 'u' :: a :: b :: c :: d :: '\\' :: 'u' :: e :: f :: g :: h :: rest) =
      (readString rest).map fun p =>
        (Char.ofNat (0x10000 + (m - 0xd800) * 0x400 + (n - 0xdc00)) :: p.1, p.2) := by
  have together : (decide (0xd800 ≤ m) && decide (m < 0xdc00)) = true := by simpa using paired
  rw [readString, high, low]
  simp only [Option.bind_eq_bind, Option.bind_some, together, if_true]
  cases readString rest <;> rfl

/-! ### Characters -/

/-- A letter behind a backslash is a character. -/
theorem readString_letter {c e : Char} (escape : letterEscape? c = some e) (other : c ≠ 'u')
    (rest : List Char) : readString ('\\' :: c :: rest) =
      (readString rest).map fun p => (e :: p.1, p.2) := by
  rw [readString, escape]
  · cases readString rest <;> rfl
  · intro _ _ _ _ _ _ _ _ _ same
    exact absurd same other
  · intro _ _ _ _ _ same
    exact absurd same other

/-- Any other character but a quote or a backslash is itself. -/
theorem readString_plain {c : Char} (quote : c ≠ '\x22') (backslash : c ≠ '\\')
    (rest : List Char) : readString (c :: rest) =
      (readString rest).map fun p => (c :: p.1, p.2) := by
  rw [readString]
  · cases readString rest <;> rfl
  · exact quote
  · intro _ _ _ _ _ _ _ _ _ same
    exact absurd same backslash
  · intro _ _ _ _ _ same
    exact absurd same backslash
  · intro _ _ same
    exact absurd same backslash

/-- The numbers of characters leave out the halves of pairs. -/
theorem toNat_valid (c : Char) :
    c.toNat < 0xd800 ∨ (0xdfff < c.toNat ∧ c.toNat < 0x110000) := c.valid

/-- A character of one unit is read back. -/
theorem readString_escapedUnit {c : Char} (small : c.toNat < 0x10000) (rest : List Char) :
    readString (escapedUnit c.toNat ++ rest) =
      (readString rest).map fun p => (c :: p.1, p.2) := by
  have reads := hexNumber?_hexDigits small
  rw [hexDigits_four] at reads
  have single : ¬ (0xd800 ≤ c.toNat ∧ c.toNat < 0xdc00) := by
    have := toNat_valid c
    omega
  have same := readString_single reads single rest
  rw [Char.ofNat_toNat] at same
  exact same

/-- A character of two units is read back. -/
theorem readString_escapedPair {c : Char} (large : ¬ c.toNat < 0x10000) (rest : List Char) :
    readString (escapedUnit (0xd800 + (c.toNat - 0x10000) / 0x400) ++
      escapedUnit (0xdc00 + (c.toNat - 0x10000) % 0x400) ++ rest) =
      (readString rest).map fun p => (c :: p.1, p.2) := by
  have valid := toNat_valid c
  generalize hm : 0xd800 + (c.toNat - 0x10000) / 0x400 = m
  generalize hn : 0xdc00 + (c.toNat - 0x10000) % 0x400 = n
  have high := hexNumber?_hexDigits (show m < 0x10000 by omega)
  have low := hexNumber?_hexDigits (show n < 0x10000 by omega)
  rw [hexDigits_four] at high low
  have same := readString_pair high low (by omega) rest
  have number : 0x10000 + (m - 0xd800) * 0x400 + (n - 0xdc00) = c.toNat := by omega
  rw [number, Char.ofNat_toNat] at same
  exact same

/-- The characters that are written as a letter behind a backslash, with that letter. -/
def letterEscapes : List (Char × Char) :=
  [('\x22', '\x22'), ('\\', '\\'), ('\n', 'n'), ('\r', 'r'), ('\t', 't'), ('\x08', 'b'),
    ('\x0c', 'f')]

theorem jsonChar_letter : ∀ p ∈ letterEscapes,
    jsonChar p.1 = ['\\', p.2] ∧ letterEscape? p.2 = some p.1 ∧ p.2 ≠ 'u' := by decide

/-- A character is read back, whatever follows. -/
theorem readString_jsonChar (c : Char) (rest : List Char) :
    readString (jsonChar c ++ rest) = (readString rest).map fun p => (c :: p.1, p.2) := by
  by_cases letter : c ∈ letterEscapes.map Prod.fst
  · obtain ⟨p, listed, rfl⟩ := List.mem_map.1 letter
    obtain ⟨chars, escape, other⟩ := jsonChar_letter _ listed
    rw [chars]
    exact readString_letter escape other rest
  · obtain ⟨quote, backslash, others⟩ : c ≠ '\x22' ∧ c ≠ '\\' ∧
        c ≠ '\n' ∧ c ≠ '\r' ∧ c ≠ '\t' ∧ c ≠ '\x08' ∧ c ≠ '\x0c' := by
      simpa [letterEscapes] using letter
    have chars : jsonChar c = if 0x20 ≤ c.toNat && c.toNat < 0x7f then [c]
        else if c.toNat < 0x10000 then escapedUnit c.toNat
        else escapedUnit (0xd800 + (c.toNat - 0x10000) / 0x400) ++
          escapedUnit (0xdc00 + (c.toNat - 0x10000) % 0x400) := by
      simp [jsonChar, quote, backslash, others]
    rw [chars]
    split
    · exact readString_plain quote backslash rest
    · split
      · rename_i small
        exact readString_escapedUnit small rest
      · rename_i large
        exact readString_escapedPair large rest

/-! ### Strings -/

theorem readString_chars (cs rest : List Char) :
    readString (cs.flatMap jsonChar ++ '\x22' :: rest) = some (cs, rest) := by
  induction cs with
  | nil => rw [List.flatMap_nil, List.nil_append, readString]
  | cons c cs ih =>
    rw [List.flatMap_cons, List.append_assoc, readString_jsonChar, ih]
    rfl

theorem toList_jsonString (s : String) :
    (jsonString s).toList = '\x22' :: (s.toList.flatMap jsonChar ++ ['\x22']) :=
  String.toList_ofList

/-- A string is read back from its text behind the first quote, whatever follows. -/
theorem readString_jsonString (s : String) (rest : List Char) :
    readString ((jsonString s).toList.tail ++ rest) = some (s.toList, rest) := by
  rw [toList_jsonString, List.tail_cons, List.append_assoc]
  exact readString_chars s.toList rest

/-- The texts of two strings with something behind them are the same just if the strings are, and
what is behind them. -/
theorem jsonString_append_inj {s t : String} {rest rest' : List Char}
    (same : (jsonString s).toList ++ rest = (jsonString t).toList ++ rest') :
    s = t ∧ rest = rest' := by
  have tails : (jsonString s).toList.tail ++ rest = (jsonString t).toList.tail ++ rest' := by
    rw [toList_jsonString, toList_jsonString] at same ⊢
    exact (List.cons.inj same).2
  have reads := readString_jsonString s rest
  rw [tails, readString_jsonString] at reads
  obtain ⟨chars, rests⟩ := Prod.mk.inj (Option.some.inj reads)
  exact ⟨(String.toList_inj.1 chars).symm, rests.symm⟩

end GraphRequest.Value

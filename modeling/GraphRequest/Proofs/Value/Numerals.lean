import Mathlib.Algebra.Order.Ring.Nat
import Mathlib.Data.List.TakeWhile
import Mathlib.Tactic.Ring
import GraphRequest.Value.Json
import GraphRequest.Value.Parts

/-!
# Texts of numbers

The text of an integer is read back as that integer. The text of a fraction is read back as the same
fraction, except that some zeros at its end may count as digits. So fractions without such zeros
have different texts, and none of them is the text of an integer.

* `signedValue_integerText`: an integer is read back.
* `fractionOf_text`: so is a fraction, up to zeros at its end.
* `text_inj`: fractions without zeros at their end are told apart by their texts.
-/

namespace GraphRequest

namespace Value

/-! ### Runs of digits -/

theorem ne_of_isDigit {c d : Char} (digit : c.isDigit = true) (other : d.isDigit = false) :
    c ≠ d := by
  rintro rfl
  rw [digit] at other
  cases other

theorem isDigit_digitChars {n : Nat} : ∀ c ∈ Decimal.digitChars n, c.isDigit = true :=
  fun _ h => Nat.isDigit_of_mem_toDigits (by decide) (by decide) h

/-- Only the digits of a run of characters count. -/
theorem digitsValue_eq (cs : List Char) :
    digitsValue cs = Nat.ofDigitChars 10 (cs.filter Char.isDigit) 0 := by
  rw [Nat.ofDigitChars, List.foldl_filter]
  rfl

theorem digitsValue_of_isDigit {cs : List Char} (digits : ∀ c ∈ cs, c.isDigit = true) :
    digitsValue cs = Nat.ofDigitChars 10 cs 0 := by
  rw [digitsValue_eq, List.filter_eq_self.2 digits]

theorem digitsValue_digitChars (n : Nat) : digitsValue (Decimal.digitChars n) = n := by
  rw [digitsValue_of_isDigit isDigit_digitChars]
  exact Nat.ofDigitChars_ten_toDigits

theorem ofDigitChars_zeros (k n : Nat) :
    Nat.ofDigitChars 10 (List.replicate k '0') n = n * 10 ^ k := by
  induction k generalizing n with
  | zero => simp [Nat.ofDigitChars]
  | succ k ih =>
    rw [List.replicate_succ, Nat.ofDigitChars_cons, ih]
    simp only [Char.reduceToNat, Nat.sub_self]
    ring

/-! ### Integers -/

theorem toList_integerText_eq (n : Int) : (Decimal.integerText n).toList =
    if n < 0 then '-' :: Decimal.digitChars n.natAbs else Decimal.digitChars n.natAbs :=
  String.toList_ofList

/-- A text that begins with a digit has no sign. -/
theorem signedValue_of_isDigit {cs : List Char} (digits : ∀ c ∈ cs, c.isDigit = true) :
    signedValue cs = digitsValue cs := by
  unfold signedValue
  split
  · exact absurd (digits '-' (by simp)) (by decide)
  · exact absurd (digits '+' (by simp)) (by decide)
  · rfl

theorem signedValue_integerText (n : Int) :
    signedValue (Decimal.integerText n).toList = n := by
  rw [toList_integerText_eq]
  split
  · show -(digitsValue (Decimal.digitChars n.natAbs) : Int) = n
    rw [digitsValue_digitChars]
    omega
  · rw [signedValue_of_isDigit isDigit_digitChars, digitsValue_digitChars]
    omega

theorem integerText_inj {m n : Int} (same : Decimal.integerText m = Decimal.integerText n) :
    m = n := by
  rw [← signedValue_integerText m, same, signedValue_integerText]

theorem isNumberChar_of_isDigit {c : Char} (digit : c.isDigit = true) : isNumberChar c = true := by
  rw [isNumberChar, digit, Bool.true_or]

theorem isNumberChar_integerText (n : Int) :
    ∀ c ∈ (Decimal.integerText n).toList, isNumberChar c = true := by
  have digits : ∀ c ∈ Decimal.digitChars n.natAbs, isNumberChar c = true :=
    fun c hc => isNumberChar_of_isDigit (isDigit_digitChars c hc)
  rw [toList_integerText_eq]
  split
  · intro c hc
    rcases List.mem_cons.1 hc with rfl | hc
    · rfl
    · exact digits c hc
  · exact digits

theorem integerText_ne_nil (n : Int) : (Decimal.integerText n).toList ≠ [] := by
  rw [toList_integerText_eq]
  split
  · exact List.cons_ne_nil _ _
  · exact Nat.toDigits_ne_nil

/-! ### Fractions -/

/-- Whether a character stands before a power of ten. -/
def isMark (c : Char) : Bool := c == 'e' || c == 'E'

/-- The part of a number before its power of ten. -/
def mantissa (cs : List Char) : List Char := cs.takeWhile fun c => !isMark c

/-- The power of ten of a number. -/
def power (cs : List Char) : Int := signedValue ((cs.dropWhile fun c => !isMark c).drop 1)

/-- The number of places behind the point. -/
def places (cs : List Char) : Nat := (((mantissa cs).dropWhile (· != '.')).drop 1).length

/-- The fraction that a run of number characters writes. -/
def fractionOf (cs : List Char) : Decimal :=
  ⟨cs.head? == some '-', digitsValue (mantissa cs), power cs - places cs⟩

/-- Characters without a mark among them are a mantissa. -/
def Unmarked (cs : List Char) : Prop := ∀ c ∈ cs, isMark c = false

theorem isMark_of_isDigit {c : Char} (digit : c.isDigit = true) : isMark c = false := by
  have h₁ := ne_of_isDigit digit (d := 'e') (by decide)
  have h₂ := ne_of_isDigit digit (d := 'E') (by decide)
  simp [isMark, h₁, h₂]

theorem Unmarked.mantissa {cs : List Char} (h : Unmarked cs) : mantissa cs = cs :=
  List.takeWhile_eq_self_iff.2 fun c hc => by rw [h c hc]; rfl

theorem Unmarked.power {cs : List Char} (h : Unmarked cs) : power cs = 0 := by
  have none' : cs.dropWhile (fun c => !isMark c) = [] :=
    List.dropWhile_eq_nil_iff.2 fun c hc => by rw [h c hc]; rfl
  rw [Value.power, none']
  rfl

theorem mantissa_append {cs : List Char} (h : Unmarked cs) (rest : List Char) :
    mantissa (cs ++ 'e' :: rest) = cs := by
  rw [mantissa, List.takeWhile_append_of_pos fun c hc => by rw [h c hc]; rfl]
  exact List.append_nil cs

theorem power_append {cs : List Char} (h : Unmarked cs) (rest : List Char) :
    power (cs ++ 'e' :: rest) = signedValue rest := by
  rw [power, List.dropWhile_append_of_pos fun c hc => by rw [h c hc]; rfl]
  rfl

/-- The places behind a point that stands behind digits. -/
theorem length_places {whole : List Char} (digits : ∀ c ∈ whole, c.isDigit = true)
    (fraction : List Char) :
    (((whole ++ '.' :: fraction).dropWhile (· != '.')).drop 1).length = fraction.length := by
  have apart (c : Char) (hc : c ∈ whole) : (c != '.') = true := by
    simpa using ne_of_isDigit (digits c hc) (d := '.') (by decide)
  rw [List.dropWhile_append_of_pos apart]
  rfl

/-- Digits without a point have no places behind it. -/
theorem length_no_places {whole : List Char} (digits : ∀ c ∈ whole, c.isDigit = true) :
    ((whole.dropWhile (· != '.')).drop 1).length = 0 := by
  have apart (c : Char) (hc : c ∈ whole) : (c != '.') = true := by
    simpa using ne_of_isDigit (digits c hc) (d := '.') (by decide)
  rw [List.dropWhile_eq_nil_iff.2 apart]
  rfl

/-- Characters write a fraction without a sign: digits, and a power of ten for the last of them. A
point or a mark tells the fraction from an integer. -/
structure Writes (cs : List Char) (digits : Nat) (exponent : Int) : Prop where
  digits : digitsValue (mantissa cs) = digits
  exponent : power cs - places cs = exponent
  chars : ∀ c ∈ cs, isNumberChar c = true
  fractional : ∃ c ∈ cs, c.isDigit = false
  unsigned : cs.head? ≠ some '-'

theorem unmarked_of_isDigit {cs : List Char} (digits : ∀ c ∈ cs, c.isDigit = true) :
    Unmarked cs := fun c hc => isMark_of_isDigit (digits c hc)

/-- Digits before and behind a point are a mantissa. -/
theorem unmarked_pointed {whole fraction : List Char} (hw : ∀ c ∈ whole, c.isDigit = true)
    (hf : ∀ c ∈ fraction, c.isDigit = true) : Unmarked (whole ++ '.' :: fraction) := by
  intro c hc
  rcases List.mem_append.1 hc with hc | hc
  · exact isMark_of_isDigit (hw c hc)
  · rcases List.mem_cons.1 hc with rfl | hc
    · rfl
    · exact isMark_of_isDigit (hf c hc)

theorem digitsValue_pointed {whole fraction : List Char} (hw : ∀ c ∈ whole, c.isDigit = true)
    (hf : ∀ c ∈ fraction, c.isDigit = true) :
    digitsValue (whole ++ '.' :: fraction) = Nat.ofDigitChars 10 (whole ++ fraction) 0 := by
  rw [digitsValue_eq, List.filter_append, List.filter_cons_of_neg (by decide),
    List.filter_eq_self.2 hw, List.filter_eq_self.2 hf]

/-- A point moves the digits behind it down. -/
theorem writes_pointed (whole fraction : List Char) (hw : ∀ c ∈ whole, c.isDigit = true)
    (hf : ∀ c ∈ fraction, c.isDigit = true) :
    Writes (whole ++ '.' :: fraction) (Nat.ofDigitChars 10 (whole ++ fraction) 0)
      (-fraction.length) := by
  have unmarked := unmarked_pointed hw hf
  have digit (c : Char) (hc : c ∈ whole ++ '.' :: fraction) : c.isDigit = true ∨ c = '.' := by
    rcases List.mem_append.1 hc with hc | hc
    · exact .inl (hw c hc)
    · rcases List.mem_cons.1 hc with rfl | hc
      · exact .inr rfl
      · exact .inl (hf c hc)
  refine ⟨?_, ?_, ?_, ⟨'.', by simp, rfl⟩, ?_⟩
  · rw [unmarked.mantissa, digitsValue_pointed hw hf]
  · rw [unmarked.power, places, unmarked.mantissa, length_places hw]
    omega
  · intro c hc
    rcases digit c hc with hc | rfl
    · exact isNumberChar_of_isDigit hc
    · rfl
  · intro negative
    rcases digit '-' (List.mem_of_mem_head? negative) with h | h
    · cases h
    · cases h

theorem digitsValue_zero_cons (cs : List Char) : digitsValue ('0' :: cs) = digitsValue cs := rfl

theorem isDigit_append {cs ds : List Char} (hc : ∀ c ∈ cs, c.isDigit = true)
    (hd : ∀ c ∈ ds, c.isDigit = true) : ∀ c ∈ cs ++ ds, c.isDigit = true :=
  fun c h => (List.mem_append.1 h).elim (hc c) (hd c)

theorem isDigit_zeros (k : Nat) : ∀ c ∈ List.replicate k '0', c.isDigit = true := by
  intro c hc
  rw [List.eq_of_mem_replicate hc]
  rfl

/-- The digits of a number with a point among them or beside them. -/
theorem writes_pointed_digitChars {n : Nat} {exponent : Int}
    (zero : n = 0 → exponent = 0) :
    ∃ k : Nat, Writes (Decimal.pointed (Decimal.digitChars n)
      (if n = 0 then 1 else ((Decimal.digitChars n).length : Int) + exponent))
      (n * 10 ^ k) (exponent - k) := by
  generalize hd : Decimal.digitChars n = ds
  have digits : ∀ c ∈ ds, c.isDigit = true := by
    rw [← hd]
    exact isDigit_digitChars
  have value : Nat.ofDigitChars 10 ds 0 = n := by
    rw [← hd]
    exact Nat.ofDigitChars_ten_toDigits
  have length : n = 0 → ds.length = 1 := by
    rintro rfl
    rw [← hd]
    rfl
  generalize hw : (if n = 0 then 1 else (ds.length : Int) + exponent) = whole
  unfold Decimal.pointed
  split
  · rename_i small
    -- all digits stand behind the point, after some zeros
    refine ⟨0, ?_⟩
    have zeros := isDigit_append (isDigit_zeros whole.natAbs) digits
    have writes := writes_pointed ['0'] _ (isDigit_zeros 1) zeros
    have all : Nat.ofDigitChars 10 (['0'] ++ (List.replicate whole.natAbs '0' ++ ds)) 0 = n := by
      rw [Nat.ofDigitChars_append, Nat.ofDigitChars_append, ofDigitChars_zeros]
      simpa [Nat.ofDigitChars] using value
    rw [all, List.length_append, List.length_replicate] at writes
    have last : -((whole.natAbs + ds.length : Nat) : Int) = exponent - (0 : Nat) := by
      split at hw <;> omega
    rw [last] at writes
    rw [Nat.pow_zero, Nat.mul_one]
    exact writes
  · rename_i large
    dsimp only
    split
    · rename_i fits
      -- the point stands behind all digits and some zeros, and one more zero follows
      refine ⟨whole.toNat - ds.length + 1, ?_⟩
      have zeros := isDigit_append digits (isDigit_zeros (whole.toNat - ds.length))
      have writes := writes_pointed _ ['0'] zeros (isDigit_zeros 1)
      have all : Nat.ofDigitChars 10 (ds ++ List.replicate (whole.toNat - ds.length) '0' ++ ['0']) 0
          = n * 10 ^ (whole.toNat - ds.length + 1) := by
        rw [Nat.ofDigitChars_append, Nat.ofDigitChars_append, ofDigitChars_zeros, value]
        exact (ofDigitChars_zeros 1 _).trans (by ring)
      have last : -((['0'] : List Char).length : Int) =
          exponent - (whole.toNat - ds.length + 1 : Nat) := by
        show (-1 : Int) = _
        split at hw <;> omega
      rw [all, last] at writes
      exact writes
    · rename_i inside
      -- the point stands between the digits
      refine ⟨0, ?_⟩
      have writes := writes_pointed (ds.take whole.toNat) (ds.drop whole.toNat)
        (fun c hc => digits c (List.mem_of_mem_take hc))
        fun c hc => digits c (List.mem_of_mem_drop hc)
      rw [List.take_append_drop, value, List.length_drop] at writes
      have last : -((ds.length - whole.toNat : Nat) : Int) = exponent - (0 : Nat) := by
        split at hw <;> omega
      rw [last] at writes
      rw [Nat.pow_zero, Nat.mul_one]
      exact writes

/-- The characters of a power of ten: a sign and at least two digits. -/
def placeChars (place : Int) : List Char :=
  (if place < 0 then '-' else '+') ::
    if (Decimal.digitChars place.natAbs).length < 2 then '0' :: Decimal.digitChars place.natAbs
    else Decimal.digitChars place.natAbs

theorem signedValue_placeChars (place : Int) : signedValue (placeChars place) = place := by
  have value : digitsValue (if (Decimal.digitChars place.natAbs).length < 2 then
      '0' :: Decimal.digitChars place.natAbs else Decimal.digitChars place.natAbs) =
      place.natAbs := by
    split
    · rw [digitsValue_zero_cons, digitsValue_digitChars]
    · rw [digitsValue_digitChars]
  unfold placeChars
  split
  · show -(digitsValue _ : Int) = place
    rw [value]
    omega
  · show (digitsValue _ : Int) = place
    rw [value]
    omega

theorem isNumberChar_placeChars (place : Int) :
    ∀ c ∈ placeChars place, isNumberChar c = true := by
  intro c hc
  rcases List.mem_cons.1 hc with rfl | hc
  · split <;> rfl
  · split at hc
    · rcases List.mem_cons.1 hc with rfl | hc
      · rfl
      · exact isNumberChar_of_isDigit (isDigit_digitChars c hc)
    · exact isNumberChar_of_isDigit (isDigit_digitChars c hc)

/-- A power of ten behind a mantissa of digits. -/
theorem writes_scaled {m : List Char} (unmarked : Unmarked m)
    (chars : ∀ c ∈ m, isNumberChar c = true) (unsigned : m.head? ≠ some '-') (place : Int) :
    Writes (m ++ 'e' :: placeChars place) (digitsValue m)
      (place - ((m.dropWhile (· != '.')).drop 1).length) := by
  refine ⟨?_, ?_, ?_, ⟨'e', by simp, rfl⟩, ?_⟩
  · rw [mantissa_append unmarked]
  · rw [power_append unmarked, signedValue_placeChars, places, mantissa_append unmarked]
  · intro c hc
    rcases List.mem_append.1 hc with hc | hc
    · exact chars c hc
    · rcases List.mem_cons.1 hc with rfl | hc
      · rfl
      · exact isNumberChar_placeChars place c hc
  · cases m with
    | nil => simp
    | cons c m => exact unsigned

/-- One digit of a number before the point, and a power of ten. -/
theorem writes_scientific_digitChars (n : Nat) (place : Int) :
    Writes (Decimal.scientific (Decimal.digitChars n) place) n
      (place - ((Decimal.digitChars n).length - 1 : Nat)) := by
  generalize hd : Decimal.digitChars n = ds
  have digits : ∀ c ∈ ds, c.isDigit = true := by
    rw [← hd]
    exact isDigit_digitChars
  have value : Nat.ofDigitChars 10 ds 0 = n := by
    rw [← hd]
    exact Nat.ofDigitChars_ten_toDigits
  match ds with
  | d :: e :: rest =>
    have hw : ∀ c ∈ [d], c.isDigit = true := fun c hc => digits c (by simp_all)
    have hf : ∀ c ∈ e :: rest, c.isDigit = true := fun c hc => digits c (.tail _ hc)
    have pointed := writes_pointed [d] (e :: rest) hw hf
    have writes := writes_scaled (unmarked_pointed hw hf) pointed.chars pointed.unsigned place
    rw [digitsValue_pointed hw hf, length_places hw] at writes
    rw [← value]
    exact writes
  | [d] =>
    have writes := writes_scaled (unmarked_of_isDigit digits)
      (fun c hc => isNumberChar_of_isDigit (digits c hc)) ?_ place
    · rw [digitsValue_of_isDigit digits, value, length_no_places digits] at writes
      exact writes
    · rintro ⟨⟩
      exact absurd (digits '-' (by simp)) (by decide)
  | [] => exact absurd hd Nat.toDigits_ne_nil

/-- The digits and the power of ten of a fraction are read back from its text, some zeros at its end
being digits now. -/
theorem writes_unsignedChars {d : Decimal} (zero : d.digits = 0 → d.exponent = 0) :
    ∃ k : Nat, Writes d.unsignedChars (d.digits * 10 ^ k) (d.exponent - k) := by
  unfold Decimal.unsignedChars
  dsimp only
  generalize hw : (if d.digits = 0 then 1
    else ((Decimal.digitChars d.digits).length : Int) + d.exponent) = whole
  split
  · rw [← hw]
    exact writes_pointed_digitChars zero
  · rename_i far
    have nonzero : d.digits ≠ 0 := by
      intro h
      rw [if_pos h] at hw
      rw [← hw] at far
      exact far rfl
    rw [if_neg nonzero] at hw
    have writes := writes_scientific_digitChars d.digits (whole - 1)
    have some' : 0 < (Decimal.digitChars d.digits).length := Nat.length_toDigits_pos
    have last : whole - 1 - ((Decimal.digitChars d.digits).length - 1 : Nat) =
        d.exponent - (0 : Nat) := by omega
    rw [last] at writes
    refine ⟨0, ?_⟩
    rw [Nat.pow_zero, Nat.mul_one]
    exact writes

/-! ### Texts of fractions -/

theorem toList_text (d : Decimal) :
    d.text.toList = if d.negative then '-' :: d.unsignedChars else d.unsignedChars :=
  String.toList_ofList

/-- A sign before a fraction is the sign of the fraction. -/
theorem fractionOf_signed {cs : List Char} {digits : Nat} {exponent : Int}
    (writes : Writes cs digits exponent) (negative : Bool) :
    fractionOf (if negative then '-' :: cs else cs) = ⟨negative, digits, exponent⟩ := by
  cases negative with
  | false =>
    have unsigned : (cs.head? == some '-') = false := by simpa using writes.unsigned
    show fractionOf cs = _
    rw [fractionOf, unsigned, writes.digits, writes.exponent]
  | true =>
    show (⟨true, digitsValue (mantissa cs), power cs - places cs⟩ : Decimal) = _
    rw [writes.digits, writes.exponent]

/-- A fraction is read back from its text, some zeros at its end being digits now. -/
theorem fractionOf_text {d : Decimal} (zero : d.digits = 0 → d.exponent = 0) :
    ∃ k : Nat, fractionOf d.text.toList = ⟨d.negative, d.digits * 10 ^ k, d.exponent - k⟩ := by
  obtain ⟨k, writes⟩ := writes_unsignedChars zero
  refine ⟨k, ?_⟩
  rw [toList_text]
  exact fractionOf_signed writes d.negative

theorem isReduced_iff {d : Decimal} : d.isReduced = true ↔
    d.digits % 10 ≠ 0 ∨ d.digits = 0 ∧ d.exponent = 0 := by
  simp [Decimal.isReduced]

theorem exponent_of_isReduced {d : Decimal} (reduced : d.isReduced = true) (zero : d.digits = 0) :
    d.exponent = 0 := by
  rcases isReduced_iff.1 reduced with h | h
  · rw [zero] at h
    exact absurd rfl h
  · exact h.2

/-- Two forms of a number that differ by zeros at the end are one if neither has such zeros. -/
theorem eq_of_zeros {m n k l : Nat} (hm : m % 10 ≠ 0) (hn : n % 10 ≠ 0)
    (same : m * 10 ^ k = n * 10 ^ l) : m = n ∧ k = l := by
  have shorter {m n k l : Nat} (hn : n % 10 ≠ 0) (same : m * 10 ^ k = n * 10 ^ l) : k ≤ l := by
    by_contra more
    have split : (10 : Nat) ^ k = 10 ^ (k - l - 1) * 10 * 10 ^ l := by
      rw [← pow_succ, ← pow_add]
      congr 1
      omega
    rw [split, ← Nat.mul_assoc, ← Nat.mul_assoc] at same
    have digits := Nat.eq_of_mul_eq_mul_right (Nat.pow_pos (by decide)) same
    rw [← digits] at hn
    exact hn (Nat.mul_mod_left _ _)
  have places : k = l := Nat.le_antisymm (shorter hn same) (shorter hm same.symm)
  subst places
  exact ⟨Nat.eq_of_mul_eq_mul_right (Nat.pow_pos (by decide)) same, rfl⟩

/-- Reduced fractions are told apart by their texts. -/
theorem text_inj {d e : Decimal} (hd : d.isReduced = true) (he : e.isReduced = true)
    (same : d.text = e.text) : d = e := by
  obtain ⟨k, reads⟩ := fractionOf_text (exponent_of_isReduced hd)
  obtain ⟨l, reads'⟩ := fractionOf_text (exponent_of_isReduced he)
  rw [same, reads'] at reads
  obtain ⟨negative, digits, exponent⟩ := Decimal.mk.inj reads
  have pos (k : Nat) : 10 ^ k ≠ 0 := Nat.ne_of_gt (Nat.pow_pos (by decide))
  obtain ⟨d₁, d₂, d₃⟩ := d
  obtain ⟨e₁, e₂, e₃⟩ := e
  cases negative
  rcases isReduced_iff.1 hd with h₁ | ⟨h₁, h₂⟩
  · rcases isReduced_iff.1 he with h₃ | ⟨h₃, _⟩
    · obtain ⟨rfl, rfl⟩ := eq_of_zeros h₃ h₁ digits
      have exponents : d₃ = e₃ := by
        have shifted : e₃ - (l : Int) = d₃ - l := exponent
        omega
      rw [exponents]
    · dsimp only at h₁ h₃ digits
      rw [h₃, Nat.zero_mul] at digits
      have zero := (Nat.mul_eq_zero.1 digits.symm).resolve_right (pos k)
      rw [zero] at h₁
      exact absurd rfl h₁
  · dsimp only at h₁ h₂ digits
    rw [h₁, Nat.zero_mul] at digits
    have zero : e₂ = 0 := (Nat.mul_eq_zero.1 digits).resolve_right (pos l)
    have exponent' : e₃ = 0 := exponent_of_isReduced he zero
    rw [h₁, h₂, zero, exponent']

/-- The characters of a fraction: number characters, not all of which belong to an integer. -/
theorem isNumberChar_text {d : Decimal} (reduced : d.isReduced = true) :
    ∀ c ∈ d.text.toList, isNumberChar c = true := by
  obtain ⟨k, writes⟩ := writes_unsignedChars (exponent_of_isReduced reduced)
  rw [toList_text]
  split
  · intro c hc
    rcases List.mem_cons.1 hc with rfl | hc
    · rfl
    · exact writes.chars c hc
  · exact writes.chars

theorem text_ne_nil {d : Decimal} (reduced : d.isReduced = true) : d.text.toList ≠ [] := by
  obtain ⟨k, writes⟩ := writes_unsignedChars (exponent_of_isReduced reduced)
  obtain ⟨c, hc, _⟩ := writes.fractional
  rw [toList_text]
  split
  · exact List.cons_ne_nil _ _
  · exact List.ne_nil_of_mem hc

/-- No fraction is written as an integer. -/
theorem text_ne_integerText {d : Decimal} (reduced : d.isReduced = true) (n : Int) :
    d.text ≠ Decimal.integerText n := by
  intro same
  obtain ⟨k, writes⟩ := writes_unsignedChars (exponent_of_isReduced reduced)
  obtain ⟨c, hc, other⟩ := writes.fractional
  have texts := congrArg String.toList same
  rw [toList_text, toList_integerText_eq] at texts
  have digit (h : c ∈ Decimal.digitChars n.natAbs) : False := by
    rw [isDigit_digitChars c h] at other
    cases other
  have unsigned : (Decimal.digitChars n.natAbs).head? ≠ some '-' := fun h =>
    absurd (isDigit_digitChars '-' (List.mem_of_mem_head? h)) (by decide)
  split at texts
  · split at texts
    · exact digit ((List.cons.inj texts).2 ▸ hc)
    · rw [← texts] at unsigned
      exact unsigned rfl
  · split at texts
    · have signed := writes.unsigned
      rw [texts] at signed
      exact signed rfl
    · exact digit (texts ▸ hc)

end Value

end GraphRequest

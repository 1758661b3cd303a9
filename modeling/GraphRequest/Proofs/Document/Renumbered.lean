import GraphRequest.Proofs.Document.Spelling
import GraphRequest.Proofs.Value.Numerals

/-!
# Texts with other numbers of variables

Two texts may be the same but for the numbers of the variables that they refer to. The relation is
built up the way texts are written, by characters that are copied and by references that no name
continues, so that it passes over to texts put together, separated and indented.

* `Renumbered`: the relation, for the characters that are copied and the numbers that correspond.
* `Renumbered.append`, `renumbered_intercalate`, `Renumbered.indent`: how texts are put together.
* `shiftRefs`, `Renumbered.eq_shiftRefs`: adding a number to every reference of a text.
-/

namespace GraphRequest.Document.Token

/-- Two texts are the same up to the numbers of the variables that they refer to. -/
inductive Renumbered (P : Char → Prop) (R : Nat → Nat → Prop) : List Char → List Char → Prop
  | nil : Renumbered P R [] []
  | char {c : Char} {cs ds : List Char} (copied : P c) (rest : Renumbered P R cs ds) :
      Renumbered P R (c :: cs) (c :: ds)
  | reference {m n : Nat} {cs ds : List Char} (renumbered : R m n) (closed : Closed cs)
      (rest : Renumbered P R cs ds) :
      Renumbered P R ('$' :: 'v' :: (Decimal.digitChars m ++ cs))
        ('$' :: 'v' :: (Decimal.digitChars n ++ ds))

variable {P Q : Char → Prop} {R : Nat → Nat → Prop} {as bs cs ds : List Char}

/-! ### The relation -/

theorem Renumbered.head?_eq (h : Renumbered P R cs ds) : cs.head? = ds.head? := by
  cases h <;> rfl

theorem Renumbered.closed (h : Renumbered P R cs ds) (closed : Closed cs) : Closed ds := by
  intro c hc
  rw [← h.head?_eq] at hc
  exact closed c hc

/-- The relation is the other way round for the numbers the other way round. -/
theorem Renumbered.symm (h : Renumbered P R cs ds) : Renumbered P (fun m n => R n m) ds cs := by
  induction h with
  | nil => exact .nil
  | char copied rest ih => exact .char copied ih
  | reference renumbered closed rest ih => exact .reference renumbered (rest.closed closed) ih

theorem Renumbered.mono (h : Renumbered P R cs ds) (weaker : ∀ c, P c → Q c) :
    Renumbered Q R cs ds := by
  induction h with
  | nil => exact .nil
  | char copied rest ih => exact .char (weaker _ copied) ih
  | reference renumbered closed rest ih => exact .reference renumbered closed ih

theorem Renumbered.prepend (h : Renumbered P R cs ds) (copied : ∀ a ∈ as, P a) :
    Renumbered P R (as ++ cs) (as ++ ds) := by
  induction as with
  | nil => exact h
  | cons a as ih => exact .char (copied a (.head _)) (ih fun b hb => copied b (.tail _ hb))

/-- A text that is copied as a whole. -/
theorem renumbered_self (copied : ∀ c ∈ cs, P c) : Renumbered P R cs cs := by
  have := Renumbered.nil.prepend (R := R) copied
  rwa [List.append_nil] at this

/-! ### Putting texts together -/

theorem Renumbered.append (h : Renumbered P R as bs) (h' : Renumbered P R cs ds)
    (closed : Closed cs) : Renumbered P R (as ++ cs) (bs ++ ds) := by
  induction h with
  | nil => exact h'
  | char copied rest ih => exact .char copied ih
  | reference renumbered stop rest ih =>
    rw [List.cons_append, List.cons_append, List.append_assoc, List.cons_append, List.cons_append,
      List.append_assoc]
    exact .reference renumbered (stop.append closed) ih

/-- Texts with a separator between them that no name runs into. -/
theorem renumbered_intercalate {α β : Type} (sep : String) {f : α → String} {g : β → String}
    {xs : List α} {ys : List β} (copied : ∀ c ∈ sep.toList, P c) (stop : Closed sep.toList)
    (present : sep.toList ≠ [])
    (each : List.Forall₂ (fun x y => Renumbered P R (f x).toList (g y).toList) xs ys) :
    Renumbered P R (sep.intercalate (xs.map f)).toList (sep.intercalate (ys.map g)).toList := by
  induction each with
  | nil =>
    rw [List.map_nil, List.map_nil, String.intercalate_nil]
    exact .nil
  | @cons x y xs ys head tail ih =>
    cases tail with
    | nil =>
      rw [List.map_cons, List.map_cons, List.map_nil, List.map_nil, String.intercalate_singleton,
        String.intercalate_singleton]
      exact head
    | cons second others =>
      rw [List.map_cons, List.map_cons] at ih
      rw [List.map_cons, List.map_cons, List.map_cons, List.map_cons,
        String.intercalate_cons_cons, String.intercalate_cons_cons, String.toList_append,
        String.toList_append, String.toList_append, String.toList_append, List.append_assoc,
        List.append_assoc]
      refine head.append (ih.prepend copied) ?_
      cases chars : sep.toList with
      | nil => exact absurd chars present
      | cons c cs =>
        rw [chars] at stop
        exact closed_cons (stop c rfl) _

/-! ### Indentation -/

/-- Whether the first line of a text is blank. -/
def startsBlank (cs : List Char) : Bool :=
  ((Text.lines cs).head?.map fun line => line.all Text.isBlank).getD true

theorem indentChars_of_startsBlank (cs : List Char) :
    Text.indentChars cs = (if startsBlank cs then [] else [' ', ' ']) ++ indentRest cs := by
  unfold Text.indentChars startsBlank indentRest
  cases Text.lines cs with
  | nil => rfl
  | cons l ls =>
    rw [List.flatMap_cons, Text.indentLine, List.head?_cons, Option.map_some, Option.getD_some]
    split <;> rfl

/-- Whether a line ends at a character that stands before a text. -/
def endsLine (c : Char) (cs : List Char) : Bool :=
  Text.isLineEnd c && !(c == '\r' && cs.head? == some '\n')

theorem lines_cons (c : Char) (cs : List Char) : Text.lines (c :: cs) =
    if endsLine c cs then [c] :: Text.lines cs
    else match Text.lines cs with
      | [] => [[c]]
      | l :: ls => (c :: l) :: ls := by
  rw [Text.lines]
  rfl

theorem startsBlank_cons (c : Char) (cs : List Char) : startsBlank (c :: cs) =
    (Text.isBlank c && (endsLine c cs || startsBlank cs)) := by
  unfold startsBlank
  rw [lines_cons]
  cases endsLine c cs with
  | true => simp
  | false => cases Text.lines cs <;> simp

theorem indentRest_cons_eq (c : Char) (cs : List Char) : indentRest (c :: cs) =
    c :: if endsLine c cs then Text.indentChars cs else indentRest cs := by
  unfold indentRest
  rw [lines_cons]
  cases endsLine c cs with
  | true => rfl
  | false => cases Text.lines cs <;> rfl

theorem isLineEnd_of_isDigit {c : Char} (h : c.isDigit = true) : Text.isLineEnd c = false :=
  isLineEnd_of_isNameChar (by simp [isNameChar, Char.isAlphanum, h])

theorem Renumbered.startsBlank_eq (h : Renumbered P R cs ds) : startsBlank cs = startsBlank ds := by
  induction h with
  | nil => rfl
  | @char c cs ds copied rest ih =>
    rw [startsBlank_cons, startsBlank_cons, ih, endsLine, endsLine, rest.head?_eq]
  | reference renumbered closed rest ih =>
    have seen (cs : List Char) : startsBlank ('$' :: cs) = false := by
      rw [startsBlank_cons, show Text.isBlank '$' = false by decide, Bool.false_and]
    rw [seen, seen]

/-- Texts that are moved to the right stay the same up to the numbers. The spaces go before the
same lines of both, since a line with a reference is not blank. -/
theorem Renumbered.indentRest (h : Renumbered P R cs ds) (space : P ' ') :
    Renumbered P R (indentRest cs) (indentRest ds) := by
  induction h with
  | nil => exact .nil
  | @char c cs ds copied rest ih =>
    rw [indentRest_cons_eq, indentRest_cons_eq, indentChars_of_startsBlank,
      indentChars_of_startsBlank, rest.startsBlank_eq, endsLine, endsLine, rest.head?_eq]
    refine .char copied ?_
    split
    · refine ih.prepend ?_
      split
      · exact List.forall_mem_nil _
      · simpa using space
    · exact ih
  | @reference m n cs ds renumbered closed rest ih =>
    have digits {n : Nat} : ∀ c ∈ '$' :: 'v' :: Decimal.digitChars n, Text.isLineEnd c = false := by
      intro c hc
      rcases List.mem_cons.1 hc with rfl | hc
      · decide
      · rcases List.mem_cons.1 hc with rfl | hc
        · decide
        · exact isLineEnd_of_isDigit (Value.isDigit_digitChars c hc)
    have whole (n : Nat) (cs : List Char) :
        Token.indentRest ('$' :: 'v' :: (Decimal.digitChars n ++ cs)) =
          '$' :: 'v' :: (Decimal.digitChars n ++ Token.indentRest cs) :=
      indentRest_append digits cs
    rw [whole, whole]
    exact .reference renumbered (closed_indentRest closed) ih

theorem Renumbered.indent (h : Renumbered P R cs ds) (space : P ' ') :
    Renumbered P R (Text.indentChars cs) (Text.indentChars ds) := by
  rw [indentChars_of_startsBlank, indentChars_of_startsBlank, h.startsBlank_eq]
  refine (h.indentRest space).prepend ?_
  split
  · exact List.forall_mem_nil _
  · simpa using space

/-! ### Adding to every reference -/

/-- A text behind a dollar sign, with a number added to the one of a variable at its start. -/
def shiftHead (k : Nat) : List Char → List Char
  | 'v' :: cs => match cs.takeWhile Char.isDigit with
    | [] => 'v' :: cs
    | ds => 'v' :: (Decimal.digitChars (Value.digitsValue ds + k) ++ cs.dropWhile Char.isDigit)
  | cs => cs

/-- A text with a number added to that of every variable it refers to. -/
def shiftRefs (k : Nat) : List Char → List Char
  | [] => []
  | c :: cs => if c = '$' then c :: shiftHead k (shiftRefs k cs) else c :: shiftRefs k cs

theorem shiftRefs_append {k : Nat} (plain : ∀ a ∈ as, a ≠ '$') :
    shiftRefs k (as ++ cs) = as ++ shiftRefs k cs := by
  induction as with
  | nil => rfl
  | cons a as ih =>
    rw [List.cons_append, shiftRefs, if_neg (plain a (.head _)),
      ih fun b hb => plain b (.tail _ hb)]
    rfl

theorem digitChars_ne_nil (n : Nat) : Decimal.digitChars n ≠ [] := Nat.toDigits_ne_nil

/-- The number of a reference is read as far as its digits go. -/
theorem shiftHead_digits {k n : Nat} (closed : Closed cs) :
    shiftHead k ('v' :: (Decimal.digitChars n ++ cs)) =
      'v' :: (Decimal.digitChars (n + k) ++ cs) := by
  have stop : cs.takeWhile Char.isDigit = [] ∧ cs.dropWhile Char.isDigit = cs := by
    cases cs with
    | nil => exact ⟨rfl, rfl⟩
    | cons c cs =>
      have none : c.isDigit = false := by
        have := closed c rfl
        simp only [isNameChar, Char.isAlphanum, Bool.or_eq_false_iff] at this
        exact this.1.2
      rw [List.takeWhile_cons, List.dropWhile_cons, none]
      exact ⟨rfl, rfl⟩
  have digits := Value.isDigit_digitChars (n := n)
  rw [shiftHead, List.takeWhile_append_of_pos digits, List.dropWhile_append_of_pos digits, stop.1,
    stop.2, List.append_nil]
  split
  · rename_i none
    exact absurd none (digitChars_ne_nil n)
  · rw [Value.digitsValue_digitChars]

/-- A text whose numbers are all greater by a number, and that has no other dollar signs than those
of its references, is the text with the number added. -/
theorem Renumbered.eq_shiftRefs {k : Nat}
    (h : Renumbered (· ≠ '$') (fun m n => n = m + k) cs ds) : ds = shiftRefs k cs := by
  induction h with
  | nil => rfl
  | char copied rest ih => rw [shiftRefs, if_neg copied, ih]
  | @reference m n cs ds renumbered closed rest ih =>
    have plain : ∀ c ∈ 'v' :: Decimal.digitChars m, c ≠ '$' := by
      intro c hc
      rcases List.mem_cons.1 hc with rfl | hc
      · decide
      · exact Value.ne_of_isDigit (Value.isDigit_digitChars c hc) (by decide)
    have inside : shiftRefs k ('v' :: (Decimal.digitChars m ++ cs)) =
        'v' :: (Decimal.digitChars m ++ shiftRefs k cs) := shiftRefs_append plain
    rw [shiftRefs, if_pos rfl, inside, ← ih, shiftHead_digits (rest.closed closed), renumbered]

end GraphRequest.Document.Token

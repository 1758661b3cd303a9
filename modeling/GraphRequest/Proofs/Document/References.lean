import Mathlib.Data.List.TakeWhile
import GraphRequest.Proofs.Document.Spelling

/-!
# The variables that a text refers to

A text refers to a variable by a dollar sign and the name of the variable behind it. References are
read off the characters alone, from left to right, so they are found in any text, whether it is one
of the query language or not.

* `references`: the variables that a text refers to.
* `references_append`, `references_intercalate`: references of texts one after the other.
* `references_indentChars`: moving lines to the right leaves the references as they are.
-/

namespace GraphRequest.Text

open Document.Token (indentRest isNameChar)

/-- The characters of the names of variables: those of other names, and the sign of a number. -/
def isVariableChar (c : Char) : Bool := isNameChar c || c == '-'

/-- The variables that a text refers to, from left to right: what stands behind its dollar signs. -/
def references : List Char → List String
  | [] => []
  | c :: cs =>
    if c = '$' then String.ofList (cs.takeWhile isVariableChar) :: references cs
    else references cs

/-- The first character of a text, if there is one, does not continue the name of a variable. -/
def Apart (cs : List Char) : Prop := ∀ c ∈ cs.head?, isVariableChar c = false

theorem apart_cons {c : Char} (h : isVariableChar c = false) (cs : List Char) :
    Apart (c :: cs) := by
  intro d hd
  cases hd
  exact h

theorem isLineEnd_of_isVariableChar {c : Char} (h : isVariableChar c = true) :
    isLineEnd c = false := by
  rcases Bool.or_eq_true_iff.1 h with name | sign
  · exact Document.Token.isLineEnd_of_isNameChar name
  · rw [beq_iff_eq.1 sign]
    decide

theorem ne_of_isVariableChar {c d : Char} (h : isVariableChar c = true)
    (other : isVariableChar d = false) : c ≠ d := by
  rintro rfl
  rw [h] at other
  cases other

/-- A text without dollar signs refers to nothing. -/
theorem references_of_plain {n : List Char} (plain : '$' ∉ n) (cs : List Char) :
    references (n ++ cs) = references cs := by
  induction n with
  | nil => rfl
  | cons c n ih =>
    rw [List.mem_cons, not_or] at plain
    rw [List.cons_append, references, if_neg (Ne.symm plain.1), ih plain.2]

theorem references_of_plain_self {n : List Char} (plain : '$' ∉ n) : references n = [] := by
  have same := references_of_plain plain []
  rwa [List.append_nil] at same

theorem takeWhile_append_of_apart {ds : List Char} (apart : Apart ds) (cs : List Char) :
    (cs ++ ds).takeWhile isVariableChar = cs.takeWhile isVariableChar := by
  induction cs with
  | nil =>
    cases ds with
    | nil => rfl
    | cons d ds => rw [List.nil_append, List.takeWhile_cons_of_neg (by simp [apart d rfl])]; rfl
  | cons c cs ih => rw [List.cons_append, List.takeWhile_cons, List.takeWhile_cons, ih]

theorem references_append {ds : List Char} (apart : Apart ds) (cs : List Char) :
    references (cs ++ ds) = references cs ++ references ds := by
  induction cs with
  | nil => rfl
  | cons c cs ih =>
    rw [List.cons_append, references, references, takeWhile_append_of_apart apart, ih]
    split <;> rfl

/-- A dollar sign with the name of a variable is one reference. -/
theorem references_variable {n : List Char} (name : ∀ c ∈ n, isVariableChar c = true) :
    references ('$' :: n) = [String.ofList n] := by
  have plain : '$' ∉ n := fun h => ne_of_isVariableChar (name _ h) (by decide) rfl
  rw [references, if_pos rfl, references_of_plain_self plain, List.takeWhile_eq_self_iff.2 name]

/-- Texts with a separator between them refer to what each of them refers to. -/
theorem references_intercalate {sep : String} {c : Char} {cs : List Char}
    (chars : sep.toList = c :: cs) (apart : isVariableChar c = false) (plain : '$' ∉ sep.toList)
    (texts : List String) :
    references (sep.intercalate texts).toList = texts.flatMap fun t => references t.toList := by
  induction texts with
  | nil => rfl
  | cons t ts ih =>
    cases ts with
    | nil => simp
    | cons u us =>
      have behind : Apart (sep.toList ++ (sep.intercalate (u :: us)).toList) := by
        rw [chars]
        exact apart_cons apart _
      rw [String.intercalate_cons_cons, String.toList_append, String.toList_append,
        List.append_assoc, references_append behind, references_of_plain plain, ih]
      rfl

/-! ### Indentation -/

theorem takeWhile_indentRest (cs : List Char) :
    (indentRest cs).takeWhile isVariableChar = cs.takeWhile isVariableChar := by
  induction cs with
  | nil => rfl
  | cons c cs ih =>
    rcases Document.Token.indentRest_cons c cs with same | ⟨ends, same⟩
    · rw [same, List.takeWhile_cons, List.takeWhile_cons, ih]
    · have other : ¬ isVariableChar c = true := by
        intro name
        rw [isLineEnd_of_isVariableChar name] at ends
        cases ends
      rw [same, List.takeWhile_cons_of_neg other, List.takeWhile_cons_of_neg other]

theorem references_indentChars_of_indentRest {cs : List Char}
    (h : references (indentRest cs) = references cs) :
    references (indentChars cs) = references cs := by
  rcases Document.Token.indentChars_eq cs with same | same
  · rw [same, h]
  · rw [same]
    exact h

/-- A name stays whole when a text is indented, as it has no line ends in it. -/
theorem references_indentRest (cs : List Char) : references (indentRest cs) = references cs := by
  induction cs with
  | nil => rfl
  | cons c cs ih =>
    rcases Document.Token.indentRest_cons c cs with same | ⟨ends, same⟩
    · rw [same, references, references, takeWhile_indentRest, ih]
    · have other : c ≠ '$' := by
        rintro rfl
        exact absurd ends (by decide)
      rw [same, references, if_neg other, references_indentChars_of_indentRest ih, references,
        if_neg other]

theorem references_indentChars (cs : List Char) : references (indentChars cs) = references cs :=
  references_indentChars_of_indentRest (references_indentRest cs)

end GraphRequest.Text

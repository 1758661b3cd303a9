import GraphRequest.Proofs.Document.Matching

/-!
# Texts of selections

A text of selections goes into a selection set as it is, but its lines are moved to the right. What
is read there is a text of as many selections with the same tokens up to the values of strings; it
is the same selections if and only if no string changes.

* `selectionsOf`, `IsSelections`: the selections that a text is by itself.
* `IsSelections.moved`: what such a text is when it is moved to the right.
* `Steady`: the text keeps its tokens.
-/

namespace GraphRequest.Document

open Token (Matches ofChars?_eq_some)
open List (Forall₂)

variable {text : String} {ss : List Selection}

/-! ### Selections by themselves -/

/-- The selections that a text is by itself, none if it is no sequence of selections. -/
def selectionsOf (text : String) : List Selection :=
  match Token.ofChars? text.toList with
  | none => []
  | some ts =>
    match readSelections (2 * ts.length + 1) (ts ++ [.punctuator '\x7d']) with
    | some (ss, []) => ss
    | _ => []

/-- A text is a sequence of selections by itself, at least one. -/
def IsSelections (text : String) : Prop :=
  ∃ ss : List Selection, ss ≠ [] ∧ selectionsValid ss = true ∧
    Token.ofChars? text.toList = some (selectionTokens ss)

theorem selectionsOf_eq (valid : selectionsValid ss = true)
    (tokens : Token.ofChars? text.toList = some (selectionTokens ss)) : selectionsOf text = ss := by
  have read := (readAllSelections_tokens (2 * (selectionTokens ss).length + 1)).2.2 ss [] valid
    (Nat.le_refl _)
  simp only [selectionsOf, tokens, read]

theorem isSelections_iff : IsSelections text ↔ selectionsOf text ≠ [] ∧
    selectionsValid (selectionsOf text) = true ∧
    Token.ofChars? text.toList = some (selectionTokens (selectionsOf text)) := by
  constructor
  · rintro ⟨ss, present, valid, tokens⟩
    rw [selectionsOf_eq valid tokens]
    exact ⟨present, valid, tokens⟩
  · exact fun h => ⟨_, h⟩

/-- A blank text is no selections. -/
theorem selectionsOf_of_isBlankText (h : Text.isBlankText text = true) :
    selectionsOf text = [] := by
  unfold selectionsOf
  split
  · rfl
  · rename_i ts lexed
    have empty : ts = [] :=
      Token.eq_nil_of_lexes_blank (ofChars?_eq_some.1 lexed) (List.all_eq_true.1 h)
    rw [empty]
    rfl

/-- Without the blanks at its ends a text is the same selections. -/
theorem IsSelections.strip (h : IsSelections text) :
    IsSelections (Text.strip text) ∧ selectionsOf (Text.strip text) = selectionsOf text := by
  obtain ⟨ss, present, valid, tokens⟩ := h
  have stripped : Token.ofChars? (Text.strip text).toList = some (selectionTokens ss) := by
    rw [Text.strip, String.toList_ofList]
    exact ofChars?_eq_some.2 (ofChars?_eq_some.1 tokens).strip
  refine ⟨⟨ss, present, valid, stripped⟩, ?_⟩
  rw [selectionsOf_eq valid stripped, selectionsOf_eq valid tokens]

/-! ### Moved to the right -/

theorem toList_iterate_indent (n : Nat) (text : String) :
    (Text.indent^[n] text).toList = Text.indentChars^[n] text.toList := by
  induction n with
  | zero => rfl
  | succ n ih =>
    rw [Function.iterate_succ_apply', Function.iterate_succ_apply', Text.indent,
      String.toList_ofList, ih]

/-- A text of selections that is moved to the right is one of as many selections, with the same
tokens up to the values of strings. -/
theorem IsSelections.moved (h : IsSelections text) (n : Nat) :
    IsSelections (Text.indent^[n] text) ∧
      (selectionsOf (Text.indent^[n] text)).length = (selectionsOf text).length ∧
      Forall₂ Matches (selectionTokens (selectionsOf text))
        (selectionTokens (selectionsOf (Text.indent^[n] text))) := by
  obtain ⟨present, valid, tokens⟩ := isSelections_iff.1 h
  obtain ⟨us, lexes, matching⟩ := (ofChars?_eq_some.1 tokens).moved n
  obtain ⟨ss, rfl, same, length⟩ := exists_selections_of_matches _ matching
  rw [valid] at same
  have moved : Token.ofChars? (Text.indent^[n] text).toList = some (selectionTokens ss) := by
    rw [toList_iterate_indent]
    exact ofChars?_eq_some.2 lexes
  rw [selectionsOf_eq same moved]
  refine ⟨⟨ss, ?_, same, moved⟩, length, matching⟩
  rintro rfl
  exact present (List.eq_nil_of_length_eq_zero length.symm)

/-- A text keeps its tokens when it is moved to the right, the values of its strings included. -/
def Steady (n : Nat) (text : String) : Prop :=
  Token.ofChars? (Text.indent^[n] text).toList = Token.ofChars? text.toList

/-- A text of selections is the same selections when it is moved to the right if and only if it
keeps its tokens. -/
theorem IsSelections.moved_eq_iff (h : IsSelections text) (n : Nat) :
    selectionsOf (Text.indent^[n] text) = selectionsOf text ↔ Steady n text := by
  obtain ⟨_, valid, tokens⟩ := isSelections_iff.1 h
  obtain ⟨_, _, moved⟩ := isSelections_iff.1 (h.moved n).1
  unfold Steady
  constructor
  · intro same
    rw [moved, tokens, same]
  · intro same
    rw [tokens] at same
    exact selectionsOf_eq valid same

/-- A text of one line keeps its tokens. -/
theorem steady_of_isLineEnd (h : ∀ c ∈ text.toList, Text.isLineEnd c = false)
    {ts : List Token} (tokens : Token.ofChars? text.toList = some ts) (n : Nat) :
    Steady n text := by
  obtain ⟨m, ds, same, padded⟩ := Token.exists_padded_indentChars n text.toList
  have whole : ds = text.toList := by
    rw [← List.append_nil text.toList] at padded
    obtain ⟨es, rfl, nothing⟩ := padded.of_append h
    cases nothing
    exact List.append_nil _
  rw [Steady, tokens, toList_iterate_indent, same, whole]
  exact ofChars?_eq_some.2 ((ofChars?_eq_some.1 tokens).spaces m)

end GraphRequest.Document

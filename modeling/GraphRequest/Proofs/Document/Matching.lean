import GraphRequest.Proofs.Document.Padding
import GraphRequest.Proofs.Document.Readback

/-!
# Selections with other strings

Tokens that are those of some selections up to the values of strings are the tokens of selections
again: as many as before, and of the grammar when the first ones are.

* `eq_of_matches`: without strings the tokens are the same.
* `exists_selections_of_matches`: the selections that such tokens belong to.
-/

namespace GraphRequest.Document

open Token (Matches)
open List (Forall₂)

variable {ts us : List Token}

/-! ### Tokens -/

/-- Whether a token is a string. -/
def Token.isText : Token → Bool
  | .string _ => true
  | .block _ => true
  | _ => false

theorem Token.Matches.eq_of_isText {t u : Token} (h : Matches t u) (plain : t.isText = false) :
    u = t := by
  cases h with
  | same => rfl
  | string => cases plain
  | block => cases plain

/-- Tokens without strings match only themselves. -/
theorem eq_of_matches (h : Forall₂ Matches ts us) (plain : ∀ t ∈ ts, t.isText = false) :
    us = ts := by
  induction h with
  | nil => rfl
  | cons first others ih =>
    rw [first.eq_of_isText (plain _ (.head _)), ih fun t ht => plain t (.tail _ ht)]

theorem exists_append_of_forall₂ {α β : Type} {R : α → β → Prop} {as bs : List α} {cs : List β}
    (h : Forall₂ R (as ++ bs) cs) :
    ∃ ds es, cs = ds ++ es ∧ Forall₂ R as ds ∧ Forall₂ R bs es := by
  induction as generalizing cs with
  | nil => exact ⟨[], cs, rfl, .nil, h⟩
  | cons a as ih =>
    cases h with
    | cons first others =>
      obtain ⟨ds, es, rfl, left, right⟩ := ih others
      exact ⟨_ :: ds, es, rfl, .cons first left, right⟩

/-- A token that is no string is kept in front. -/
theorem exists_cons_of_matches {t : Token} (h : Forall₂ Matches (t :: ts) us)
    (plain : t.isText = false) : ∃ vs, us = t :: vs ∧ Forall₂ Matches ts vs := by
  cases h with
  | cons first others => exact ⟨_, by rw [first.eq_of_isText plain], others⟩

/-- Marks that are no strings are kept around tokens. -/
theorem exists_enclosed_of_matches {t t' : Token} (h : Forall₂ Matches (t :: (ts ++ [t'])) us)
    (opens : t.isText = false) (closes : t'.isText = false) :
    ∃ vs, us = t :: (vs ++ [t']) ∧ Forall₂ Matches ts vs := by
  obtain ⟨us, rfl, inside⟩ := exists_cons_of_matches h opens
  obtain ⟨vs, last, rfl, before, behind⟩ := exists_append_of_forall₂ inside
  obtain ⟨none', rfl, nothing⟩ := exists_cons_of_matches behind closes
  cases nothing
  exact ⟨vs, rfl, before⟩

/-! ### Literals -/

mutual

/-- A literal with other strings in it. -/
theorem Literal.exists_of_matches (v : Literal) {us : List Token}
    (h : Forall₂ Matches v.tokens us) :
    ∃ w : Literal, us = w.tokens ∧ ∀ constant, w.isValid constant = v.isValid constant := by
  have plain (texts : ∀ t ∈ v.tokens, t.isText = false) :
      ∃ w : Literal, us = w.tokens ∧ ∀ constant, w.isValid constant = v.isValid constant :=
    ⟨v, eq_of_matches h texts, fun _ => rfl⟩
  match v with
  | .string _ =>
    cases h with
    | cons first others =>
      cases others
      cases first with
      | same => exact ⟨_, rfl, fun _ => rfl⟩
      | string _ w => exact ⟨.string w, rfl, fun _ => rfl⟩
  | .block _ =>
    cases h with
    | cons first others =>
      cases others
      cases first with
      | same => exact ⟨_, rfl, fun _ => rfl⟩
      | block _ w => exact ⟨.block w, rfl, fun _ => rfl⟩
  | .list items =>
    obtain ⟨us, rfl, inside⟩ := exists_enclosed_of_matches h rfl rfl
    obtain ⟨items', rfl, valid⟩ := exists_items_of_matches items inside
    exact ⟨.list items', rfl, valid⟩
  | .object fields =>
    obtain ⟨us, rfl, inside⟩ := exists_enclosed_of_matches h rfl rfl
    obtain ⟨fields', rfl, valid, _⟩ := exists_entries_of_matches fields inside
    exact ⟨.object fields', rfl, valid⟩
  | .var _ => exact plain (by simp [Literal.tokens, Token.isText])
  | .int _ => exact plain (by simp [Literal.tokens, Token.isText])
  | .float _ => exact plain (by simp [Literal.tokens, Token.isText])
  | .bool _ => exact plain (by simp [Literal.tokens, Token.isText])
  | .null => exact plain (by simp [Literal.tokens, Token.isText])
  | .enum _ => exact plain (by simp [Literal.tokens, Token.isText])

/-- The items of a list with other strings in them. -/
theorem exists_items_of_matches (vs : List Literal) {us : List Token}
    (h : Forall₂ Matches (itemTokens vs) us) :
    ∃ ws : List Literal, us = itemTokens ws ∧
      ∀ constant, itemsValid constant ws = itemsValid constant vs := by
  match vs with
  | [] =>
    cases h
    exact ⟨[], rfl, fun _ => rfl⟩
  | v :: vs =>
    obtain ⟨us, us', rfl, first, others⟩ := exists_append_of_forall₂ h
    obtain ⟨w, rfl, valid⟩ := v.exists_of_matches first
    obtain ⟨ws, rfl, allValid⟩ := exists_items_of_matches vs others
    exact ⟨w :: ws, rfl, fun constant => by rw [itemsValid, itemsValid, valid, allValid]⟩

/-- Named literals with other strings in them. -/
theorem exists_entries_of_matches (es : List (String × Literal)) {us : List Token}
    (h : Forall₂ Matches (entryTokens es) us) :
    ∃ es' : List (String × Literal), us = entryTokens es' ∧
      (∀ constant, entriesValid constant es' = entriesValid constant es) ∧
      es'.isEmpty = es.isEmpty := by
  match es with
  | [] =>
    cases h
    exact ⟨[], rfl, fun _ => rfl, rfl⟩
  | (name, v) :: es =>
    obtain ⟨us, rfl, h₁⟩ := exists_cons_of_matches h rfl
    obtain ⟨us, rfl, h₂⟩ := exists_cons_of_matches h₁ rfl
    obtain ⟨us, us', rfl, first, others⟩ := exists_append_of_forall₂ h₂
    obtain ⟨w, rfl, valid⟩ := v.exists_of_matches first
    obtain ⟨es', rfl, allValid, _⟩ := exists_entries_of_matches es others
    refine ⟨(name, w) :: es', rfl, fun constant => ?_, rfl⟩
    rw [entriesValid, entriesValid, valid, allValid]

end

theorem exists_arguments_of_matches (arguments : List Argument)
    (h : Forall₂ Matches (argumentTokens arguments) us) :
    ∃ arguments' : List Argument, us = argumentTokens arguments' ∧
      ∀ constant, entriesValid constant arguments' = entriesValid constant arguments := by
  cases arguments with
  | nil =>
    cases h
    exact ⟨[], rfl, fun _ => rfl⟩
  | cons a as =>
    obtain ⟨us, rfl, inside⟩ := exists_enclosed_of_matches h rfl rfl
    obtain ⟨arguments', rfl, valid, present⟩ := exists_entries_of_matches (a :: as) inside
    refine ⟨arguments', ?_, valid⟩
    rw [argumentTokens, present]
    rfl

theorem exists_directives_of_matches (ds : List Directive)
    (h : Forall₂ Matches (directiveTokens ds) us) :
    ∃ ds' : List Directive, us = directiveTokens ds' ∧
      ∀ constant, ds'.all (Directive.isValid constant) = ds.all (Directive.isValid constant) := by
  induction ds generalizing us with
  | nil =>
    cases h
    exact ⟨[], rfl, fun _ => rfl⟩
  | cons d ds ih =>
    obtain ⟨us, us', rfl, first, others⟩ := exists_append_of_forall₂ h
    obtain ⟨us, rfl, h₁⟩ := exists_cons_of_matches first rfl
    obtain ⟨us, rfl, h₂⟩ := exists_cons_of_matches h₁ rfl
    obtain ⟨arguments, rfl, valid⟩ := exists_arguments_of_matches d.arguments h₂
    obtain ⟨ds', rfl, allValid⟩ := ih others
    refine ⟨⟨d.name, arguments⟩ :: ds', rfl, fun constant => ?_⟩
    rw [List.all_cons, List.all_cons, allValid, Directive.isValid, valid, Directive.isValid]

/-! ### Selections -/

theorem isText_of_nameTokens {aliasName : Option String} {name : String} :
    ∀ t ∈ nameTokens aliasName name, t.isText = false := by
  cases aliasName <;> simp [nameTokens, Token.isText]

theorem isText_of_conditionTokens {condition : Option String} :
    ∀ t ∈ conditionTokens condition, t.isText = false := by
  cases condition <;> simp [conditionTokens, Token.isText]

theorem isEmpty_of_length_eq {α : Type} {as bs : List α} (h : as.length = bs.length) :
    as.isEmpty = bs.isEmpty := by
  cases as <;> cases bs <;> first | rfl | cases h

mutual

/-- A selection with other strings in it. -/
theorem Selection.exists_of_matches (s : Selection) {us : List Token}
    (h : Forall₂ Matches s.tokens us) :
    ∃ s' : Selection, us = s'.tokens ∧ s'.isValid = s.isValid := by
  match s with
  | .field aliasName name arguments directives none =>
    obtain ⟨us₁, us, rfl, h₁, h⟩ := exists_append_of_forall₂ h
    obtain ⟨us₂, us, rfl, h₂, h⟩ := exists_append_of_forall₂ h
    obtain ⟨us₃, us, rfl, h₃, nothing⟩ := exists_append_of_forall₂ h
    cases nothing
    cases eq_of_matches h₁ isText_of_nameTokens
    obtain ⟨arguments', rfl, valid⟩ := exists_arguments_of_matches arguments h₂
    obtain ⟨directives', rfl, allValid⟩ := exists_directives_of_matches directives h₃
    refine ⟨.field aliasName name arguments' directives' none, rfl, ?_⟩
    rw [Selection.isValid, Selection.isValid, valid, allValid]
  | .field aliasName name arguments directives (some body) =>
    obtain ⟨us₁, us, rfl, h₁, h⟩ := exists_append_of_forall₂ h
    obtain ⟨us₂, us, rfl, h₂, h⟩ := exists_append_of_forall₂ h
    obtain ⟨us₃, us, rfl, h₃, block⟩ := exists_append_of_forall₂ h
    obtain ⟨us, rfl, inside⟩ := exists_enclosed_of_matches block rfl rfl
    cases eq_of_matches h₁ isText_of_nameTokens
    obtain ⟨arguments', rfl, valid⟩ := exists_arguments_of_matches arguments h₂
    obtain ⟨directives', rfl, allValid⟩ := exists_directives_of_matches directives h₃
    obtain ⟨body', rfl, inner, same⟩ := exists_selections_of_matches body inside
    refine ⟨.field aliasName name arguments' directives' (some body'), rfl, ?_⟩
    simp only [Selection.isValid, valid, allValid, inner, isEmpty_of_length_eq same]
  | .spread name directives =>
    obtain ⟨us, rfl, h₁⟩ := exists_cons_of_matches h rfl
    obtain ⟨us, rfl, h₂⟩ := exists_cons_of_matches h₁ rfl
    obtain ⟨directives', rfl, allValid⟩ := exists_directives_of_matches directives h₂
    exact ⟨.spread name directives', rfl, by rw [Selection.isValid, Selection.isValid, allValid]⟩
  | .inline condition directives body =>
    obtain ⟨us, rfl, behind⟩ := exists_cons_of_matches h rfl
    obtain ⟨us₁, us, rfl, h₁, behind⟩ := exists_append_of_forall₂ behind
    obtain ⟨us₂, us, rfl, h₂, block⟩ := exists_append_of_forall₂ behind
    obtain ⟨us, rfl, inside⟩ := exists_enclosed_of_matches block rfl rfl
    cases eq_of_matches h₁ isText_of_conditionTokens
    obtain ⟨directives', rfl, allValid⟩ := exists_directives_of_matches directives h₂
    obtain ⟨body', rfl, inner, same⟩ := exists_selections_of_matches body inside
    refine ⟨.inline condition directives' body', rfl, ?_⟩
    simp only [Selection.isValid, allValid, inner, isEmpty_of_length_eq same]

/-- Selections with other strings in them, as many as before. -/
theorem exists_selections_of_matches (ss : List Selection) {us : List Token}
    (h : Forall₂ Matches (selectionTokens ss) us) :
    ∃ ss' : List Selection, us = selectionTokens ss' ∧
      selectionsValid ss' = selectionsValid ss ∧ ss'.length = ss.length := by
  match ss with
  | [] =>
    cases h
    exact ⟨[], rfl, rfl, rfl⟩
  | s :: ss =>
    obtain ⟨us, us', rfl, first, others⟩ := exists_append_of_forall₂ h
    obtain ⟨s', rfl, valid⟩ := s.exists_of_matches first
    obtain ⟨ss', rfl, allValid, same⟩ := exists_selections_of_matches ss others
    refine ⟨s' :: ss', rfl, ?_, congrArg (· + 1) same⟩
    rw [selectionsValid, selectionsValid, valid, allValid]

end

end GraphRequest.Document

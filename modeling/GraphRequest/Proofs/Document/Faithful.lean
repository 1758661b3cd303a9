import Mathlib.Data.List.Forall2
import GraphRequest.Proofs.Document.Grammar

/-!
# Readers are faithful

What a reader returns has the tokens that it took, in front of those that it left: nothing is
skipped and nothing is made up. A document has the tokens that it was read from, except that a query
may be written as its selection set alone.

* `readLiterals_faithful`, `readAllSelections_faithful`: literals and selections.
* `readTokens?_faithful`: documents.
-/

namespace GraphRequest.Document

variable {ts rest : List Token} {fuel : Nat} {constant : Bool}

/-! ### Literals -/

theorem tokens_nameLiteral (text : String) : (nameLiteral text).tokens = [.name text] := by
  unfold nameLiteral
  split
  · rename_i same
    rw [eq_of_beq same]
    rfl
  · split
    · rename_i same
      rw [eq_of_beq same]
      rfl
    · split
      · rename_i same
        rw [eq_of_beq same]
        rfl
      · rfl

/-- Literals, lists of them and named ones have the tokens that they are read from, by induction on
the bound. -/
theorem readLiterals_faithful (constant : Bool) (fuel : Nat) :
    (∀ {ts v rest}, readLiteral constant fuel ts = some (v, rest) → ts = v.tokens ++ rest) ∧
    (∀ {ts vs rest}, readItems constant fuel ts = some (vs, rest) →
      ts = itemTokens vs ++ .punctuator ']' :: rest) ∧
    (∀ {close ts es rest}, readEntries constant close fuel ts = some (es, rest) →
      ts = entryTokens es ++ .punctuator close :: rest) := by
  induction fuel with
  | zero => exact ⟨nofun, nofun, nofun⟩
  | succ fuel ih =>
    obtain ⟨ihLiteral, ihItems, ihEntries⟩ := ih
    refine ⟨?_, ?_, ?_⟩
    · intro ts v rest h
      unfold readLiteral at h
      split at h
      · cases h
        rfl
      · cases h
        rfl
      · cases h
        rfl
      · cases h
        rfl
      · cases h
        rw [tokens_nameLiteral]
        rfl
      · split at h
        · cases h
        · cases h
          rfl
      · obtain ⟨⟨items, rest⟩, inside, same⟩ := Option.map_eq_some_iff.1 h
        cases same
        rw [ihItems inside, Literal.tokens, List.cons_append, List.append_assoc]
        rfl
      · obtain ⟨⟨fields, rest⟩, inside, same⟩ := Option.map_eq_some_iff.1 h
        cases same
        rw [ihEntries inside, Literal.tokens, List.cons_append, List.append_assoc]
        rfl
      · cases h
    · intro ts vs rest h
      unfold readItems at h
      split at h
      · cases h
        rfl
      · obtain ⟨⟨item, rest₁⟩, first, h⟩ := Option.bind_eq_some_iff.1 h
        obtain ⟨⟨items, rest₂⟩, others, h⟩ := Option.bind_eq_some_iff.1 h
        cases h
        rw [ihLiteral first, ihItems others, itemTokens, List.append_assoc]
    · intro close ts es rest h
      unfold readEntries at h
      split at h
      · split at h
        · rename_i same
          cases h
          rw [eq_of_beq same]
          rfl
        · cases h
      · obtain ⟨⟨value, rest₁⟩, first, h⟩ := Option.bind_eq_some_iff.1 h
        obtain ⟨⟨entries, rest₂⟩, others, h⟩ := Option.bind_eq_some_iff.1 h
        cases h
        rw [ihLiteral first, ihEntries others, entryTokens, List.cons_append, List.cons_append,
          List.append_assoc]
      · cases h

theorem readArguments_faithful {arguments : List Argument}
    (h : readArguments constant fuel ts = some (arguments, rest)) :
    ts = argumentTokens arguments ++ rest := by
  unfold readArguments at h
  split at h
  · obtain ⟨⟨arguments, rest⟩, inside, h⟩ := Option.bind_eq_some_iff.1 h
    dsimp only at h
    split at h
    · cases h
    · rename_i present
      cases h
      rw [(readLiterals_faithful constant fuel).2.2 inside, argumentTokens, if_neg present,
        List.cons_append, List.append_assoc]
      rfl
  · cases h
    rfl

theorem readDirectives_faithful {ds : List Directive}
    (h : readDirectives constant fuel ts = some (ds, rest)) :
    ts = directiveTokens ds ++ rest := by
  induction fuel generalizing ts ds with
  | zero => cases h
  | succ fuel ih =>
    unfold readDirectives at h
    split at h
    · obtain ⟨⟨arguments, rest₁⟩, first, h⟩ := Option.bind_eq_some_iff.1 h
      obtain ⟨⟨directives, rest₂⟩, others, h⟩ := Option.bind_eq_some_iff.1 h
      cases h
      rw [readArguments_faithful first, ih others, directiveTokens, directiveTokens,
        List.flatMap_cons, Directive.tokens, List.append_assoc]
      rfl
    · cases h
    · cases h
      rfl

/-! ### Selections -/

theorem readFieldName_faithful {first name : String} {aliasName : Option String}
    (h : readFieldName first ts = some ((aliasName, name), rest)) :
    .name first :: ts = nameTokens aliasName name ++ rest := by
  unfold readFieldName at h
  split at h
  · cases h
    rfl
  · cases h
  · cases h
    rfl

/-- Selections have the tokens that they are read from, by induction on the bound. -/
theorem readAllSelections_faithful (fuel : Nat) :
    (∀ {ts s rest}, readSelection fuel ts = some (s, rest) → ts = s.tokens ++ rest) ∧
    (∀ {condition ts s rest}, readInline condition fuel ts = some (s, rest) →
      .spread :: (conditionTokens condition ++ ts) = s.tokens ++ rest) ∧
    (∀ {ts ss rest}, readSelections fuel ts = some (ss, rest) →
      ts = selectionTokens ss ++ .punctuator '\x7d' :: rest) := by
  induction fuel with
  | zero => exact ⟨nofun, nofun, nofun⟩
  | succ fuel ih =>
    obtain ⟨ihSelection, ihInline, ihSelections⟩ := ih
    refine ⟨?_, ?_, ?_⟩
    · intro ts s rest h
      unfold readSelection at h
      split at h
      · obtain ⟨⟨⟨aliasName, name⟩, rest₁⟩, names, h⟩ := Option.bind_eq_some_iff.1 h
        obtain ⟨⟨arguments, rest₂⟩, arguments', h⟩ := Option.bind_eq_some_iff.1 h
        obtain ⟨⟨directives, rest₃⟩, directives', h⟩ := Option.bind_eq_some_iff.1 h
        rw [readFieldName_faithful names, readArguments_faithful arguments',
          readDirectives_faithful directives']
        dsimp only at h
        split at h
        · obtain ⟨⟨body, rest₄⟩, inside, h⟩ := Option.bind_eq_some_iff.1 h
          cases h
          rw [ihSelections inside]
          simp only [Selection.tokens, List.append_assoc, List.cons_append, List.nil_append]
        · cases h
          simp only [Selection.tokens, List.append_assoc, List.nil_append]
      · split at h
        · rename_i on
          split at h
          · rw [eq_of_beq on]
            exact ihInline h
          · cases h
        · obtain ⟨⟨directives, rest₁⟩, directives', h⟩ := Option.bind_eq_some_iff.1 h
          cases h
          rw [readDirectives_faithful directives', Selection.tokens]
          rfl
      · exact ihInline h
      · cases h
    · intro condition ts s rest h
      unfold readInline at h
      obtain ⟨⟨directives, rest₁⟩, directives', h⟩ := Option.bind_eq_some_iff.1 h
      rw [readDirectives_faithful directives']
      dsimp only at h
      split at h
      · obtain ⟨⟨body, rest₂⟩, inside, h⟩ := Option.bind_eq_some_iff.1 h
        cases h
        rw [ihSelections inside]
        simp only [Selection.tokens, List.append_assoc, List.cons_append, List.nil_append]
      · cases h
    · intro ts ss rest h
      unfold readSelections at h
      split at h
      · cases h
        rfl
      · obtain ⟨⟨selection, rest₁⟩, first, h⟩ := Option.bind_eq_some_iff.1 h
        obtain ⟨⟨selections, rest₂⟩, others, h⟩ := Option.bind_eq_some_iff.1 h
        cases h
        rw [ihSelection first, ihSelections others, selectionTokens, List.append_assoc]

theorem readBody_faithful {ss : List Selection} (h : readBody fuel ts = some (ss, rest)) :
    ts = bodyTokens ss ++ rest := by
  unfold readBody at h
  split at h
  · rw [(readAllSelections_faithful fuel).2.2 h, bodyTokens, List.cons_append, List.append_assoc]
    rfl
  · cases h

/-! ### Types and variables -/

theorem readMark_faithful (type : TypeText) (ts : List Token) :
    type.tokens ++ ts = (readMark type ts).1.tokens ++ (readMark type ts).2 := by
  unfold readMark
  split
  · rw [TypeText.tokens, List.append_assoc]
    rfl
  · rfl

theorem readType_faithful {t : TypeText} (h : readType fuel ts = some (t, rest)) :
    ts = t.tokens ++ rest := by
  induction fuel generalizing ts t rest with
  | zero => cases h
  | succ fuel ih =>
    unfold readType at h
    split at h
    · rename_i text others
      have whole := readMark_faithful (.named text) others
      rw [Option.some.inj h] at whole
      exact whole
    · obtain ⟨⟨item, rest₁⟩, inside, h⟩ := Option.bind_eq_some_iff.1 h
      rw [ih inside]
      dsimp only at h
      split at h
      · rename_i others
        have whole := readMark_faithful (.list item) others
        rw [Option.some.inj h] at whole
        rw [← whole, TypeText.tokens, List.cons_append, List.append_assoc]
        rfl
      · cases h
    · cases h

theorem readDefault_faithful {o : Option Literal} (h : readDefault fuel ts = some (o, rest)) :
    ts = defaultTokens o ++ rest := by
  unfold readDefault at h
  split at h
  · obtain ⟨⟨v, rest⟩, inside, same⟩ := Option.map_eq_some_iff.1 h
    cases same
    rw [(readLiterals_faithful true fuel).1 inside]
    rfl
  · cases h
    rfl

theorem readVariables_faithful {vs : List VariableDefinition}
    (h : readVariables fuel ts = some (vs, rest)) :
    ts = vs.flatMap VariableDefinition.tokens ++ .punctuator ')' :: rest := by
  induction fuel generalizing ts vs with
  | zero => cases h
  | succ fuel ih =>
    unfold readVariables at h
    split at h
    · cases h
      rfl
    · obtain ⟨⟨type, rest₁⟩, type', h⟩ := Option.bind_eq_some_iff.1 h
      obtain ⟨⟨default, rest₂⟩, default', h⟩ := Option.bind_eq_some_iff.1 h
      obtain ⟨⟨directives, rest₃⟩, directives', h⟩ := Option.bind_eq_some_iff.1 h
      obtain ⟨⟨declared, rest₄⟩, others, h⟩ := Option.bind_eq_some_iff.1 h
      cases h
      rw [readType_faithful type', readDefault_faithful default',
        readDirectives_faithful directives', ih others]
      simp only [List.flatMap_cons, VariableDefinition.tokens, List.append_assoc, List.cons_append]
    · cases h

theorem readDeclarations_faithful {vs : List VariableDefinition}
    (h : readDeclarations fuel ts = some (vs, rest)) : ts = declarationTokens vs ++ rest := by
  unfold readDeclarations at h
  split at h
  · obtain ⟨⟨declared, rest⟩, inside, h⟩ := Option.bind_eq_some_iff.1 h
    dsimp only at h
    split at h
    · cases h
    · rename_i present
      cases h
      rw [readVariables_faithful inside, declarationTokens, if_neg present, List.cons_append,
        List.append_assoc]
      rfl
  · cases h
    rfl

/-! ### Definitions -/

theorem readOptionalName_faithful (ts : List Token) :
    ts = (readOptionalName ts).1.toList.map .name ++ (readOptionalName ts).2 := by
  unfold readOptionalName
  split <;> rfl

theorem readOperation_faithful {keyword : String} {d : Definition}
    (h : readOperation keyword fuel ts = some (d, rest)) :
    .name keyword :: ts = d.tokens ++ rest := by
  unfold readOperation at h
  have whole := readOptionalName_faithful ts
  generalize readOptionalName ts = names at h whole
  obtain ⟨name, others⟩ := names
  obtain ⟨⟨declared, rest₁⟩, declared', h⟩ := Option.bind_eq_some_iff.1 h
  obtain ⟨⟨directives, rest₂⟩, directives', h⟩ := Option.bind_eq_some_iff.1 h
  obtain ⟨⟨body, rest₃⟩, body', h⟩ := Option.bind_eq_some_iff.1 h
  cases h
  rw [whole, readDeclarations_faithful declared', readDirectives_faithful directives',
    readBody_faithful body']
  simp only [Definition.tokens, List.append_assoc, List.cons_append]

theorem readFragment_faithful {d : Definition} (h : readFragment fuel ts = some (d, rest)) :
    .name "fragment" :: ts = d.tokens ++ rest := by
  unfold readFragment at h
  split at h
  · split at h
    · cases h
    · rename_i allowed
      obtain ⟨⟨directives, rest₁⟩, directives', h⟩ := Option.bind_eq_some_iff.1 h
      obtain ⟨⟨body, rest₂⟩, body', h⟩ := Option.bind_eq_some_iff.1 h
      cases h
      rw [Bool.or_eq_true, not_or, bne_iff_ne, not_not] at allowed
      rw [allowed.2, readDirectives_faithful directives', readBody_faithful body']
      simp only [Definition.tokens, List.append_assoc, List.cons_append]
  · cases h

theorem readDefinition_faithful {d : Definition} (h : readDefinition fuel ts = some (d, rest)) :
    ∃ us, d.Spans us ∧ ts = us ++ rest := by
  unfold readDefinition at h
  split at h
  · split at h
    · exact ⟨_, .whole d, readOperation_faithful h⟩
    · split at h
      · rename_i keyword
        rw [eq_of_beq keyword]
        exact ⟨_, .whole d, readFragment_faithful h⟩
      · cases h
  · obtain ⟨⟨body, rest⟩, inside, same⟩ := Option.map_eq_some_iff.1 h
    cases same
    exact ⟨_, .short body, readBody_faithful inside⟩

theorem readDefinitions_faithful {d : Document} (h : readDefinitions fuel ts = some d) :
    ∃ spans, List.Forall₂ Definition.Spans d spans ∧ ts = spans.flatten := by
  induction fuel generalizing ts d with
  | zero =>
    cases ts with
    | nil =>
      cases h
      exact ⟨[], .nil, rfl⟩
    | cons t ts => cases h
  | succ fuel ih =>
    cases ts with
    | nil =>
      cases h
      exact ⟨[], .nil, rfl⟩
    | cons t ts =>
      obtain ⟨⟨definition, rest⟩, first, h⟩ := Option.bind_eq_some_iff.1 h
      obtain ⟨definitions, others, h⟩ := Option.bind_eq_some_iff.1 h
      cases h
      obtain ⟨us, spans, same⟩ := readDefinition_faithful first
      obtain ⟨uss, others', rfl⟩ := ih others
      exact ⟨us :: uss, .cons spans others', same⟩

/-- A document is read from the tokens of its definitions, one after the other. -/
theorem readTokens?_faithful {d : Document} (h : readTokens? ts = some d) :
    ∃ spans, List.Forall₂ Definition.Spans d spans ∧ ts = spans.flatten := by
  unfold readTokens? at h
  split at h
  · cases h
  · exact readDefinitions_faithful h

/-- What accepts every way to write a document reads a valid one from the same texts. -/
theorem Accepts.of_readText? {read : String → Option Document} (h : Accepts read) {text : String}
    {d : Document} (valid : isValid d = true) (reads : readText? text = some d) :
    read text = some d := by
  obtain ⟨ts, lexed, reads⟩ := Option.bind_eq_some_iff.1 reads
  obtain ⟨spans, spanned, rfl⟩ := readTokens?_faithful reads
  exact h text d spans valid spanned lexed

end GraphRequest.Document

import GraphRequest.Proofs.Document.Grammar

/-!
# Reading documents back

The reader without a bound on the nesting implements the grammar: it reads the tokens of a valid
document as that document. Each part is read back in front of any tokens that do not continue it,
with a bound of twice the number of its tokens.

* `readLiterals_tokens`, `readAllSelections_tokens`: literals and selections are read back.
* `readTokens?_spans`: valid documents are read back.
* `accepts_readText?`, `implements_readText?`: the reader implements the grammar.
-/

namespace GraphRequest.Document

/-! ### Literals -/

theorem Literal.tokens_ne_nil (v : Literal) : v.tokens ≠ [] := by
  cases v <;> simp [Literal.tokens]

theorem Literal.length_tokens_pos (v : Literal) : 1 ≤ v.tokens.length :=
  List.length_pos_iff.2 v.tokens_ne_nil

/-- No literal begins with a closing bracket. -/
theorem Literal.tokens_append_ne (v : Literal) (rest rest' : List Token) :
    v.tokens ++ rest ≠ .punctuator ']' :: rest' := by
  cases v <;> simp [Literal.tokens]

/-- Literals, lists of them and named ones are read back, by induction on the bound: what is inside
a literal is shorter by the brackets around it. -/
theorem readLiterals_tokens (constant : Bool) (fuel : Nat) :
    (∀ (v : Literal) (rest : List Token), v.isValid constant = true → 2 * v.tokens.length ≤ fuel →
      readLiteral constant fuel (v.tokens ++ rest) = some (v, rest)) ∧
    (∀ (vs : List Literal) (rest : List Token), itemsValid constant vs = true →
      2 * (itemTokens vs).length + 1 ≤ fuel →
      readItems constant fuel (itemTokens vs ++ .punctuator ']' :: rest) = some (vs, rest)) ∧
    (∀ (close : Char) (es : List (String × Literal)) (rest : List Token),
      entriesValid constant es = true → 2 * (entryTokens es).length + 1 ≤ fuel →
      readEntries constant close fuel (entryTokens es ++ .punctuator close :: rest)
        = some (es, rest)) := by
  induction fuel with
  | zero =>
    refine ⟨?_, ?_, ?_⟩
    · intro v rest _ enough
      have := v.length_tokens_pos
      omega
    · intro vs rest _ enough
      omega
    · intro close es rest _ enough
      omega
  | succ fuel ih =>
    obtain ⟨ihLiteral, ihItems, ihEntries⟩ := ih
    refine ⟨?_, ?_, ?_⟩
    · intro v rest valid enough
      cases v with
      | var name =>
        have variable_allowed : constant = false := by simpa [Literal.isValid] using valid
        rw [variable_allowed]
        rfl
      | int text => rfl
      | float text => rfl
      | string value => rfl
      | block value => rfl
      | bool value => cases value <;> rfl
      | null => rfl
      | enum name =>
        have valid : (name ≠ "true" ∧ name ≠ "false") ∧ name ≠ "null" := by
          simpa [Literal.isValid] using valid
        show some (nameLiteral name, rest) = some (.enum name, rest)
        simp [nameLiteral, valid.1.1, valid.1.2, valid.2]
      | list items =>
        simp only [Literal.tokens, List.length_cons, List.length_append, List.length_nil] at enough
        have inside := ihItems items rest valid (by omega)
        simp only [Literal.tokens, List.cons_append, List.append_assoc, List.nil_append,
          readLiteral, inside, Option.map_some]
      | object fields =>
        simp only [Literal.tokens, List.length_cons, List.length_append, List.length_nil] at enough
        have inside := ihEntries '\x7d' fields rest valid (by omega)
        simp only [Literal.tokens, List.cons_append, List.append_assoc, List.nil_append,
          readLiteral, inside, Option.map_some]
    · intro vs rest valid enough
      cases vs with
      | nil => rfl
      | cons v vs =>
        simp only [itemsValid, Bool.and_eq_true] at valid
        have pos := v.length_tokens_pos
        simp only [itemTokens, List.length_append] at enough
        have first := ihLiteral v (itemTokens vs ++ .punctuator ']' :: rest) valid.1 (by omega)
        have others := ihItems vs rest valid.2 (by omega)
        rw [itemTokens, List.append_assoc]
        unfold readItems
        split
        · rename_i other heq
          exact absurd heq (v.tokens_append_ne _ _)
        · rw [first]
          simp only [bind, Option.bind, others]
    · intro close es rest valid enough
      cases es with
      | nil =>
        show (if (close == close) = true then some ([], rest) else none) = some ([], rest)
        rw [if_pos (beq_self_eq_true close)]
      | cons e es =>
        obtain ⟨name, v⟩ := e
        simp only [entriesValid, Bool.and_eq_true] at valid
        simp only [entryTokens, List.length_cons, List.length_append] at enough
        have first := ihLiteral v (entryTokens es ++ .punctuator close :: rest) valid.1 (by omega)
        have others := ihEntries close es rest valid.2 (by omega)
        simp only [entryTokens, List.cons_append, List.append_assoc, readEntries, first, bind,
          Option.bind, others]

theorem readLiteral_tokens {constant : Bool} {v : Literal} (fuel : Nat)
    (valid : v.isValid constant = true) (enough : 2 * v.tokens.length ≤ fuel)
    (rest : List Token) : readLiteral constant fuel (v.tokens ++ rest) = some (v, rest) :=
  (readLiterals_tokens constant fuel).1 v rest valid enough

theorem readEntries_tokens {constant : Bool} {es : List (String × Literal)} (close : Char)
    (fuel : Nat) (valid : entriesValid constant es = true)
    (enough : 2 * (entryTokens es).length + 1 ≤ fuel) (rest : List Token) :
    readEntries constant close fuel (entryTokens es ++ .punctuator close :: rest)
      = some (es, rest) :=
  (readLiterals_tokens constant fuel).2.2 close es rest valid enough

/-! ### Arguments and directives -/

/-- The next token, if there is one, is none of some punctuators. -/
def NextIsNot (cs : List Char) (ts : List Token) : Prop :=
  ∀ c ∈ cs, ts.head? ≠ some (.punctuator c)

section

variable {cs : List Char} {rest : List Token}

theorem NextIsNot.subset {ds : List Char} (h : NextIsNot cs rest) (sub : ds ⊆ cs) :
    NextIsNot ds rest := fun c hc => h c (sub hc)

theorem nextIsNot_punctuator {c : Char} (h : c ∉ cs) (rest : List Token) :
    NextIsNot cs (.punctuator c :: rest) := by
  intro d hd same
  cases same
  exact h hd

theorem nextIsNot_name (cs : List Char) (name : String) (rest : List Token) :
    NextIsNot cs (.name name :: rest) := by
  intro c _ same
  cases same

theorem nextIsNot_spread (cs : List Char) (rest : List Token) :
    NextIsNot cs (.spread :: rest) := by
  intro c _ same
  cases same

theorem nextIsNot_arguments (h : '(' ∉ cs) (next : NextIsNot cs rest)
    (arguments : List Argument) : NextIsNot cs (argumentTokens arguments ++ rest) := by
  cases arguments with
  | nil => exact next
  | cons a as => exact nextIsNot_punctuator h _

theorem nextIsNot_directives (h : '@' ∉ cs) (next : NextIsNot cs rest) (ds : List Directive) :
    NextIsNot cs (directiveTokens ds ++ rest) := by
  cases ds with
  | nil => exact next
  | cons d ds => exact nextIsNot_punctuator h _

end

theorem readArguments_tokens {constant : Bool} {arguments : List Argument} (fuel : Nat)
    (valid : entriesValid constant arguments = true)
    (enough : 2 * (argumentTokens arguments).length ≤ fuel) {rest : List Token}
    (next : NextIsNot ['('] rest) :
    readArguments constant fuel (argumentTokens arguments ++ rest) = some (arguments, rest) := by
  cases arguments with
  | nil =>
    unfold readArguments
    split
    · rename_i heq
      exact absurd (congrArg List.head? heq) (next '(' (by simp))
    · rfl
  | cons a as =>
    simp only [argumentTokens, List.isEmpty_cons, Bool.false_eq_true, if_false, List.length_cons,
      List.length_append, List.length_nil] at enough
    have inside := readEntries_tokens ')' fuel valid (by omega) rest
    simp only [argumentTokens, List.isEmpty_cons, Bool.false_eq_true, if_false, List.cons_append,
      List.append_assoc, List.nil_append, readArguments, inside, bind, Option.bind]

theorem readDirectives_tokens {constant : Bool} {ds : List Directive} (fuel : Nat)
    (valid : ds.all (Directive.isValid constant) = true)
    (enough : 2 * (directiveTokens ds).length + 1 ≤ fuel) {rest : List Token}
    (next : NextIsNot ['(', '@'] rest) :
    readDirectives constant fuel (directiveTokens ds ++ rest) = some (ds, rest) := by
  induction ds generalizing fuel with
  | nil =>
    obtain ⟨fuel, rfl⟩ : ∃ n, fuel = n + 1 := ⟨fuel - 1, by omega⟩
    show readDirectives constant (fuel + 1) rest = some ([], rest)
    unfold readDirectives
    split
    · exact absurd rfl (next '@' (by simp))
    · exact absurd rfl (next '@' (by simp))
    · rfl
  | cons d ds ih =>
    obtain ⟨fuel, rfl⟩ : ∃ n, fuel = n + 1 := ⟨fuel - 1, by omega⟩
    simp only [List.all_cons, Bool.and_eq_true] at valid
    simp only [directiveTokens, List.flatMap_cons, Directive.tokens, List.length_append,
      List.length_cons] at enough
    have after : NextIsNot ['('] (directiveTokens ds ++ rest) :=
      nextIsNot_directives (by decide) (next.subset (by decide)) ds
    have arguments := readArguments_tokens fuel valid.1 (by omega) after
    have others := ih fuel valid.2 (by simp only [directiveTokens]; omega)
    simp only [directiveTokens] at arguments others
    simp only [directiveTokens, List.flatMap_cons, Directive.tokens, List.cons_append,
      List.append_assoc, readDirectives, arguments, bind, Option.bind, others]

/-! ### Selections -/

theorem nameTokens_eq (aliasName : Option String) (name : String) :
    nameTokens aliasName name
      = .name (aliasName.getD name) :: (nameTokens aliasName name).tail := by
  cases aliasName <;> rfl

theorem Selection.tokens_ne_nil (s : Selection) : s.tokens ≠ [] := by
  cases s with
  | field aliasName name arguments directives body =>
    unfold Selection.tokens
    rw [nameTokens_eq]
    exact List.cons_ne_nil _ _
  | spread name directives => exact List.cons_ne_nil _ _
  | inline condition directives body => exact List.cons_ne_nil _ _

theorem Selection.length_tokens_pos (s : Selection) : 1 ≤ s.tokens.length :=
  List.length_pos_iff.2 s.tokens_ne_nil

/-- A selection begins with a name or with the mark of a fragment. -/
theorem Selection.nextIsNot_tokens (s : Selection) (cs : List Char) (rest : List Token) :
    NextIsNot cs (s.tokens ++ rest) := by
  cases s with
  | field aliasName name arguments directives body =>
    cases aliasName <;> exact nextIsNot_name cs _ _
  | spread name directives => exact nextIsNot_spread cs _
  | inline condition directives body => exact nextIsNot_spread cs _

theorem nextIsNot_selections {cs : List Char} (h : '\x7d' ∉ cs) (ss : List Selection)
    (rest : List Token) : NextIsNot cs (selectionTokens ss ++ .punctuator '\x7d' :: rest) := by
  cases ss with
  | nil => exact nextIsNot_punctuator h rest
  | cons s ss =>
    rw [selectionTokens, List.append_assoc]
    exact s.nextIsNot_tokens cs _

theorem readFieldName_tokens (aliasName : Option String) (name : String) {rest : List Token}
    (next : NextIsNot [':'] rest) :
    readFieldName (aliasName.getD name) ((nameTokens aliasName name).tail ++ rest)
      = some ((aliasName, name), rest) := by
  cases aliasName with
  | some a => rfl
  | none =>
    show readFieldName name rest = some ((none, name), rest)
    unfold readFieldName
    split
    · exact absurd rfl (next ':' (by simp))
    · exact absurd rfl (next ':' (by simp))
    · rfl

/-- The punctuators that would continue a selection. -/
def continuations : List Char := [':', '(', '@', '\x7b']

/-- Selections are read back, by induction on the bound: a body is shorter than its selection by the
braces around it. -/
theorem readAllSelections_tokens (fuel : Nat) :
    (∀ (s : Selection) (rest : List Token), s.isValid = true → 2 * s.tokens.length ≤ fuel →
      NextIsNot continuations rest → readSelection fuel (s.tokens ++ rest) = some (s, rest)) ∧
    (∀ (condition : Option String) (ds : List Directive) (body : List Selection)
      (rest : List Token), ds.all (Directive.isValid false) = true →
      selectionsValid body = true →
      2 * ((directiveTokens ds).length + (selectionTokens body).length) + 4 ≤ fuel →
      readInline condition fuel (directiveTokens ds ++
          .punctuator '\x7b' :: (selectionTokens body ++ .punctuator '\x7d' :: rest))
        = some (.inline condition ds body, rest)) ∧
    (∀ (ss : List Selection) (rest : List Token), selectionsValid ss = true →
      2 * (selectionTokens ss).length + 1 ≤ fuel →
      readSelections fuel (selectionTokens ss ++ .punctuator '\x7d' :: rest)
        = some (ss, rest)) := by
  induction fuel with
  | zero =>
    refine ⟨?_, ?_, ?_⟩
    · intro s rest _ enough
      have := s.length_tokens_pos
      omega
    · intro condition ds body rest _ _ enough
      omega
    · intro ss rest _ enough
      omega
  | succ fuel ih =>
    obtain ⟨ihSelection, ihInline, ihSelections⟩ := ih
    refine ⟨?_, ?_, ?_⟩
    · intro s rest valid enough next
      cases s with
      | field aliasName name arguments directives body =>
        cases body with
        | none =>
          simp only [Selection.isValid, Bool.and_eq_true, and_true] at valid
          rw [Selection.tokens, nameTokens_eq] at enough
          simp only [List.length_cons, List.length_append, List.length_nil] at enough
          have afterArguments : NextIsNot [':', '('] (directiveTokens directives ++ rest) :=
            nextIsNot_directives (by decide) (next.subset (by decide)) directives
          have afterName : NextIsNot [':']
              (argumentTokens arguments ++ (directiveTokens directives ++ rest)) :=
            nextIsNot_arguments (by decide) (afterArguments.subset (by decide)) arguments
          have names := readFieldName_tokens aliasName name afterName
          have read := readArguments_tokens fuel valid.1 (by omega)
            (afterArguments.subset (by decide))
          have read' := readDirectives_tokens fuel valid.2 (by omega) (next.subset (by decide))
          rw [Selection.tokens, nameTokens_eq]
          simp only [List.cons_append, List.append_assoc, List.nil_append, readSelection, names,
            read, read', bind, Option.bind]
          split
          · exact absurd rfl (next '\x7b' (by decide))
          · rfl
        | some selections =>
          simp only [Selection.isValid, Bool.and_eq_true] at valid
          rw [Selection.tokens, nameTokens_eq] at enough
          simp only [List.length_cons, List.length_append, List.length_nil] at enough
          have afterDirectives : NextIsNot [':', '(', '@'] (.punctuator '\x7b' ::
              (selectionTokens selections ++ .punctuator '\x7d' :: rest)) :=
            nextIsNot_punctuator (by decide) _
          have afterArguments : NextIsNot [':', '('] (directiveTokens directives ++
              .punctuator '\x7b' :: (selectionTokens selections ++ .punctuator '\x7d' :: rest)) :=
            nextIsNot_directives (by decide) (afterDirectives.subset (by decide)) directives
          have afterName : NextIsNot [':'] (argumentTokens arguments ++
              (directiveTokens directives ++ .punctuator '\x7b' ::
                (selectionTokens selections ++ .punctuator '\x7d' :: rest))) :=
            nextIsNot_arguments (by decide) (afterArguments.subset (by decide)) arguments
          have names := readFieldName_tokens aliasName name afterName
          have read := readArguments_tokens fuel valid.1.1 (by omega)
            (afterArguments.subset (by decide))
          have read' := readDirectives_tokens fuel valid.1.2 (by omega)
            (afterDirectives.subset (by decide))
          have inside := ihSelections selections rest valid.2.2 (by omega)
          rw [Selection.tokens, nameTokens_eq]
          simp only [List.cons_append, List.append_assoc, List.nil_append, readSelection, names,
            read, read', inside, bind, Option.bind]
      | spread name directives =>
        simp only [Selection.isValid, Bool.and_eq_true, bne_iff_ne] at valid
        simp only [Selection.tokens, List.length_cons] at enough
        have read := readDirectives_tokens fuel valid.2 (by omega) (next.subset (by decide))
        have other : ¬ (name == "on") = true := by simpa using valid.1
        simp only [Selection.tokens, List.cons_append, readSelection, if_neg other, read, bind,
          Option.bind]
      | inline condition directives body =>
        simp only [Selection.isValid, Bool.and_eq_true] at valid
        simp only [Selection.tokens, List.length_cons, List.length_append, List.length_nil]
          at enough
        have read := ihInline condition directives body rest valid.1 valid.2.2 (by omega)
        rw [Selection.tokens]
        cases condition with
        | some c =>
          simp only [conditionTokens, List.cons_append, List.append_assoc, List.nil_append,
            readSelection, beq_self_eq_true, if_true, read]
        | none =>
          have unnamed : ∀ (c : Char) (ts : List Token),
              readSelection (fuel + 1) (.spread :: .punctuator c :: ts)
                = readInline none fuel (.punctuator c :: ts) := fun _ _ => rfl
          simp only [conditionTokens, List.cons_append, List.append_assoc, List.nil_append]
          cases directives with
          | nil => exact (unnamed _ _).trans read
          | cons d ds => exact (unnamed _ _).trans read
    · intro condition ds body rest validDirectives valid enough
      have next : NextIsNot ['(', '@'] (.punctuator '\x7b' ::
          (selectionTokens body ++ .punctuator '\x7d' :: rest)) :=
        nextIsNot_punctuator (by decide) _
      have read := readDirectives_tokens fuel validDirectives (by omega) next
      have inside := ihSelections body rest valid (by omega)
      simp only [readInline, read, inside, bind, Option.bind]
    · intro ss rest valid enough
      cases ss with
      | nil => rfl
      | cons s ss =>
        simp only [selectionsValid, Bool.and_eq_true] at valid
        have pos := s.length_tokens_pos
        simp only [selectionTokens, List.length_append] at enough
        have first := ihSelection s (selectionTokens ss ++ .punctuator '\x7d' :: rest) valid.1
          (by omega) (nextIsNot_selections (by decide) ss rest)
        have others := ihSelections ss rest valid.2 (by omega)
        rw [selectionTokens, List.append_assoc]
        unfold readSelections
        split
        · rename_i heq
          have := s.nextIsNot_tokens ['\x7d'] (selectionTokens ss ++ .punctuator '\x7d' :: rest)
          rw [heq] at this
          exact absurd rfl (this '\x7d' (by simp))
        · rw [first]
          simp only [bind, Option.bind, others]

theorem readBody_tokens {ss : List Selection} (fuel : Nat) (valid : selectionsValid ss = true)
    (enough : 2 * (bodyTokens ss).length ≤ fuel) (rest : List Token) :
    readBody fuel (bodyTokens ss ++ rest) = some (ss, rest) := by
  simp only [bodyTokens, List.length_cons, List.length_append, List.length_nil] at enough
  have inside := (readAllSelections_tokens fuel).2.2 ss rest valid (by omega)
  simp only [bodyTokens, List.cons_append, List.append_assoc, List.nil_append, readBody, inside]

/-! ### Types and variables -/

theorem readMark_of_next (type : TypeText) {rest : List Token} (next : NextIsNot ['!'] rest) :
    readMark type rest = (type, rest) := by
  unfold readMark
  split
  · exact absurd rfl (next '!' (by simp))
  · rfl

theorem TypeText.length_tokens_pos (t : TypeText) : 1 ≤ t.tokens.length := by
  cases t with
  | named name => exact Nat.le_refl 1
  | list item => simp [TypeText.tokens]
  | nonNull type => simp [TypeText.tokens]

/-- Types are read back. A mark that excludes null is read together with the name or the list that
it follows. -/
theorem readType_tokens (fuel : Nat) (t : TypeText) {rest : List Token} (valid : t.isValid = true)
    (enough : t.tokens.length ≤ fuel) (next : NextIsNot ['!'] rest) :
    readType fuel (t.tokens ++ rest) = some (t, rest) := by
  induction fuel generalizing t rest with
  | zero =>
    have := t.length_tokens_pos
    omega
  | succ fuel ih =>
    have inside : ∀ item : TypeText, item.isValid = true → item.tokens.length ≤ fuel →
        ∀ rest, readType (fuel + 1) ((TypeText.list item).tokens ++ rest)
          = some (readMark (.list item) rest) := by
      intro item valid enough rest
      have next : NextIsNot ['!'] (.punctuator ']' :: rest) :=
        nextIsNot_punctuator (by decide) rest
      have read := ih item valid enough next
      simp only [TypeText.tokens, List.cons_append, List.append_assoc, List.nil_append, readType,
        read, bind, Option.bind]
    cases t with
    | named name =>
      show some (readMark (.named name) rest) = _
      rw [readMark_of_next _ next]
    | list item =>
      simp only [TypeText.tokens, List.length_cons, List.length_append, List.length_nil] at enough
      rw [inside item valid (by omega), readMark_of_next _ next]
    | nonNull type =>
      cases type with
      | named name => rfl
      | nonNull type => cases valid
      | list item =>
        simp only [TypeText.tokens, List.length_cons, List.length_append, List.length_nil]
          at enough
        rw [TypeText.tokens, List.append_assoc, inside item valid (by omega)]
        rfl

theorem readDefault_tokens (fuel : Nat) {o : Option Literal}
    (valid : o.all (Literal.isValid true) = true) (enough : 2 * (defaultTokens o).length ≤ fuel)
    {rest : List Token} (next : NextIsNot ['='] rest) :
    readDefault fuel (defaultTokens o ++ rest) = some (o, rest) := by
  cases o with
  | none =>
    show readDefault fuel rest = some (none, rest)
    unfold readDefault
    split
    · exact absurd rfl (next '=' (by simp))
    · rfl
  | some v =>
    simp only [defaultTokens, List.length_cons] at enough
    have read := readLiteral_tokens fuel (v := v) valid (by omega) rest
    simp only [defaultTokens, List.cons_append, readDefault, read, Option.map_some]

theorem readVariables_tokens (fuel : Nat) {vs : List VariableDefinition}
    (valid : vs.all VariableDefinition.isValid = true)
    (enough : 2 * (vs.flatMap VariableDefinition.tokens).length + 1 ≤ fuel) (rest : List Token) :
    readVariables fuel (vs.flatMap VariableDefinition.tokens ++ .punctuator ')' :: rest)
      = some (vs, rest) := by
  induction vs generalizing fuel with
  | nil =>
    obtain ⟨fuel, rfl⟩ : ∃ n, fuel = n + 1 := ⟨fuel - 1, by omega⟩
    rfl
  | cons v vs ih =>
    obtain ⟨fuel, rfl⟩ : ∃ n, fuel = n + 1 := ⟨fuel - 1, by omega⟩
    simp only [List.all_cons, VariableDefinition.isValid, Bool.and_eq_true] at valid
    obtain ⟨⟨validType, validDefault, validDirectives⟩, validOthers⟩ := valid
    simp only [List.flatMap_cons, VariableDefinition.tokens, List.length_append, List.length_cons]
      at enough
    have next : NextIsNot ['!', '=', '@', '(']
        (vs.flatMap VariableDefinition.tokens ++ .punctuator ')' :: rest) := by
      cases vs with
      | nil => exact nextIsNot_punctuator (by decide) rest
      | cons v' vs => exact nextIsNot_punctuator (by decide) _
    have afterDefault := nextIsNot_directives (by decide)
      (next.subset (by decide : ['!', '='] ⊆ ['!', '=', '@', '('])) v.directives
    have afterType : NextIsNot ['!'] (defaultTokens v.default ++ (directiveTokens v.directives ++
        (vs.flatMap VariableDefinition.tokens ++ .punctuator ')' :: rest))) := by
      cases v.default with
      | none => exact afterDefault.subset (by decide)
      | some d => exact nextIsNot_punctuator (by decide) _
    have type := readType_tokens fuel v.type validType (by omega) afterType
    have default := readDefault_tokens fuel validDefault (by omega)
      (afterDefault.subset (by decide))
    have directives := readDirectives_tokens fuel validDirectives (by omega)
      (next.subset (by decide))
    have others := ih fuel validOthers (by omega)
    simp only [List.flatMap_cons, VariableDefinition.tokens, List.cons_append, List.append_assoc,
      readVariables, type, default, directives, others, bind, Option.bind]

theorem readDeclarations_tokens (fuel : Nat) {vs : List VariableDefinition}
    (valid : vs.all VariableDefinition.isValid = true)
    (enough : 2 * (declarationTokens vs).length ≤ fuel) {rest : List Token}
    (next : NextIsNot ['('] rest) :
    readDeclarations fuel (declarationTokens vs ++ rest) = some (vs, rest) := by
  cases vs with
  | nil =>
    show readDeclarations fuel rest = some ([], rest)
    unfold readDeclarations
    split
    · exact absurd rfl (next '(' (by simp))
    · rfl
  | cons v vs =>
    simp only [declarationTokens, List.isEmpty_cons, Bool.false_eq_true, if_false,
      List.length_cons, List.length_append, List.length_nil] at enough
    have inside := readVariables_tokens fuel valid (by omega) rest
    simp only [declarationTokens, List.isEmpty_cons, Bool.false_eq_true, if_false,
      List.cons_append, List.append_assoc, List.nil_append, readDeclarations, inside, bind,
      Option.bind]

/-! ### Definitions and documents -/

theorem Definition.tokens_ne_nil (d : Definition) : d.tokens ≠ [] := by
  cases d <;> exact List.cons_ne_nil _ _

theorem nextIsNot_body (cs : List Char) (h : '\x7b' ∉ cs) (ss : List Selection)
    (rest : List Token) : NextIsNot cs (bodyTokens ss ++ rest) :=
  nextIsNot_punctuator h _

theorem readOptionalName_tokens (name : Option String) (vs : List VariableDefinition)
    (ds : List Directive) (ss : List Selection) (rest : List Token) :
    readOptionalName (name.toList.map Token.name ++ (declarationTokens vs ++ (directiveTokens ds ++
        (bodyTokens ss ++ rest))))
      = (name, declarationTokens vs ++ (directiveTokens ds ++ (bodyTokens ss ++ rest))) := by
  cases name with
  | some name => rfl
  | none => cases vs <;> cases ds <;> rfl

theorem readDefinition_tokens (fuel : Nat) {d : Definition} (valid : d.isValid = true)
    (enough : 2 * d.tokens.length ≤ fuel) (rest : List Token) :
    readDefinition fuel (d.tokens ++ rest) = some (d, rest) := by
  cases d with
  | operation keyword name declared directives body =>
    simp only [Definition.isValid, Bool.and_eq_true] at valid
    obtain ⟨⟨⟨validKeyword, validDeclared⟩, validDirectives⟩, _, validBody⟩ := valid
    simp only [Definition.tokens, List.length_cons, List.length_append] at enough
    have afterDirectives := nextIsNot_body ['(', '@'] (by decide) body rest
    have afterDeclared := nextIsNot_directives (by decide)
      (afterDirectives.subset (by decide : ['('] ⊆ ['(', '@'])) directives
    have names := readOptionalName_tokens name declared directives body rest
    have declarations := readDeclarations_tokens fuel validDeclared (by omega) afterDeclared
    have read := readDirectives_tokens fuel validDirectives
      (by simp only [bodyTokens, List.length_cons] at enough; omega) afterDirectives
    have inside := readBody_tokens fuel validBody (by omega) rest
    simp only [Definition.tokens, List.cons_append, List.append_assoc, readDefinition,
      validKeyword, if_true, readOperation, names, declarations, read, inside, bind, Option.bind]
  | fragment name condition directives body =>
    simp only [Definition.isValid, Bool.and_eq_true, bne_iff_ne] at valid
    obtain ⟨⟨named, validDirectives⟩, _, validBody⟩ := valid
    simp only [Definition.tokens, List.length_cons, List.length_append] at enough
    have next := nextIsNot_body ['(', '@'] (by decide) body rest
    have read := readDirectives_tokens fuel validDirectives (by omega) next
    have inside := readBody_tokens fuel validBody (by omega) rest
    have other : isOperationKeyword "fragment" = false := by decide
    have plain : ¬ (name == "on" || "on" != "on") = true := by simpa using named
    simp only [Definition.tokens, List.cons_append, List.append_assoc, readDefinition, other,
      Bool.false_eq_true, if_false, beq_self_eq_true, if_true, readFragment, if_neg plain, read,
      inside, bind, Option.bind]

theorem Definition.Spans.ne_nil {d : Definition} {us : List Token} (h : d.Spans us) : us ≠ [] := by
  cases h with
  | whole => exact d.tokens_ne_nil
  | short body => exact List.cons_ne_nil _ _

theorem readDefinition_spans (fuel : Nat) {d : Definition} {us : List Token} (span : d.Spans us)
    (valid : d.isValid = true) (enough : 2 * us.length ≤ fuel) (rest : List Token) :
    readDefinition fuel (us ++ rest) = some (d, rest) := by
  cases span with
  | whole => exact readDefinition_tokens fuel valid enough rest
  | short body =>
    simp only [Definition.isValid, Bool.and_eq_true] at valid
    have inside : readBody fuel (bodyTokens body ++ rest) = some (body, rest) :=
      readBody_tokens fuel valid.2.2 enough rest
    change (readBody fuel (bodyTokens body ++ rest)).map _ = _
    rw [inside]
    rfl

theorem readDefinitions_spans (fuel : Nat) {d : Document} {spans : List (List Token)}
    (spanned : List.Forall₂ Definition.Spans d spans) (valid : d.all Definition.isValid = true)
    (enough : 2 * spans.flatten.length + 1 ≤ fuel) :
    readDefinitions fuel spans.flatten = some d := by
  induction spanned generalizing fuel with
  | nil => cases fuel <;> rfl
  | @cons d us ds spans span _ ih =>
    obtain ⟨fuel, rfl⟩ : ∃ n, fuel = n + 1 := ⟨fuel - 1, by omega⟩
    simp only [List.all_cons, Bool.and_eq_true] at valid
    simp only [List.flatten_cons, List.length_append] at enough
    have pos : 1 ≤ us.length := List.length_pos_iff.2 span.ne_nil
    have first := readDefinition_spans fuel span valid.1 (by omega) spans.flatten
    have others := ih fuel valid.2 (by omega)
    have step : ∀ ts : List Token, ts ≠ [] → readDefinitions (fuel + 1) ts =
        (readDefinition fuel ts).bind fun p =>
          (readDefinitions fuel p.2).bind fun definitions => some (p.1 :: definitions) := by
      intro ts present
      cases ts with
      | nil => exact absurd rfl present
      | cons t ts => rfl
    rw [List.flatten_cons, step]
    · simp only [first, others, Option.bind]
    · intro empty
      exact span.ne_nil (List.append_eq_nil_iff.1 empty).1

/-- The tokens of a valid document are read as that document, however deeply it is nested. -/
theorem readTokens?_spans {d : Document} {spans : List (List Token)}
    (spanned : List.Forall₂ Definition.Spans d spans) (valid : isValid d = true) :
    readTokens? spans.flatten = some d := by
  simp only [isValid, Bool.and_eq_true] at valid
  unfold readTokens?
  rw [readDefinitions_spans _ spanned valid.2 (by omega)]
  cases d with
  | nil => cases valid.1
  | cons d ds => rfl

/-- The reader without a bound on the nesting accepts every way to write a document. -/
theorem accepts_readText? : Accepts readText? := by
  intro text d spans valid spanned read
  unfold readText?
  rw [read]
  exact readTokens?_spans spanned valid

theorem forall₂_spans_tokens (d : Document) :
    List.Forall₂ Definition.Spans d (d.map Definition.tokens) := by
  rw [List.forall₂_map_right_iff]
  exact List.forall₂_same.2 fun x _ => .whole x

/-- What accepts every way to write a document implements the grammar. -/
theorem Accepts.implements {read : String → Option Document} (h : Accepts read) :
    Implements read := by
  intro text d valid lexed
  refine h text d _ valid (forall₂_spans_tokens d) ?_
  rw [lexed, tokens, List.flatMap_def]

/-- The reader without a bound on the nesting implements the grammar. -/
theorem implements_readText? : Implements readText? := accepts_readText?.implements

end GraphRequest.Document

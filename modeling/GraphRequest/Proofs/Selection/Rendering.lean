import GraphRequest.Proofs.Document.Grammar
import GraphRequest.Proofs.Document.Spelling
import GraphRequest.Proofs.Selection.Made

/-!
# The text of a selection

A selection that compiling makes is written as the selection of a document with the same alias, name
and arguments, in the same order and nesting: its text spells the tokens of that selection.

* `Item.selection`: the selection of a document that a selection stands for.
* `spells_blockText`: a head with selections in braces spells what the parts spell.
* `Item.Made.spells`: the text of a selection spells its tokens.
* `Item.Made.isValid_selection`: the selection is one of the grammar.
-/

namespace GraphRequest

open Document
open Document.Token (Spells isName trim closed_nil closed_cons spells_intercalate)

/-- The argument of a document that a bound argument stands for. -/
def BoundArgument.argument (a : BoundArgument) : Document.Argument := (a.name, .var a.variableName)

/-- The tokens that an argument is written with. -/
def BoundArgument.tokens (a : BoundArgument) : List Token :=
  [.name a.name, .punctuator ':', .punctuator '$', .name a.variableName]

namespace Item

mutual

/-- The selection of a document that a selection stands for. A raw text is taken for the name of a
field. -/
def selection : Item → Selection
  | .raw text => .field none text [] [] none
  | .field aliasName name arguments body =>
    .field aliasName name (arguments.map BoundArgument.argument) []
      (match body with
        | none => none
        | some items => some (selections items))

/-- The selections that some selections stand for. -/
def selections : List Item → List Selection
  | [] => []
  | i :: is => selection i :: selections is

end

theorem selections_eq_map (items : List Item) : selections items = items.map selection := by
  induction items with
  | nil => rfl
  | cons i items ih => rw [selections, ih, List.map_cons]

end Item

theorem Document.selectionTokens_eq_flatMap (ss : List Selection) :
    selectionTokens ss = ss.flatMap Selection.tokens := by
  induction ss with
  | nil => rfl
  | cons s ss ih => rw [selectionTokens, ih, List.flatMap_cons]

theorem entryTokens_arguments (arguments : List BoundArgument) :
    entryTokens (arguments.map BoundArgument.argument)
      = arguments.flatMap BoundArgument.tokens := by
  induction arguments with
  | nil => rfl
  | cons a as ih =>
    rw [List.flatMap_cons, ← ih]
    rfl

/-! ### Heads -/

/-- The names of arguments and of the variables passed to them are names of the language. -/
def ArgumentsNamed (arguments : List BoundArgument) : Prop :=
  ∀ a ∈ arguments, isName a.name.toList = true ∧ isName a.variableName.toList = true

theorem BoundArgument.spells_text {a : BoundArgument} (name : isName a.name.toList = true)
    (variableName : isName a.variableName.toList = true) : Spells a.tokens a.text.toList := by
  have text : a.text.toList = a.name.toList ++ ':' :: ' ' :: '$' :: a.variableName.toList := by
    simp [BoundArgument.text]
  rw [text]
  apply Spells.text name (closed_cons rfl _)
  exact .punctuator rfl (.ignored rfl (.punctuator rfl (Token.spells_text variableName)))

theorem spells_arguments {arguments : List BoundArgument} (named : ArgumentsNamed arguments) :
    Spells (argumentTokens (arguments.map BoundArgument.argument))
      (if arguments.isEmpty then ""
        else "(" ++ ", ".intercalate (arguments.map BoundArgument.text) ++ ")").toList := by
  cases arguments with
  | nil => exact .nil
  | cons a as =>
    have inside : Spells ((a :: as).flatMap BoundArgument.tokens)
        (", ".intercalate ((a :: as).map BoundArgument.text)).toList :=
      spells_intercalate (by decide) (by decide) fun b hb =>
        BoundArgument.spells_text (named b hb).1 (named b hb).2
    rw [← entryTokens_arguments] at inside
    show Spells (Token.punctuator '(' :: (_ ++ [Token.punctuator ')']))
      ("(" ++ ", ".intercalate ((a :: as).map BoundArgument.text) ++ ")").toList
    rw [String.toList_append, String.toList_append, List.append_assoc]
    exact .punctuator rfl (inside.append (.punctuator rfl .nil) (closed_cons rfl _))

theorem closed_arguments (arguments : List BoundArgument) :
    Token.Closed (if arguments.isEmpty then ""
      else "(" ++ ", ".intercalate (arguments.map BoundArgument.text) ++ ")").toList := by
  cases arguments with
  | nil => exact closed_nil
  | cons a as =>
    show Token.Closed ("(" ++ ", ".intercalate ((a :: as).map BoundArgument.text) ++ ")").toList
    rw [String.toList_append, String.toList_append, List.append_assoc]
    exact closed_cons rfl _

/-- A name or an alias with a name, and arguments in parentheses. White space around the alias means
nothing. -/
theorem spells_headText {aliasName : Option String} {name : String}
    {arguments : List BoundArgument} (aliases : ∀ a ∈ aliasName, isName (trim a).toList = true)
    (named : isName name.toList = true) (arguments_named : ArgumentsNamed arguments) :
    Spells (nameTokens (aliasName.map trim) name ++
        argumentTokens (arguments.map BoundArgument.argument))
      (Item.headText aliasName name arguments).toList := by
  have rest := spells_arguments arguments_named
  have closed := closed_arguments arguments
  unfold Item.headText
  rw [String.toList_append]
  cases aliasName with
  | none => exact (Token.spells_text named).append rest closed
  | some a =>
    have names : Spells [.name (trim a), .punctuator ':', .name name]
        (a ++ ": " ++ name).toList := by
      have text : (a ++ ": " ++ name).toList = a.toList ++ ':' :: ' ' :: name.toList := by simp
      rw [text]
      apply Spells.trimmed (aliases a rfl) (closed_cons rfl _)
      exact .punctuator rfl (.ignored rfl (Token.spells_text named))
    exact names.append rest closed

/-- A name or an alias that is a name, and arguments in parentheses. -/
theorem spells_named_headText {aliasName : Option String} {name : String}
    {arguments : List BoundArgument} (aliases : ∀ a ∈ aliasName, isName a.toList = true)
    (named : isName name.toList = true) (arguments_named : ArgumentsNamed arguments) :
    Spells (nameTokens aliasName name ++ argumentTokens (arguments.map BoundArgument.argument))
      (Item.headText aliasName name arguments).toList := by
  have trimmed : ∀ a ∈ aliasName, trim a = a := fun a ha => Token.trim_of_isName (aliases a ha)
  have same : aliasName.map trim = aliasName := by
    cases aliasName with
    | none => rfl
    | some a => rw [Option.map_some, trimmed a rfl]
  have names : ∀ a ∈ aliasName, isName (trim a).toList = true := by
    intro a ha
    rw [trimmed a ha]
    exact aliases a ha
  have head := spells_headText names named arguments_named
  rwa [same] at head

/-! ### Blocks -/

/-- A head with texts in braces spells what the head and the texts spell. -/
theorem spells_blockText {α : Type} {head : String} {headTokens : List Token}
    {tokens : α → List Token} {text : α → String} {as : List α}
    (spells : Spells headTokens head.toList)
    (each : ∀ a ∈ as, Spells (tokens a) (text a).toList) :
    Spells
      (headTokens ++ Token.punctuator '\x7b' :: (as.flatMap tokens ++ [Token.punctuator '\x7d']))
      (Item.blockText head (as.map text)).toList := by
  have lines_spell : Spells (as.flatMap tokens) ("\n".intercalate (as.map text)).toList :=
    spells_intercalate (by decide) (by decide) each
  have inside := lines_spell.indent
  have lines : (Text.indent ("\n".intercalate (as.map text))).toList
      = Text.indentChars ("\n".intercalate (as.map text)).toList := by
    rw [Text.indent, String.toList_ofList]
  have block : (Item.blockText head (as.map text)).toList
      = head.toList ++ ' ' :: '\x7b' :: '\n' ::
        (Text.indentChars ("\n".intercalate (as.map text)).toList ++ ['\n', '\x7d']) := by
    rw [← lines]
    simp [Item.blockText]
  rw [block]
  refine spells.append (.ignored rfl (.punctuator rfl (.ignored rfl ?_))) (closed_cons rfl _)
  exact inside.append (.ignored rfl (.punctuator rfl .nil)) (closed_cons rfl _)

/-! ### Selections -/

theorem variableName_isName {n : Int} (h : 0 ≤ n) :
    isName (Bindings.variableName n).toList = true := by
  rw [Bindings.toList_variableName h, isName, Bool.and_eq_true, List.all_eq_true]
  refine ⟨by decide, ?_⟩
  intro c hc
  have digit := Nat.isDigit_of_mem_toDigits (by decide) (by decide) hc
  simp [Token.isNameChar, Char.isAlphanum, digit]

section

variable {s : Schema} {first : Int} {type : Value} {i : Item}

/-- The arguments that a field takes go by names. -/
theorem isName_of_takes {f : FieldDef} (named : f.isNamed = true) {arguments : List BoundArgument}
    (takes : f.Takes first arguments) : ∀ a ∈ arguments, isName a.name.toList = true := by
  intro a ha
  obtain ⟨c, found⟩ := Option.isSome_iff_exists.1 (takes.declared a ha)
  obtain ⟨member, name⟩ := FieldDef.argument?_eq_some found
  obtain ⟨text, same, is_name⟩ := ArgumentDef.exists_name (FieldDef.isNamed_of_mem named member)
  rw [name] at same
  cases same
  exact is_name

theorem argumentsNamed_of_takes (counted : 0 ≤ first) {f : FieldDef} (named : f.isNamed = true)
    {arguments : List BoundArgument} (takes : f.Takes first arguments) :
    ArgumentsNamed arguments := by
  intro a ha
  obtain ⟨n, hn, same⟩ := takes.numbered a ha
  refine ⟨isName_of_takes named takes a ha, ?_⟩
  rw [same]
  exact variableName_isName (Int.le_trans counted hn)

theorem isName_of_field (named : s.isNamed = true) {name : String} {f : FieldDef}
    (found : s.field type (.str name) = .ok (some f)) : isName name.toList = true := by
  have field_named := Schema.isNamed_of_field named found
  obtain ⟨t, _, hf⟩ := Schema.field_eq_some found
  simp only [FieldDef.isNamed, Bool.and_eq_true, (TypeDef.field?_eq_some hf).2] at field_named
  exact field_named.1.1

theorem spells_leaf {aliasName : Option String} {name : String} {arguments : List BoundArgument}
    (aliases : ∀ a ∈ aliasName, isName a.toList = true) (named : isName name.toList = true)
    (arguments_named : ArgumentsNamed arguments) :
    Spells (Item.field aliasName name arguments none).selection.tokens
      (Item.field aliasName name arguments none).text.toList := by
  have head := spells_named_headText aliases named arguments_named
  simp only [Item.selection, Selection.tokens, directiveTokens, List.flatMap_nil, List.append_nil,
    Item.text]
  exact head

theorem spells_field {aliasName : Option String} {name : String} {arguments : List BoundArgument}
    {items : List Item} (aliases : ∀ a ∈ aliasName, isName a.toList = true)
    (named : isName name.toList = true) (arguments_named : ArgumentsNamed arguments)
    (below : ∀ i ∈ items, Spells i.selection.tokens i.text.toList) :
    Spells (Item.field aliasName name arguments (some items)).selection.tokens
      (Item.field aliasName name arguments (some items)).text.toList := by
  have block := spells_blockText (spells_named_headText aliases named arguments_named) below
  rw [List.append_assoc] at block
  simp only [Item.selection, Selection.tokens, directiveTokens, List.flatMap_nil, List.nil_append,
    Item.selections_eq_map, selectionTokens_eq_flatMap, List.flatMap_map, Item.text,
    Item.texts_eq_map]
  exact block

/-- The text of a selection spells the tokens of the selection that it stands for. -/
theorem Item.Made.spells (counted : 0 ≤ first) (named : s.isNamed = true)
    (h : i.Made s (fun a => isName a.toList = true) first type) :
    Spells i.selection.tokens i.text.toList := by
  induction h with
  | typename parent =>
    have plain : ArgumentsNamed [] := by
      intro a ha
      cases ha
    exact spells_leaf (by simp) (by decide) plain
  | leaf found takes aliases =>
    exact spells_leaf aliases (isName_of_field named found)
      (argumentsNamed_of_takes counted (Schema.isNamed_of_field named found) takes)
  | block found takes aliases returned present below ih =>
    exact spells_field aliases (isName_of_field named found)
      (argumentsNamed_of_takes counted (Schema.isNamed_of_field named found) takes) ih

theorem entriesValid_arguments (arguments : List BoundArgument) :
    entriesValid false (arguments.map BoundArgument.argument) = true := by
  induction arguments with
  | nil => rfl
  | cons a as ih => exact ih

theorem selectionsValid_of_forall {ss : List Selection} (h : ∀ s ∈ ss, s.isValid = true) :
    selectionsValid ss = true := by
  induction ss with
  | nil => rfl
  | cons s ss ih =>
    rw [selectionsValid, h s (.head _), ih fun s' hs' => h s' (.tail s hs')]
    rfl

theorem isValid_leaf (aliasName : Option String) (name : String) (arguments : List BoundArgument) :
    (Item.field aliasName name arguments none).selection.isValid = true := by
  simp only [Item.selection, Selection.isValid, entriesValid_arguments, List.all_nil, Bool.and_true]

theorem isValid_field (aliasName : Option String) (name : String) (arguments : List BoundArgument)
    {items : List Item} (present : items ≠ [])
    (below : ∀ i ∈ items, i.selection.isValid = true) :
    (Item.field aliasName name arguments (some items)).selection.isValid = true := by
  have nonempty : (items.map Item.selection).isEmpty = false := by
    cases items with
    | nil => exact absurd rfl present
    | cons i items => rfl
  have valid : selectionsValid (items.map Item.selection) = true := by
    apply selectionsValid_of_forall
    intro selection hs
    obtain ⟨i, hi, rfl⟩ := List.mem_map.1 hs
    exact below i hi
  simp only [Item.selection, Item.selections_eq_map, Selection.isValid, entriesValid_arguments,
    List.all_nil, nonempty, valid, Bool.not_false, Bool.and_true]

/-- A selection that compiling makes stands for a selection of the grammar: no body is empty. -/
theorem Item.Made.isValid_selection {aliased : String → Prop} (h : i.Made s aliased first type) :
    i.selection.isValid = true := by
  induction h with
  | typename parent => rfl
  | leaf found takes aliases => exact isValid_leaf _ _ _
  | block found takes aliases returned present below ih => exact isValid_field _ _ _ present ih

end

end GraphRequest

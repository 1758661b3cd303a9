import GraphRequest.Query.Generate

/-!
# Selections character by character

The text of a selection as the list of its characters. The list is put together from those of the
parts, with no strings in between, so that it can be evaluated where a proof runs a request.

* `Item.toList_text`: the characters of a selection.
* `Plan.toList_text`: the characters of the document for a plan.
-/

namespace GraphRequest

/-- The characters of a written argument. -/
def BoundArgument.chars (a : BoundArgument) : List Char :=
  a.name.toList ++ ':' :: ' ' :: '$' :: a.variableName.toList

namespace Item

/-- The characters of an alias, a name and arguments. -/
def headChars (aliasName : Option String) (name : String) (arguments : List BoundArgument) :
    List Char :=
  (match aliasName with
    | some a => a.toList ++ ':' :: ' ' :: name.toList
    | none => name.toList) ++
  if arguments.isEmpty then []
  else '(' :: [',', ' '].intercalate (arguments.map BoundArgument.chars) ++ [')']

theorem toList_headText (aliasName : Option String) (name : String)
    (arguments : List BoundArgument) :
    (headText aliasName name arguments).toList = headChars aliasName name arguments := by
  have written : (arguments.map BoundArgument.text).map String.toList =
      arguments.map BoundArgument.chars := by
    simp [BoundArgument.text, BoundArgument.chars]
  unfold headText headChars
  rw [String.toList_append]
  congr 1
  · cases aliasName with
    | none => rfl
    | some a => simp
  · split
    · rfl
    · simp [String.toList_intercalate, ← written]

/-- The characters of a head followed by selections between braces. -/
def blockChars (head : List Char) (texts : List (List Char)) : List Char :=
  head ++ ([' ', '\x7b', '\n'] ++ Text.indentChars (['\n'].intercalate texts) ++ ['\n', '\x7d'])

theorem toList_blockText (head : String) (texts : List String) :
    (blockText head texts).toList = blockChars head.toList (texts.map String.toList) := by
  simp [blockText, blockChars, Text.indent, String.toList_intercalate]

mutual

/-- The characters of a selection. -/
def chars : Item → List Char
  | .raw text => text.toList
  | .field aliasName name arguments none => headChars aliasName name arguments
  | .field aliasName name arguments (some items) =>
    blockChars (headChars aliasName name arguments) (charsAll items)

/-- The characters of each of several selections. -/
def charsAll : List Item → List (List Char)
  | [] => []
  | i :: is => chars i :: charsAll is

end

mutual

theorem toList_text (i : Item) : i.text.toList = i.chars := by
  match i with
  | .raw text => rfl
  | .field aliasName name arguments none => exact toList_headText aliasName name arguments
  | .field aliasName name arguments (some items) =>
    show (blockText _ _).toList = _
    rw [toList_blockText, toList_headText, map_toList_texts items, chars]

theorem map_toList_texts (items : List Item) :
    (texts items).map String.toList = charsAll items := by
  match items with
  | [] => rfl
  | i :: is => rw [texts, List.map_cons, toList_text i, map_toList_texts is, charsAll]

end

end Item

namespace Plan

/-- The characters of the declared variables of a plan. -/
def declarationChars (p : Plan) : List Char :=
  [',', ' '].intercalate (p.bindings.declarations.map fun d =>
    '$' :: d.name.toList ++ ':' :: ' ' :: (d.type.display p.bindings.marks).toList)

/-- The characters of the operation of a plan before its braces. -/
def headerChars (p : Plan) : List Char :=
  p.operation.text.toList ++ ' ' :: (Text.capitalizeChars p.operation.text.toList ++
    Assembly.pascalChars p.field.toList ++
    if p.declarationChars.isEmpty then [] else '(' :: p.declarationChars ++ [')'])

/-- The characters of the root field of a plan. -/
def fieldChars (p : Plan) : List Char :=
  if p.items.isEmpty then Item.headChars none p.field p.arguments
  else Item.blockChars (Item.headChars none p.field p.arguments) (Item.charsAll p.items)

/-- The characters of the document for a plan with the given fragments. -/
def chars (p : Plan) (fragments : List String) : List Char :=
  ['\n', '\n'].intercalate (Item.blockChars p.headerChars [p.fieldChars] ::
    fragments.map String.toList) ++ ['\n']

theorem toList_header (p : Plan) : p.parts.header.toList = p.headerChars := by
  have declared : p.parts.declarations.toList = p.declarationChars := by
    show p.bindings.declarationsText.toList = _
    simp [Bindings.declarationsText, declarationChars, String.toList_intercalate, Function.comp_def]
  have absent : (p.parts.declarations == "") = p.declarationChars.isEmpty := by
    rw [← declared, Bool.eq_iff_iff]
    simp
  have name : p.parts.operationName =
      Text.capitalize p.operation.text ++ String.ofList (Assembly.pascalChars p.field.toList) :=
    rfl
  have keyword : p.parts.keyword = p.operation.text := rfl
  rw [Assembly.Parts.header, headerChars, name, keyword, absent]
  cases p.declarationChars.isEmpty <;> simp [Text.capitalize, declared]

theorem toList_fieldText (p : Plan) : p.parts.fieldText.toList = p.fieldChars := by
  have items : p.parts.items = Item.texts p.items := (Item.texts_eq_map p.items).symm
  have head : p.parts.fieldHead = Item.headText none p.field p.arguments := by
    show p.field ++ (if (p.arguments.map BoundArgument.text).isEmpty then _ else _) = _
    rw [List.isEmpty_map]
    rfl
  rw [Assembly.Parts.fieldText, fieldChars, head, items, ← Item.toList_headText]
  cases p.items with
  | nil => rfl
  | cons i is =>
    show (Item.blockText _ _).toList = _
    rw [Item.toList_blockText, Item.map_toList_texts]
    rfl

theorem toList_text (p : Plan) (fragments : List String) :
    (p.parts.text fragments).toList = p.chars fragments := by
  rw [Assembly.Parts.text, String.toList_append, String.toList_intercalate, List.map_cons,
    Assembly.Parts.operationText, Item.toList_blockText, List.map_singleton, toList_fieldText,
    toList_header]
  rfl

/-- The document for a plan with the given fragments, read from its characters. -/
def read? (p : Plan) (fragments : List Value) : Option Document := do
  let texts ← (Assembly.fragmentTexts fragments).toOption
  let ts ← Document.Token.ofChars? (p.chars texts)
  Document.readTokens? ts

end Plan

end GraphRequest

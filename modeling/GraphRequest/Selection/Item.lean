import GraphRequest.Query.Arguments
import GraphRequest.Text.Indent

/-!
# Selections before they are written

A selection is a tree: a field with an alias, bound arguments and the selections below it, or raw
text. `Item.text` writes it, the selections of a body on indented lines between braces.

* `Item.texts_eq_map`: the selections of a body are written one by one.
-/

namespace GraphRequest

/-- A selection. -/
inductive Item
  | raw (text : String)
  | field (aliasName : Option String) (name : String) (arguments : List BoundArgument)
      (body : Option (List Item))
deriving Repr, Inhabited

namespace Item

/-- A head followed by selections between braces. -/
def blockText (head : String) (texts : List String) : String :=
  head ++ " \x7b\n" ++ Text.indent ("\n".intercalate texts) ++ "\n\x7d"

/-- A field with its alias and its arguments. -/
def headText (aliasName : Option String) (name : String) (arguments : List BoundArgument) :
    String :=
  (match aliasName with
    | some a => a ++ ": " ++ name
    | none => name) ++
  if arguments.isEmpty then ""
  else "(" ++ ", ".intercalate (arguments.map BoundArgument.text) ++ ")"

mutual

/-- The text of a selection. -/
def text : Item → String
  | .raw text => text
  | .field aliasName name arguments body =>
    match body with
    | none => headText aliasName name arguments
    | some items => blockText (headText aliasName name arguments) (texts items)

/-- The texts of selections. -/
def texts : List Item → List String
  | [] => []
  | i :: is => text i :: texts is

end

/-- A field without alias, arguments and body. -/
def leaf (name : String) : Item := .field none name [] none

/-- The name that the text of a selection begins with. -/
def leadingName (i : Item) : Option String := Text.leadingName i.text

theorem texts_eq_map (is : List Item) : texts is = is.map text := by
  induction is with
  | nil => rfl
  | cons i is ih => simp [texts, ih]

@[simp] theorem text_leaf (name : String) : (leaf name).text = name := by
  simp [leaf, text, headText]

end Item

end GraphRequest

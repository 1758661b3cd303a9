import GraphRequest.Value.Display
import GraphRequest.Value.Json

/-!
# Canonical text

The JSON text of a value with the keys of every object in the order of their code points and
without spaces. Values that differ in the order of keys only have the same canonical text. A column
function is written as its display text.

* `sortByKey_perm`: sorting changes the order of the entries and nothing else.
-/

namespace GraphRequest.Value

/-- Entries in the order of their keys. -/
def sortByKey (fields : List (String × String)) : List (String × String) :=
  fields.mergeSort fun a b => a.1 ≤ b.1

/-- Texts separated by commas. -/
def commaSeparated (texts : List String) : String := ",".intercalate texts

mutual

/-- The canonical text of a value. -/
def canonical : Value → String
  | .null => "null"
  | .bool true => "true"
  | .bool false => "false"
  | .int n => Decimal.integerText n
  | .float d => d.text
  | .str s => jsonString s
  | .arr items => "[" ++ commaSeparated (canonicalItems items) ++ "]"
  | .obj fields =>
    "\x7b" ++ commaSeparated ((sortByKey (canonicalFields fields)).map fun f =>
      jsonString f.1 ++ ":" ++ f.2) ++ "\x7d"
  | .columns names distinct => jsonString (Value.columns names distinct).display

/-- The canonical texts of the items of a list. -/
def canonicalItems : List Value → List String
  | [] => []
  | v :: vs => canonical v :: canonicalItems vs

/-- The canonical texts of the entries of an object, in the order of the object. -/
def canonicalFields : List (String × Value) → List (String × String)
  | [] => []
  | (k, v) :: rest => (k, canonical v) :: canonicalFields rest

end

theorem canonicalItems_eq_map (vs : List Value) : canonicalItems vs = vs.map canonical := by
  induction vs with
  | nil => rfl
  | cons v vs ih => simp [canonicalItems, ih]

theorem canonicalFields_eq_map (fields : Fields) :
    canonicalFields fields = fields.map fun f => (f.1, canonical f.2) := by
  induction fields with
  | nil => rfl
  | cons f rest ih => simp [canonicalFields, ih]

theorem sortByKey_perm (fields : List (String × String)) :
    (sortByKey fields).Perm fields := List.mergeSort_perm fields _

end GraphRequest.Value

import GraphRequest.Failure
import GraphRequest.Text.Blank
import GraphRequest.Text.Word

/-!
# Requested fields

A request says which fields it wants by names, lists and objects in a loose format. An `Entry` is
one wanted field in parsed form. Keys of an object that have no fixed meaning are kept as `Extra`s:
whether such a key is an argument or a field is known only once a schema is at hand, so an extra
holds both its value and what it means as a field.

* `Entry.ofPair`, `Entry.ofItems` and `Entry.ofFields` read the loose format.
* `Entry.name?` is the field that an entry is about, `Entry.key` what entries are merged by.
-/

namespace GraphRequest

mutual

/-- A wanted field. -/
inductive Entry
  /-- Text that is taken over as it is. -/
  | raw (text : String)
  /-- A field that is wanted, or is not. -/
  | toggle (name : String) (included : Bool)
  /-- A field with the entries wanted below it. -/
  | subselection (name : String) (children : List Entry)
  /-- A field with an alias, arguments, entries below it and further keys. -/
  | nested (name : String) (aliasName : Option String) (arguments : List (String × Value))
      (returning : Option (List Entry)) (extras : List Extra)
  /-- The call of a column function. -/
  | columns (name : String) (names distinct : Value)

/-- A key without fixed meaning: its value, and the field it asks for if it is no argument. -/
inductive Extra
  | mk (key : String) (value : Value) (meaning : Except RequestFault Entry)

end

namespace Extra

/-- The key of an extra. -/
def key : Extra → String
  | .mk key _ _ => key

/-- The value of an extra. -/
def value : Extra → Value
  | .mk _ value _ => value

end Extra

/-- The keys of a nested field that are its arguments. -/
def argumentKeys : List String := ["where", "limit", "offset", "order_by", "distinct_on"]

/-- The keys of a nested field with a fixed meaning. -/
def reservedKeys : List String := argumentKeys ++ ["alias", "returning"]

namespace Entry

/-- The words of a text as raw entries. -/
def ofWords (s : String) : List Entry := (Text.words s).map .raw

/-- The alias among the entries of a nested field. -/
def aliasIn (name : String) (fields : Fields) : Except RequestFault (Option String) :=
  match fields.lookup "alias" with
  | none => .ok none
  | some .null => .ok none
  | some (.str s) => .ok (some s)
  | some v => .error (.badAlias name v)

mutual

/-- The entry that a name and a value ask for. -/
def ofPair (given : String) (v : Value) : Except RequestFault Entry :=
  if Text.isBlankText given then .error (.badFieldName (.str given))
  else
    let name := Text.strip given
    match v with
    | .columns names distinct => .ok (.columns name names distinct)
    | .bool b => .ok (.toggle name b)
    | .null => .ok (.toggle name false)
    | .str s => .ok (.subselection name (ofWords s))
    | .arr items => do
      let children ← ofItems items
      .ok (.subselection name children)
    | .obj fields => do
      let aliasName ← aliasIn name fields
      let returning ← returningIn fields
      .ok (.nested name aliasName (fields.filter fun f => argumentKeys.contains f.1) returning
        (extrasIn fields))
    | .int n => .error (.badFieldValue name (.int n))
    | .float d => .error (.badFieldValue name (.float d))

/-- The entries of a list of names and objects. -/
def ofItems : List Value → Except RequestFault (List Entry)
  | [] => .ok []
  | v :: rest => match v with
    | .str s =>
      if Text.isBlankText s then ofItems rest
      else do
        let entries ← ofItems rest
        .ok (.raw (Text.strip s) :: entries)
    | .obj fields => do
      let first ← ofFields fields
      let entries ← ofItems rest
      .ok (first ++ entries)
    | v => .error (.badListEntry v)

/-- The entries of an object, in order. -/
def ofFields : List (String × Value) → Except RequestFault (List Entry)
  | [] => .ok []
  | (name, v) :: rest => do
    let entry ← ofPair name v
    let entries ← ofFields rest
    .ok (entry :: entries)

/-- The entries wanted below a nested field. -/
def ofNested : Value → Except RequestFault (List Entry)
  | .str s => .ok (ofWords s)
  | .arr items => ofItems items
  | .obj fields => ofFields fields
  | v => .error (.badNestedReturning v)

/-- The entries under the key `returning`, if it is given. -/
def returningIn : List (String × Value) → Except RequestFault (Option (List Entry))
  | [] => .ok none
  | (key, v) :: rest =>
    if key == "returning" then
      if v.isNull then .ok none
      else do
        let entries ← ofNested v
        .ok (some entries)
    else returningIn rest

/-- The keys without fixed meaning. -/
def extrasIn : List (String × Value) → List Extra
  | [] => []
  | (key, v) :: rest =>
    if reservedKeys.contains key then extrasIn rest
    else .mk key v (ofPair key v) :: extrasIn rest

end

/-- The entry that a name of any kind and a value ask for. -/
def ofNamed (name v : Value) : Except RequestFault Entry :=
  match name with
  | .str s => ofPair s v
  | name => .error (.badFieldName name)

/-- The field that an entry is about, never its alias. A raw text is about the name that it begins
with. -/
def name? : Entry → Option String
  | .raw text => Text.leadingName text
  | .toggle name _ => some name
  | .subselection name _ => some name
  | .nested name _ _ _ _ => some name
  | .columns name _ _ => some name

/-- The display text of things in a fixed row, from their display texts. -/
def displayRow : List String → String
  | [] => "()"
  | [one] => "(" ++ one ++ ",)"
  | several => "(" ++ ", ".intercalate several ++ ")"

/-- The display text of a key with its value. -/
def displayPair (key : String) (v : Value) : String :=
  displayRow [Text.quoted key, v.display]

mutual

/-- The display text of an entry. -/
def display : Entry → String
  | .raw text => "RawField(text=" ++ Text.quoted text ++ ")"
  | .toggle name included => "FieldToggle(name=" ++ Text.quoted name ++ ", include=" ++
      (Value.bool included).display ++ ")"
  | .subselection name children => "FieldSubselection(name=" ++ Text.quoted name ++
      ", children=" ++ displayRow (displays children) ++ ")"
  | .nested name aliasName arguments returning extras => "NestedField(name=" ++
      Text.quoted name ++ ", alias=" ++ ((aliasName.map Value.str).getD .null).display ++
      ", arguments=" ++ displayRow (arguments.map fun a => displayPair a.1 a.2) ++
      ", returning=" ++ displayBelow returning ++
      ", extras=" ++ displayRow (displayExtras extras) ++ ")"
  | .columns name names distinct => "ColumnFunctionField(name=" ++ Text.quoted name ++
      ", function=" ++ (Value.columns names distinct).display ++ ")"

/-- The display texts of entries. -/
def displays : List Entry → List String
  | [] => []
  | e :: es => display e :: displays es

/-- The display text of the entries wanted below a nested field, if they are given. -/
def displayBelow : Option (List Entry) → String
  | none => "None"
  | some es => displayRow (displays es)

/-- The display texts of the keys without fixed meaning. -/
def displayExtras : List Extra → List String
  | [] => []
  | .mk key v _ :: rest => displayPair key v :: displayExtras rest

end

/-- What an entry is merged by: the field that it is about, and the display text of an entry that is
about none or about one without a name. -/
def key (e : Entry) : String := (e.name?.filter (· != "")).getD e.display

theorem key_of_name? {e : Entry} {name : String} (h : e.name? = some name) (named : name ≠ "") :
    e.key = name := by
  rw [key, h, Option.filter_some_pos (by simpa using named)]
  rfl

example : (subselection "" [.raw "id"]).key =
    "FieldSubselection(name='', children=(RawField(text='id'),))" := by decide

end Entry

/-- The wanted fields of a request: a list replaces the default fields, a tree is merged into
them. -/
inductive Returning
  | list (entries : List Entry)
  | tree (entries : List Entry)

/-- The wanted fields that a value describes; null describes none. -/
def Returning.ofValue : Value → Except RequestFault (Option Returning)
  | .null => .ok none
  | .str s => .ok (some (.list (Entry.ofWords s)))
  | .arr items => (Entry.ofItems items).map fun entries => some (.list entries)
  | .obj fields => (Entry.ofFields fields).map fun entries => some (.tree entries)
  | v => .error (.badReturning v)

/-- The entries of the wanted fields. -/
def Returning.entries : Returning → List Entry
  | .list entries => entries
  | .tree entries => entries

end GraphRequest

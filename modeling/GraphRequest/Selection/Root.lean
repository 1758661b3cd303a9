import GraphRequest.Selection.Compile

/-!
# The root selection

What a document selects on the type that its root field returns. A list of wanted fields replaces
the default selection, a tree is merged into it: an entry takes the place of the default for the
field that it is about. The aggregate of a request is merged in last.

* `Schema.mergeInto` merges entries into selections, `Schema.compileRoot` puts all together.
-/

namespace GraphRequest.Schema

/-- The selections but those whose text begins with the given name. -/
def without (items : List Item) (name : Option String) : List Item :=
  items.filter fun i => i.leadingName != name

/-- Compiles entries on a type: the selections that stay of the given ones, and the new ones. -/
def mergeFrom (s : Schema) (type : Value) (path : List String) :
    List Item → List Entry → Step (List Item × List Item)
  | items, [] => pure (items, [])
  | items, e :: es => do
    let item ← e.compile s type path
    let (kept, more) ← s.mergeFrom type path (without items e.name?) es
    return (kept, item.toList ++ more)

/-- The given selections with entries merged in: each replaces the selections of its field, and new
selections come last. -/
def mergeInto (s : Schema) (items : List Item) (es : List Entry) (type : Value)
    (path : List String) : Step (List Item) := do
  let (kept, more) ← s.mergeFrom type path items es
  return kept ++ more

/-- The entry for the aggregate of a request, if it is not empty. -/
def aggregateEntry (r : Request) : Except Failure (Option Entry) :=
  match r.aggregate with
  | some (f :: fs) =>
    (Failure.ofRequest (Entry.ofPair "aggregate" (.obj (f :: fs)))).map some
  | _ => .ok none

/-- Whether a request asks for any selection. -/
def asksForFields (r : Request) : Bool :=
  r.wanted.isSome || (r.aggregate.map (!·.isEmpty)).getD false

/-- The selection that the wanted fields of a request make on a type. -/
def compileWanted (s : Schema) (r : Request) (type : Value) (aggregate : Bool)
    (path : List String) : Step (List Item) :=
  match r.wanted with
  | some (.list es) => s.compileAll es type path
  | some (.tree es) => do
    let defaults ← Step.of (s.rootDefaults type aggregate)
    s.mergeInto defaults es type path
  | none => Step.of (s.rootDefaults type aggregate)

/-- The selection of the root field of a document. -/
def compileRoot (s : Schema) (r : Request) (type : Value) (aggregate : Bool)
    (path : List String) : Step (List Item) := do
  match ← Step.of (s.selectable type) with
  | none =>
    if asksForFields r then
      Step.report .unknownField ("Type \"" ++ type.text ++
        "\" has no fields to select. Ignoring the requested selections.") path
    return []
  | some _ =>
    let items ← s.compileWanted r type aggregate path
    if aggregate then
      match ← Step.of (aggregateEntry r) with
      | none => return items
      | some e => s.mergeInto items [e] type path
    else return items

end GraphRequest.Schema

import GraphRequest.Request.Basic

/-!
# Naming conventions of root fields

A schema offers several root fields for one collection: the collection itself, its aggregate, one
row by primary key, and the fields that insert, update and delete. The names follow conventions, so
the fields that may serve a request are candidates by name.

* `candidates_ne_nil`: there is always a candidate, the collection itself.
* `mem_candidates_collection`: the collection itself is always among them.
-/

namespace GraphRequest

namespace Naming

/-- How the name of an aggregate field ends. -/
def aggregateEnding : String := "_aggregate"

/-- How the name of a field for one row by primary key ends. -/
def keyEnding : String := "_by_pk"

/-- How the name of a field that inserts one row ends. -/
def oneEnding : String := "_one"

/-- Whether a name ends in another text. -/
def endsIn (name ending : String) : Bool := ending.toList.isSuffixOf name.toList

/-- Whether a name is that of an aggregate field. -/
def isAggregate (name : String) : Bool := endsIn name aggregateEnding

/-- Whether a name is that of a field for one row by primary key. -/
def isByKey (name : String) : Bool := endsIn name keyEnding

/-- Whether a name is that of a field that inserts one row. -/
def isOne (name : String) : Bool := endsIn name oneEnding

/-- Whether an action on a field changes any number of rows. -/
def isBulk (action : Action) (field : String) : Bool :=
  action.isMutation && !isByKey field && !isOne field

theorem length_aggregateEnding : aggregateEnding.length = 10 := by decide

theorem length_keyEnding : keyEnding.length = 6 := by decide

theorem endsIn_append (name ending : String) : endsIn (name ++ ending) ending = true := by
  simp [endsIn, String.toList_append]

end Naming

namespace FieldDef

/-- The name of a field as a text. -/
def nameText (f : FieldDef) : Except ShapeFault String :=
  match f.name with
  | .str s => .ok s
  | _ => .error .noMember

end FieldDef

namespace Request

/-- The candidates before the collection itself: an aggregate request has its aggregate field, a
request by primary key the field for one row, and other changes their own fields. -/
def specialCandidates (r : Request) : List String :=
  if r.isAggregate then [r.collection ++ Naming.aggregateEnding]
  else if !r.pkColumns.isNull && r.action != .insert then
    [r.action.opening ++ r.collection ++ Naming.keyEnding]
  else
    (if r.action == .insert && r.hasSingleObject then
      [r.action.opening ++ r.collection ++ Naming.oneEnding] else []) ++
    (if r.action.isMutation then [r.action.opening ++ r.collection] else [])

/-- The names of the root fields that may serve a request, best one first. -/
def candidates (r : Request) : List String := (r.specialCandidates ++ [r.collection]).eraseDups

theorem mem_candidates_collection (r : Request) : r.collection ∈ r.candidates := by
  simp [candidates, List.mem_eraseDups]

theorem candidates_ne_nil (r : Request) : r.candidates ≠ [] :=
  List.ne_nil_of_mem r.mem_candidates_collection

end Request

/-- The root field chosen for a request. -/
structure RootField where
  name : String
  field : FieldDef
  rootType : Value
  candidates : List String

namespace RootField

/-- Whether the field addresses one row by its primary key. -/
def isByKey (f : RootField) : Bool := Naming.isByKey f.name

/-- Whether the field inserts one row. -/
def isOne (f : RootField) : Bool := Naming.isOne f.name

end RootField

namespace Schema

/-- The first candidate that the root type of the request's operation declares. -/
def resolve (s : Schema) (r : Request) : Except Failure RootField :=
  match s.root r.action.operationType with
  | none => .error (.unresolved r.candidates none)
  | some rootType =>
    match s.type? rootType with
    | none => .error (.misuse (.missingRootType rootType))
    | some t =>
      match r.candidates.findSome? fun name => (t.field? (.str name)).map (name, ·) with
      | none => .error (.unresolved r.candidates (some rootType))
      | some (name, field) => .ok ⟨name, field, rootType, r.candidates⟩

end Schema

end GraphRequest

import GraphRequest.Failure
import GraphRequest.Document.Reading

/-!
# Base types and written types

`TypeRef.base` takes the wrappers off a type reference, `BaseType.wire` writes a base type with its
flags as GraphQL text, and `TypeRef.ofText` reads such a text.

A schema may put a list in place of a name. Writing such a reference without null puts the mark into
the list itself, so that the name grows with every writing: `TypeRef.marked` is the reference after
one writing, `TypeRef.written` the form that it then stands in.

* `base_named`: a named type is its own base type.
* `marked_named`: a name that is a text takes no mark.
-/

namespace GraphRequest

namespace TypeRef

/-- Takes off a wrapper that excludes null, and says whether there was one. -/
def peelNonNull : Option TypeRef → Bool × Option TypeRef
  | some ⟨.nonNull, _, inner⟩ => (true, inner)
  | t => (false, t)

/-- Takes off a list wrapper, and says whether there was one. -/
def peelList : Option TypeRef → Bool × Option TypeRef
  | some ⟨.list, _, inner⟩ => (true, inner)
  | t => (false, t)

/-- The wrappers that exclude null from the items of a list; two of them count as one. -/
def peelItem (t : Option TypeRef) : Bool × Option TypeRef :=
  let (outer, t) := peelNonNull t
  let (inner, t) := peelNonNull t
  (outer || inner, t)

/-- The base type of a reference: at most a list, with or without null inside and outside. -/
def base (t : TypeRef) : Except Failure BaseType :=
  let (isNonNull, t1) := peelNonNull (some t)
  let (isList, t2) := peelList t1
  let (isItemNonNull, t3) := if isList then peelItem t2 else (false, t2)
  match t3 with
  | some ⟨kind, name, _⟩ =>
    if kind.isWrapper || !name.isTruthy then .error (.schema (.noBaseName t))
    else .ok ⟨name, kind, isList, isNonNull, isItemNonNull⟩
  | none => .error (.schema (.noBaseName t))

theorem base_named {kind : TypeKind} {name : String} (hk : kind.isWrapper = false)
    (hn : name ≠ "") : (named kind name).base = .ok ⟨.str name, kind, false, false, false⟩ := by
  cases kind <;> simp_all [named, base, peelNonNull, peelList, Value.isTruthy, TypeKind.isWrapper]

/-- A written type as a reference, its named type being of the given kind. -/
def ofTypeText (kind : TypeKind) : Document.TypeText → TypeRef
  | .named name => named kind name
  | .list item => list (ofTypeText kind item)
  | .nonNull type => nonNull (ofTypeText kind type)

/-- The reference that a text of a type stands for. The reader says which type a text is. -/
def ofTextBy (read : String → Option Document.TypeText) (text : String) (kind : TypeKind) :
    Except Failure TypeRef :=
  match read text with
  | some type => .ok (ofTypeText kind type)
  | none => .error (.schema (.badTypeText text))

/-- The reference that a text of a type stands for. -/
def ofText (text : String) (kind : TypeKind) : Except Failure TypeRef :=
  ofTextBy Document.TypeText.ofText? text kind

end TypeRef

namespace BaseType

/-- The written form inside any mark that excludes null. A name that is no text stands for itself
outside lists. -/
def nullableWire (b : BaseType) : Value :=
  if b.isList then .str ("[" ++ b.name.text ++ (if b.isItemNonNull then "!" else "") ++ "]")
  else b.name

/-- The written form of a base type; it is a text when its name is one. -/
def wire (b : BaseType) : Except Failure Value :=
  if b.isNonNull then
    match b.nullableWire with
    | .str s => .ok (.str (s ++ "!"))
    | .arr items => .ok (.arr (items ++ [.str "!"]))
    | _ => .error (.shape .wrongKind)
  else .ok b.nullableWire

/-- The name of a base type that takes the mark itself: a list, outside of lists and without
null. -/
def growingName? (b : BaseType) : Option (List Value) :=
  if b.isNonNull && !b.isList then
    match b.name with
    | .arr items => some items
    | _ => none
  else none

/-- The form in which a base type stands once it was written: a name that grows holds its marks
already. -/
def written (b : BaseType) : Except Failure Value :=
  match b.growingName? with
  | some items => .ok (.arr items)
  | none => b.wire

theorem growingName?_of_str {b : BaseType} {s : String} (h : b.name = .str s) :
    b.growingName? = none := by
  simp [growingName?, h]

end BaseType

namespace TypeRef

/-- The written form of a type reference. -/
def wire (t : TypeRef) : Except Failure Value := t.base >>= BaseType.wire

/-- The form in which a type reference stands once it was written. -/
def written (t : TypeRef) : Except Failure Value := t.base >>= BaseType.written

/-- A type reference after it was written once more. -/
def marked : TypeRef → TypeRef
  | ⟨.nonNull, outer, some ⟨kind, .arr (v :: vs), inner⟩⟩ =>
    if kind.isWrapper then ⟨.nonNull, outer, some ⟨kind, .arr (v :: vs), inner⟩⟩
    else ⟨.nonNull, outer, some ⟨kind, .arr (v :: vs ++ [.str "!"]), inner⟩⟩
  | t => t

theorem marked_named (kind : TypeKind) (name : String) :
    (nonNull (named kind name)).marked = nonNull (named kind name) := rfl

end TypeRef

end GraphRequest

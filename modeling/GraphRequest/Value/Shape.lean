import GraphRequest.Value.Basic

/-!
# Taking values apart

Each function here asks for one shape and reports a `ShapeFault` when the value has another one:
its items, an entry by name, membership.
-/

namespace GraphRequest

/-- Why a value cannot be used as it is. -/
inductive ShapeFault
  /-- The operation does not apply to this kind of value. -/
  | wrongKind
  /-- The value has no such member. -/
  | noMember
  /-- The object has no entry of that name. -/
  | missingKey
  /-- The text names no case of the enumeration. -/
  | unknownCase
  /-- The list has no such place. -/
  | outOfRange
  /-- The number is too large for double precision. -/
  | tooLarge
deriving DecidableEq, Repr

namespace Value

/-- The items of a list, the characters of a text or the keys of an object. -/
def elements : Value → Except ShapeFault (List Value)
  | .arr items => .ok items
  | .str s => .ok (s.toList.map fun c => .str (String.ofList [c]))
  | .obj fields => .ok (fields.map fun f => .str f.1)
  | _ => .error .wrongKind

/-- The entry of an object under a name, if it has one. -/
def member? (v : Value) (key : String) : Except ShapeFault (Option Value) :=
  match v with
  | .obj fields => .ok (fields.lookup key)
  | _ => .error .noMember

/-- The entry of an object under a name. -/
def entry (v : Value) (key : String) : Except ShapeFault Value :=
  match v with
  | .obj fields => match fields.lookup key with
    | some w => .ok w
    | none => .error .missingKey
  | _ => .error .wrongKind

/-- Whether the second list of characters occurs in the first one. -/
def occursIn : List Char → List Char → Bool
  | [], part => part.isEmpty
  | c :: cs, part => part.isPrefixOf (c :: cs) || occursIn cs part

/-- Membership of a value in a list, among the keys of an object, or as a part of a text. -/
def has (container v : Value) : Except ShapeFault Bool :=
  match container with
  | .obj fields => match v with
    | .str key => .ok (fields.lookup key).isSome
    | v => if v.isKey then .ok false else .error .wrongKind
  | .arr items => .ok (items.any (equals v))
  | .str s => match v with
    | .str part => .ok (occursIn s.toList part.toList)
    | _ => .error .wrongKind
  | _ => .error .wrongKind

/-- The place that a key means in a list: negative numbers count from the end, and the truth values
stand for one and zero. -/
def place (length : Nat) : Value → Except ShapeFault Nat
  | .int n =>
    if 0 ≤ n then .ok n.toNat
    else if n.natAbs ≤ length then .ok (length - n.natAbs)
    else .error .outOfRange
  | .bool b => .ok (if b then 1 else 0)
  | _ => .error .wrongKind

/-- The entry of an object under a key, or the item of a list at a place. -/
def item (container key : Value) : Except ShapeFault Value :=
  match container, key with
  | .obj fields, .str key => match fields.lookup key with
    | some w => .ok w
    | none => .error .missingKey
  | .obj _, key => .error (if key.isKey then .missingKey else .wrongKind)
  | .arr items, key => do
    let n ← key.place items.length
    match items[n]? with
    | some w => .ok w
    | none => .error .outOfRange
  | _, _ => .error .wrongKind

/-- The number of items of a list or object, or of characters of a text. -/
def size : Value → Except ShapeFault Nat
  | .arr items => .ok items.length
  | .obj fields => .ok fields.length
  | .str s => .ok s.length
  | _ => .error .wrongKind

@[simp] theorem elements_arr (items : List Value) : (Value.arr items).elements = .ok items := rfl

@[simp] theorem has_obj_str (fields : Fields) (key : String) :
    (Value.obj fields).has (.str key) = .ok (fields.lookup key).isSome := rfl

end Value

end GraphRequest

import GraphRequest.Decimal.Shortest

/-!
# Values

The data that requests, schemas and results are made of: null, booleans, integers, fractions,
texts, lists, and objects whose keys keep their order. One more leaf, `columns`, stands for the
call of a column function such as `count`. Integers and fractions are different values even when
they are the same number.

* `beq_iff_eq`: structural equality is decidable.
* `equals` compares as numbers and without regard to the order of keys.
-/

namespace GraphRequest

/-- A value. -/
inductive Value
  | null
  | bool (b : Bool)
  | int (n : Int)
  | float (d : Decimal)
  | str (s : String)
  | arr (items : List Value)
  | obj (fields : List (String × Value))
  | columns (names distinct : Value)
deriving Inhabited, Repr

/-- The entries of an object, in order. -/
abbrev Fields := List (String × Value)

namespace Value

/-! ### Structural equality -/

mutual

/-- Structural equality of values. -/
def beq : Value → Value → Bool
  | .null, .null => true
  | .bool a, .bool b => a == b
  | .int a, .int b => a == b
  | .float a, .float b => a == b
  | .str a, .str b => a == b
  | .arr a, .arr b => beqItems a b
  | .obj a, .obj b => beqFields a b
  | .columns a b, .columns c d => beq a c && beq b d
  | _, _ => false

/-- Structural equality of lists. -/
def beqItems : List Value → List Value → Bool
  | [], [] => true
  | a :: as, b :: bs => beq a b && beqItems as bs
  | _, _ => false

/-- Structural equality of object entries. -/
def beqFields : List (String × Value) → List (String × Value) → Bool
  | [], [] => true
  | (k, a) :: as, (l, b) :: bs => k == l && beq a b && beqFields as bs
  | _, _ => false

end

mutual

theorem beq_iff_eq : ∀ a b : Value, beq a b = true ↔ a = b
  | .null, b => by cases b <;> simp [beq]
  | .bool a, b => by cases b <;> simp [beq]
  | .int a, b => by cases b <;> simp [beq]
  | .float a, b => by cases b <;> simp [beq]
  | .str a, b => by cases b <;> simp [beq]
  | .arr a, b => by cases b <;> simp [beq, beqItems_iff_eq a]
  | .obj a, b => by cases b <;> simp [beq, beqFields_iff_eq a]
  | .columns a b, c => by cases c <;> simp [beq, beq_iff_eq a, beq_iff_eq b]

theorem beqItems_iff_eq : ∀ a b : List Value, beqItems a b = true ↔ a = b
  | [], b => by cases b <;> simp [beqItems]
  | x :: xs, b => by cases b <;> simp [beqItems, beq_iff_eq x, beqItems_iff_eq xs]

theorem beqFields_iff_eq : ∀ a b : List (String × Value), beqFields a b = true ↔ a = b
  | [], b => by cases b <;> simp [beqFields]
  | (k, x) :: xs, b => by
    rcases b with _ | ⟨⟨l, y⟩, ys⟩
    · simp [beqFields]
    · simp [beqFields, beq_iff_eq x, beqFields_iff_eq xs, Prod.ext_iff]

end

instance : DecidableEq Value := fun a b =>
  decidable_of_iff (beq a b = true) (beq_iff_eq a b)

/-! ### Equality of contents -/

/-- The number that a value is; a boolean counts as one or zero. -/
def number? : Value → Option Rat
  | .bool b => some (if b then 1 else 0)
  | .int n => some n
  | .float d => some d.exact
  | _ => none

/-- Equality of two values without parts. -/
def equalsLeaf (a b : Value) : Bool :=
  match a.number?, b.number? with
  | some x, some y => x == y
  | none, none => a == b
  | _, _ => false

mutual

/-- Equality of contents: numbers by their value, objects without regard to the order of keys. -/
def equals : Value → Value → Bool
  | .arr a, b => match b with
    | .arr b => equalsItems a b
    | _ => false
  | .obj a, b => match b with
    | .obj b => a.length == b.length && equalsFields a b
    | _ => false
  | .columns a b, c => match c with
    | .columns c d => equals a c && equals b d
    | _ => false
  | a, b => equalsLeaf a b

/-- Equality of contents of two lists. -/
def equalsItems : List Value → List Value → Bool
  | [], [] => true
  | a :: as, b :: bs => equals a b && equalsItems as bs
  | _, _ => false

/-- Whether every entry of the first object has an equal one in the second. -/
def equalsFields : List (String × Value) → List (String × Value) → Bool
  | [], _ => true
  | (k, a) :: as, b =>
    (match b.lookup k with
      | some v => equals a v
      | none => false) && equalsFields as b

end

/-! ### Simple questions -/

/-- Whether a value counts as given: not null, false, zero or empty. -/
def isTruthy : Value → Bool
  | .null => false
  | .bool b => b
  | .int n => n != 0
  | .float d => d.digits != 0
  | .str s => s != ""
  | .arr items => !items.isEmpty
  | .obj fields => !fields.isEmpty
  | .columns _ _ => true

/-- Whether a value is null. -/
def isNull : Value → Bool
  | .null => true
  | _ => false

/-- A value that is not null. -/
def given : Value → Option Value
  | .null => none
  | v => some v

/-- Whether a value can be looked up by: lists and objects cannot. -/
def isKey : Value → Bool
  | .arr _ => false
  | .obj _ => false
  | .columns a b => a.isKey && b.isKey
  | _ => true

@[simp] theorem isKey_str (s : String) : (Value.str s).isKey = true := rfl

@[simp] theorem given_eq_none {v : Value} : v.given = none ↔ v = .null := by
  cases v <;> simp [given]

end Value

end GraphRequest

import GraphRequest.Keyed
import GraphRequest.Value.Basic

/-!
# Parts of values

A test may be asked of a value and of all the values inside it. An object whose keys are pairwise
different is a map from its keys; values are read and compared on the understanding that all objects
in them are such maps.

* `inductParts`: induction over a value, the parts of a list or an object being members of it.
* `equals_self`: a value all of whose objects are maps equals itself.
* `isJson`: the values that are JSON data, each of them in one form.
-/

namespace GraphRequest

/-- Whether no zeros stand at the end of the digits of a fraction. A fraction without zeros at its
end is the only such form of its number. -/
def Decimal.isReduced (d : Decimal) : Bool :=
  d.digits % 10 != 0 || (d.digits == 0 && d.exponent == 0)

namespace Value

/-- What holds of a value if it holds of its parts holds of every value. -/
@[elab_as_elim]
theorem inductParts {motive : Value → Prop} (null : motive .null) (bool : ∀ b, motive (.bool b))
    (int : ∀ n, motive (.int n)) (float : ∀ d, motive (.float d)) (str : ∀ s, motive (.str s))
    (arr : ∀ items : List Value, (∀ v ∈ items, motive v) → motive (.arr items))
    (obj : ∀ fields : Fields, (∀ f ∈ fields, motive f.2) → motive (.obj fields))
    (columns : ∀ names distinct : Value, motive names → motive distinct →
      motive (.columns names distinct)) (v : Value) : motive v :=
  @Value.rec motive (fun items => ∀ v ∈ items, motive v) (fun fields => ∀ f ∈ fields, motive f.2)
    (fun f => motive f.2) null bool int float str arr obj columns
    (List.forall_mem_nil _) (fun _ _ head tail => List.forall_mem_cons.2 ⟨head, tail⟩)
    (List.forall_mem_nil _) (fun _ _ head tail => List.forall_mem_cons.2 ⟨head, tail⟩)
    (fun _ _ h => h) v

mutual

/-- Whether a test holds of a value and of every value inside it. -/
def everywhere (p : Value → Bool) : Value → Bool
  | .arr items => p (.arr items) && everywhereItems p items
  | .obj fields => p (.obj fields) && everywhereFields p fields
  | .columns names distinct =>
    p (.columns names distinct) && everywhere p names && everywhere p distinct
  | v => p v

/-- Whether a test holds everywhere in the items of a list. -/
def everywhereItems (p : Value → Bool) : List Value → Bool
  | [] => true
  | v :: vs => everywhere p v && everywhereItems p vs

/-- Whether a test holds everywhere in the entries of an object. -/
def everywhereFields (p : Value → Bool) : List (String × Value) → Bool
  | [] => true
  | (_, v) :: rest => everywhere p v && everywhereFields p rest

end

variable {p : Value → Bool}

theorem everywhereItems_iff {items : List Value} :
    everywhereItems p items = true ↔ ∀ v ∈ items, everywhere p v = true := by
  induction items with
  | nil => simp [everywhereItems]
  | cons v vs ih => simp [everywhereItems, ih]

theorem everywhereFields_iff {fields : Fields} :
    everywhereFields p fields = true ↔ ∀ f ∈ fields, everywhere p f.2 = true := by
  induction fields with
  | nil => simp [everywhereFields]
  | cons f rest ih => simp [everywhereFields, ih]

theorem everywhere_arr {items : List Value} : everywhere p (.arr items) = true ↔
    p (.arr items) = true ∧ ∀ v ∈ items, everywhere p v = true := by
  rw [everywhere, Bool.and_eq_true, everywhereItems_iff]

theorem everywhere_obj {fields : Fields} : everywhere p (.obj fields) = true ↔
    p (.obj fields) = true ∧ ∀ f ∈ fields, everywhere p f.2 = true := by
  rw [everywhere, Bool.and_eq_true, everywhereFields_iff]

/-! ### Objects as maps -/

/-- Whether a value is no object in which a key occurs twice. -/
def isMap : Value → Bool
  | .obj fields => decide (Keyed.keys fields).Nodup
  | _ => true

/-- Whether every object in a value is a map from its keys. -/
def hasDistinctKeys (v : Value) : Bool := v.everywhere isMap

theorem hasDistinctKeys_arr {items : List Value} : (arr items).hasDistinctKeys = true ↔
    ∀ v ∈ items, v.hasDistinctKeys = true := by
  simp [hasDistinctKeys, everywhere_arr, isMap]

theorem hasDistinctKeys_obj {fields : Fields} : (obj fields).hasDistinctKeys = true ↔
    (Keyed.keys fields).Nodup ∧ ∀ f ∈ fields, f.2.hasDistinctKeys = true := by
  simp [hasDistinctKeys, everywhere_obj, isMap]

theorem hasDistinctKeys_columns {names distinct : Value} :
    (columns names distinct).hasDistinctKeys = true ↔
      names.hasDistinctKeys = true ∧ distinct.hasDistinctKeys = true := by
  simp [hasDistinctKeys, everywhere, isMap]

/-! ### JSON data -/

/-- Whether a value, its parts apart, is JSON data: no column function, no key twice, and no zeros
at the end of a fraction. -/
def isJsonHead : Value → Bool
  | .obj fields => decide (Keyed.keys fields).Nodup
  | .float d => d.isReduced
  | .columns _ _ => false
  | _ => true

/-- Whether a value is JSON data. -/
def isJson (v : Value) : Bool := v.everywhere isJsonHead

theorem isJson_arr {items : List Value} : (arr items).isJson = true ↔
    ∀ v ∈ items, v.isJson = true := by
  simp [isJson, everywhere_arr, isJsonHead]

theorem isJson_obj {fields : Fields} : (obj fields).isJson = true ↔
    (Keyed.keys fields).Nodup ∧ ∀ f ∈ fields, f.2.isJson = true := by
  simp [isJson, everywhere_obj, isJsonHead]

/-! ### Equality of contents -/

theorem equalsLeaf_self (v : Value) : equalsLeaf v v = true := by
  unfold equalsLeaf
  split
  · simp_all
  · simp
  · rename_i h₁ h₂
    cases h : v.number? with
    | some n => exact (h₁ n n h h).elim
    | none => exact (h₂ h h).elim

theorem equalsItems_self {items : List Value} (each : ∀ v ∈ items, v.equals v = true) :
    equalsItems items items = true := by
  induction items with
  | nil => rfl
  | cons v vs ih =>
    rw [equalsItems, each v (by simp), ih fun w hw => each w (by simp [hw])]
    rfl

/-- Entries that are found in an object are equal to what is found there. -/
theorem equalsFields_of_lookup {found all : Fields} (each : ∀ f ∈ found, f.2.equals f.2 = true)
    (stands : ∀ f ∈ found, all.lookup f.1 = some f.2) : equalsFields found all = true := by
  induction found with
  | nil => rfl
  | cons f rest ih =>
    obtain ⟨k, v⟩ := f
    have here : all.lookup k = some v := stands (k, v) (by simp)
    have equal : v.equals v = true := each (k, v) (by simp)
    rw [equalsFields, here, ih (fun f hf => each f (by simp [hf]))
      fun f hf => stands f (by simp [hf])]
    simp [equal]

theorem equals_self {v : Value} (distinct : v.hasDistinctKeys = true) : v.equals v = true := by
  induction v using inductParts with
  | null => exact equalsLeaf_self .null
  | bool b => exact equalsLeaf_self (.bool b)
  | int n => exact equalsLeaf_self (.int n)
  | float d => exact equalsLeaf_self (.float d)
  | str s => exact equalsLeaf_self (.str s)
  | arr items ih =>
    rw [equals]
    exact equalsItems_self fun v hv => ih v hv (hasDistinctKeys_arr.1 distinct v hv)
  | obj fields ih =>
    obtain ⟨distinct, inside⟩ := hasDistinctKeys_obj.1 distinct
    rw [equals, beq_self_eq_true, Bool.true_and]
    exact equalsFields_of_lookup (fun f hf => ih f hf (inside f hf))
      fun f hf => (Keyed.lookup_eq_some distinct).2 hf
  | columns names rows ihn ihr =>
    obtain ⟨hn, hr⟩ := hasDistinctKeys_columns.1 distinct
    rw [equals, ihn hn, ihr hr]
    rfl

end Value

end GraphRequest

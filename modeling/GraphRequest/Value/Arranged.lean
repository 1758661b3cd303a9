import Mathlib.Data.List.Nodup
import GraphRequest.Value.Canonical
import GraphRequest.Value.Parts

/-!
# Values without an order of keys

An arranged value has the keys of every object in the order of their code points. Two values are the
same up to the order of keys, at every depth, just if they are the same when they are arranged.

* `isJson_arranged`: JSON data stays JSON data.
* `arranged_of_perm`: entries in another order are arranged alike.
* `lookup_arrangedFields`: arranging an object arranges what is found under a key.
-/

namespace GraphRequest

namespace Value

/-- Entries in the order of their keys. -/
def sortFields (fields : Fields) : Fields := fields.mergeSort fun a b => a.1 ≤ b.1

mutual

/-- The value with the keys of every object in it in order. -/
def arranged : Value → Value
  | .arr items => .arr (arrangedItems items)
  | .obj fields => .obj (sortFields (arrangedEntries fields))
  | v => v

/-- The items of a list, each of them arranged. -/
def arrangedItems : List Value → List Value
  | [] => []
  | v :: vs => arranged v :: arrangedItems vs

/-- The entries of an object with arranged values, in the order of the object. -/
def arrangedEntries : List (String × Value) → List (String × Value)
  | [] => []
  | (k, v) :: rest => (k, arranged v) :: arrangedEntries rest

end

/-- The entries of an object with arranged values, in the order of their keys. -/
def arrangedFields (fields : Fields) : Fields :=
  sortFields (fields.map fun f => (f.1, f.2.arranged))

theorem arrangedItems_eq_map (items : List Value) : arrangedItems items = items.map arranged := by
  induction items with
  | nil => rfl
  | cons v vs ih => rw [arrangedItems, ih, List.map_cons]

theorem arrangedEntries_eq_map (fields : Fields) :
    arrangedEntries fields = fields.map fun f => (f.1, f.2.arranged) := by
  induction fields with
  | nil => rfl
  | cons f rest ih => rw [arrangedEntries, ih, List.map_cons]

theorem arranged_arr (items : List Value) :
    (arr items).arranged = .arr (items.map arranged) := by
  rw [arranged, arrangedItems_eq_map]

theorem arranged_obj (fields : Fields) :
    (obj fields).arranged = .obj (arrangedFields fields) := by
  rw [arranged, arrangedEntries_eq_map]
  rfl

/-! ### The order of entries -/

theorem sortFields_perm (fields : Fields) : (sortFields fields).Perm fields :=
  List.mergeSort_perm fields _

theorem arrangedFields_perm (fields : Fields) :
    (arrangedFields fields).Perm (fields.map fun f => (f.1, f.2.arranged)) := sortFields_perm _

theorem mem_arrangedFields {fields : Fields} {f : String × Value} :
    f ∈ arrangedFields fields ↔ ∃ g ∈ fields, (g.1, g.2.arranged) = f := by
  rw [(arrangedFields_perm fields).mem_iff, List.mem_map]

theorem keys_map_arranged (fields : Fields) :
    Keyed.keys (fields.map fun f => (f.1, f.2.arranged)) = Keyed.keys fields := by
  rw [Keyed.keys, List.map_map]
  rfl

theorem keys_arrangedFields_perm (fields : Fields) :
    (Keyed.keys (arrangedFields fields)).Perm (Keyed.keys fields) := by
  have h := (arrangedFields_perm fields).map Prod.fst
  rw [← keys_map_arranged fields]
  exact h

theorem sortFields_sorted (fields : Fields) :
    (sortFields fields).Pairwise fun a b => a.1 ≤ b.1 := by
  have sorted : (sortFields fields).Pairwise fun a b => decide (a.1 ≤ b.1) = true := by
    apply List.pairwise_mergeSort
    · intro a b c hab hbc
      exact decide_eq_true (String.le_trans (of_decide_eq_true hab) (of_decide_eq_true hbc))
    · intro a b
      simpa using String.le_total a.1 b.1
  exact sorted.imp of_decide_eq_true

/-- Entries with different keys have one order. -/
theorem sortFields_of_perm {fields others : Fields} (distinct : (Keyed.keys fields).Nodup)
    (perm : fields.Perm others) : sortFields fields = sortFields others := by
  have perm' : (sortFields fields).Perm (sortFields others) :=
    (sortFields_perm fields).trans (perm.trans (sortFields_perm others).symm)
  refine List.Perm.eq_of_pairwise ?_ (sortFields_sorted fields) (sortFields_sorted others) perm'
  intro f g hf hg before behind
  have hf : f ∈ fields := (sortFields_perm fields).mem_iff.1 hf
  have hg : g ∈ fields := perm.symm.mem_iff.1 ((sortFields_perm others).mem_iff.1 hg)
  exact List.inj_on_of_nodup_map distinct hf hg (String.le_antisymm before behind)

/-- The order of entries does not matter to an arranged object. -/
theorem arranged_of_perm {fields others : Fields} (distinct : (Keyed.keys fields).Nodup)
    (perm : fields.Perm others) : (obj fields).arranged = (obj others).arranged := by
  rw [arranged_obj, arranged_obj, arrangedFields, sortFields_of_perm _ (perm.map _)]
  · rfl
  · rw [keys_map_arranged]
    exact distinct

/-- JSON data stays JSON data. -/
theorem isJson_arranged {v : Value} (json : v.isJson = true) : v.arranged.isJson = true := by
  induction v using inductParts with
  | arr items ih =>
    rw [arranged_arr, isJson_arr]
    intro w hw
    obtain ⟨v, hv, rfl⟩ := List.mem_map.1 hw
    exact ih v hv (isJson_arr.1 json v hv)
  | obj fields ih =>
    obtain ⟨distinct, inside⟩ := isJson_obj.1 json
    rw [arranged_obj, isJson_obj]
    refine ⟨(keys_arrangedFields_perm fields).nodup_iff.2 distinct, ?_⟩
    intro f hf
    obtain ⟨g, hg, rfl⟩ := mem_arrangedFields.1 hf
    exact ih g hg (inside g hg)
  | _ => exact json

/-! ### What is found -/

/-- Arranging an object arranges what is found under a key. -/
theorem lookup_arrangedFields {fields : Fields} (distinct : (Keyed.keys fields).Nodup)
    (key : String) :
    (arrangedFields fields).lookup key = (fields.lookup key).map arranged := by
  have distinct' : (Keyed.keys (arrangedFields fields)).Nodup :=
    (keys_arrangedFields_perm fields).nodup_iff.2 distinct
  apply Option.ext
  intro w
  rw [Keyed.lookup_eq_some distinct', (arrangedFields_perm fields).mem_iff, Option.map_eq_some_iff,
    List.mem_map]
  constructor
  · rintro ⟨⟨k, v⟩, hf, same⟩
    obtain ⟨rfl, rfl⟩ := Prod.mk.inj same
    exact ⟨v, (Keyed.lookup_eq_some distinct).2 hf, rfl⟩
  · rintro ⟨v, found, rfl⟩
    exact ⟨(key, v), (Keyed.lookup_eq_some distinct).1 found, rfl⟩

/-! ### Simple questions -/

@[simp] theorem isTruthy_arranged (v : Value) : v.arranged.isTruthy = v.isTruthy := by
  cases v with
  | arr items =>
    rw [arranged_arr, isTruthy, isTruthy, List.isEmpty_map]
  | obj fields =>
    rw [arranged_obj, isTruthy, isTruthy, (arrangedFields_perm fields).isEmpty_eq, List.isEmpty_map]
  | _ => rfl

@[simp] theorem isNull_arranged (v : Value) : v.arranged.isNull = v.isNull := by
  cases v <;> rfl

@[simp] theorem isKey_arranged (v : Value) : v.arranged.isKey = v.isKey := by
  cases v <;> rfl

/-- What can be looked up by has no order. -/
theorem arranged_of_isKey {v : Value} (key : v.isKey = true) : v.arranged = v := by
  cases v with
  | arr items => cases key
  | obj fields => cases key
  | _ => rfl

end Value

end GraphRequest

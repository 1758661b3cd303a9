import GraphRequest.Proofs.Selection.Later

/-!
# Declarations of later variables

The text of the declarations holds the names of the variables and their types, and a type is written
from the name of a base type, from brackets and from marks. With later variables the text is the
same but for their names.

* `DeclaredType.passes_ofArgument`: what a declared type is written from.
* `Bindings.Declares`: the invariant on the declarations of a plan.
* `laterText_declarations`: the text of the declarations of later variables.
-/

namespace GraphRequest

open Document.Token Step

variable {p : Char → Bool} {k : Nat}

theorem allPass_append {s t : String} :
    allPass p (s ++ t) = true ↔ allPass p s = true ∧ allPass p t = true := by
  rw [allPass, String.toList_append, List.all_append, Bool.and_eq_true]
  rfl

section

variable (plain : ∀ c, c ≠ '$' → p c = true)

include plain

theorem allPass_of_not_mem {s : String} (h : '$' ∉ s.toList) : allPass p s = true :=
  List.all_eq_true.2 (pass_of_not_mem plain h)

/-! ### Types -/

theorem Value.allPass_displayItems_append {items more : List Value}
    (first : allPass p (displayItems items) = true)
    (second : allPass p (displayItems more) = true) :
    allPass p (displayItems (items ++ more)) = true := by
  have separated {v : Value} {rest : List Value} (head : allPass p v.display = true)
      (tail : allPass p (displayItems rest) = true) :
      allPass p (v.display ++ ", " ++ displayItems rest) = true :=
    allPass_append.2 ⟨allPass_append.2 ⟨head, allPass_of_not_mem plain (by decide)⟩, tail⟩
  induction items with
  | nil => exact second
  | cons v items ih =>
    cases items with
    | nil =>
      cases more with
      | nil => exact first
      | cons w more => exact separated first second
    | cons w items =>
      obtain ⟨before, rest⟩ := allPass_append.1 first
      exact separated (allPass_append.1 before).1 (ih rest)

theorem Value.allPass_displayItems_marks (n : Nat) :
    allPass p (displayItems (List.replicate n (.str "!"))) = true := by
  induction n with
  | zero => rfl
  | succ n ih =>
    have mark : allPass p (displayItems [.str "!"]) = true :=
      allPass_of_not_mem plain (by decide +kernel)
    rw [List.replicate_succ, ← List.singleton_append]
    exact allPass_displayItems_append plain mark ih

theorem BaseType.allPass_wire {base : BaseType} (name : allPass p base.name.text = true)
    (steady : base.growingName? = none) {w : Value} (h : base.wire = .ok w) :
    allPass p w.text = true := by
  have nullable : allPass p base.nullableWire.text = true := by
    unfold nullableWire
    split
    · have mark : allPass p (if base.isItemNonNull then "!" else "") = true := by
        split
        · exact allPass_of_not_mem plain (by decide)
        · rfl
      refine allPass_append.2 ⟨allPass_append.2 ⟨allPass_append.2 ⟨?_, name⟩, mark⟩, ?_⟩
      · exact allPass_of_not_mem plain (by decide)
      · exact allPass_of_not_mem plain (by decide)
    · exact name
  unfold wire at h
  split at h
  · rename_i nonNull
    split at h
    · rename_i s same
      cases h
      rw [same] at nullable
      exact allPass_append.2 ⟨nullable, allPass_of_not_mem plain (by decide)⟩
    · -- A name that is a list takes the mark itself, so that it grows.
      rename_i items same
      unfold nullableWire at same
      split at same
      · cases same
      · rename_i unlisted
        simp only [growingName?, nonNull, unlisted, same] at steady
        cases steady
    · cases h
  · cases h
    exact nullable

/-- The type of a variable is written from the name of a base type, whatever marks it has. -/
theorem DeclaredType.passes_ofArgument {a : ArgumentDef}
    (names : a.namesPass (Value.textPasses p) = true) {type : DeclaredType}
    (h : ofArgument a = .ok type) (left : List Mark) : allPass p (type.display left) = true := by
  rw [ArgumentDef.namesPass, Bool.and_eq_true] at names
  obtain ⟨base, hb, h⟩ := bind_eq_ok.1 h
  have name : allPass p base.name.text = true := TypeRef.passes_of_base names.2 hb
  split at h
  · rename_i items grows
    cases h
    unfold BaseType.growingName? at grows
    split at grows
    · split at grows
      · rename_i listed
        cases grows
        rw [listed] at name
        obtain ⟨inside, close⟩ := allPass_append.1 name
        obtain ⟨opened, inside⟩ := allPass_append.1 inside
        have marked := Value.allPass_displayItems_append plain inside
          (Value.allPass_displayItems_marks plain (left.count a.mark))
        exact allPass_append.2 ⟨allPass_append.2 ⟨opened, marked⟩, close⟩
      · cases grows
    · cases grows
  · rename_i steady
    obtain ⟨w, wired, h⟩ := bind_eq_ok.1 h
    cases h
    exact BaseType.allPass_wire plain name steady wired

/-! ### Declarations -/

/-- All declared variables have numbers, and types that are written from texts that pass a test. -/
def Bindings.Declares (p : Char → Bool) (b : Bindings) : Prop :=
  0 ≤ b.counter ∧ ∀ d ∈ b.declarations, (∃ n : Int, 0 ≤ n ∧ d.name = variableName n) ∧
    ∀ left, allPass p (d.type.display left) = true

theorem Bindings.declares_stable :
    Stable (fun a => a.namesPass (Value.textPasses p) = true) (Declares p) where
  report := fun b d h => h
  bind := by
    intro b a v name b' names run h
    obtain ⟨type, made, declarations⟩ := bind_declarations run
    have counter := bind_counter run
    refine ⟨by have := h.1; omega, ?_⟩
    intro d hd
    rw [declarations, declare] at hd
    split at hd
    · rcases List.mem_append.1 hd with hd | hd
      · exact h.2 d hd
      · rw [List.mem_singleton.1 hd]
        exact ⟨⟨b.counter, h.1, rfl⟩, DeclaredType.passes_ofArgument plain names made⟩
    · exact h.2 d hd

/-- The declarations of later variables. -/
theorem laterText_declarations {b : Bindings} (h : b.Declares p) :
    LaterText p k b.declarationsText (b.shift k).declarationsText := by
  refine renumbered_intercalate ", " (pass_of_not_mem plain (by decide))
    (closed_cons (by decide) [' ']) (by decide)
    (List.forall₂_map_right_iff.2 (List.forall₂_same.2 fun d hd => ?_))
  obtain ⟨⟨n, counted, name⟩, passes⟩ := h.2 d hd
  have text (name type : String) : ("$" ++ name ++ ": " ++ type).toList =
      '$' :: (name.toList ++ ([':', ' '] ++ type.toList)) := by
    simp
  show Renumbered _ _ ("$" ++ d.name ++ ": " ++ d.type.display b.marks).toList
    ("$" ++ shiftVariable k d.name ++ ": " ++ d.type.display b.marks).toList
  rw [text, text, name]
  refine renumbered_variable counted (closed_cons (by decide) _) (Renumbered.prepend ?_ ?_)
  · exact laterText_self (passes b.marks)
  · exact pass_of_not_mem plain (by decide)

end

end GraphRequest

import GraphRequest.Proofs.Document.Renumbered
import GraphRequest.Proofs.Query.Numbering

/-!
# Numbering from a later number on

When the numbering of a request begins later by some number, its variables are called otherwise and
nothing else changes. The two runs are compared step by step: the later one gathers the same with
its variables shifted, and no step ever reads the number of a variable that was bound before.

* `shiftVariable`, `Bindings.shift`: the later names, and all that was gathered with them.
* `Step.Shifts`: a step does the same on shifted bindings, with its law for each operation.
* `shifts_bindEach`, `shifts_bindNestedFrom`: binding arguments.
-/

namespace GraphRequest

open Document (Token)

/-! ### Variables -/

/-- The name of a variable whose number is greater by some number. -/
def shiftVariable (k : Nat) (name : String) : String :=
  String.ofList (Token.shiftHead k name.toList)

theorem shiftVariable_variableName (k : Nat) {n : Int} (counted : 0 ≤ n) :
    shiftVariable k (Bindings.variableName n) = Bindings.variableName (n + k) := by
  have whole := Token.shiftHead_digits (k := k) (n := n.natAbs) Token.closed_nil
  rw [List.append_nil, List.append_nil] at whole
  have later : (n + k).natAbs = n.natAbs + k := by omega
  rw [shiftVariable, Bindings.toList_variableName counted, whole, ← later,
    ← Bindings.toList_variableName (by omega), String.ofList_toList]

/-- A declaration of a later variable. -/
def Declaration.shift (k : Nat) (d : Declaration) : Declaration :=
  { d with name := shiftVariable k d.name }

/-- An argument that is passed a later variable. -/
def BoundArgument.shift (k : Nat) (a : BoundArgument) : BoundArgument :=
  { a with variableName := shiftVariable k a.variableName }

namespace Bindings

/-- The bindings with all variables shifted. -/
def shift (k : Nat) (b : Bindings) : Bindings :=
  { b with
    counter := b.counter + k
    variableValues := b.variableValues.map fun p => (shiftVariable k p.1, p.2)
    declarations := b.declarations.map (Declaration.shift k) }

theorem shift_start (k : Nat) (first : Int) : (start first).shift k = start (first + k) := rfl

theorem namesBetween_shift (k : Nat) {first : Int} (counted : 0 ≤ first) (next : Int) :
    (namesBetween first next).map (shiftVariable k) = namesBetween (first + k) (next + k) := by
  have count : next + k - (first + k) = next - first := by omega
  rw [namesBetween, namesBetween, List.map_map, count]
  refine List.map_congr_left fun n _ => ?_
  show shiftVariable k (variableName (first + n)) = variableName (first + k + n)
  rw [shiftVariable_variableName k (by omega)]
  congr 1
  omega

variable {first : Int} {b : Bindings}

/-- Shifted variables are numbered from the shifted first number on. -/
theorem Numbered.shift (counted : 0 ≤ first) (h : Numbered first b) (k : Nat) :
    Numbered (first + k) (b.shift k) where
  le := Int.add_le_add_right h.le k
  bound := by
    show ((b.variableValues.map _).map Prod.fst) = _
    rw [List.map_map]
    show b.variableValues.map (shiftVariable k ∘ Prod.fst) = _
    rw [← List.map_map]
    show (Keyed.keys b.variableValues).map (shiftVariable k) = _
    rw [h.bound, namesBetween_shift k counted]
    rfl
  declared := by
    show ((b.declarations.map (Declaration.shift k)).map Declaration.name) = _
    rw [List.map_map]
    show b.declarations.map (shiftVariable k ∘ Declaration.name) = _
    rw [← List.map_map, h.declared, namesBetween_shift k counted]
    rfl

/-- Binding an argument binds the shifted variable on shifted bindings. -/
theorem bind_shift (counted : 0 ≤ first) (h : Numbered first b) (k : Nat) (a : ArgumentDef)
    (v : Value) : (b.shift k).bind a v =
      (b.bind a v).map fun p => (shiftVariable k p.1, p.2.shift k) := by
  have next := h.le
  have name : variableName (b.counter + k) = shiftVariable k (variableName b.counter) :=
    (shiftVariable_variableName k (by omega)).symm
  simp only [bind]
  cases DeclaredType.ofArgument a with
  | error fault => rfl
  | ok type =>
    have new : variableName b.counter ∉ b.declarations.map Declaration.name := by
      rw [h.declared]
      exact variableName_not_mem _ _
    have new' : variableName (b.counter + k) ∉
        (b.declarations.map (Declaration.shift k)).map Declaration.name := by
      have numbered := h.shift counted k
      show variableName (b.counter + k) ∉ (b.shift k).declarations.map Declaration.name
      rw [numbered.declared]
      exact variableName_not_mem _ _
    have declared := declare_of_not_mem (d := ⟨variableName b.counter, type⟩) new
    have declared' := declare_of_not_mem (d := ⟨variableName (b.counter + k), type⟩) new'
    rw [name] at declared'
    show Except.ok (variableName (b.counter + k), _) = Except.ok (shiftVariable k _, _)
    simp only [shift, declared, name, declared', List.map_append]
    rw [Int.add_right_comm]
    rfl

end Bindings

/-! ### Steps -/

namespace Step

open Bindings (Numbered)

variable {α β γ δ : Type} {k : Nat}

/-- On shifted bindings the second step fails as the first one does, or it returns the changed value
and gathers the same with all variables shifted; and variables remain numbered. -/
def Shifts (k : Nat) (g : α → β) (x : Step α) (y : Step β) : Prop :=
  ∀ (first : Nat) (b : Bindings), Numbered first b →
    y.result (b.shift k) = (x.result b).map (fun p => (g p.1, p.2.shift k)) ∧
      ∀ a b', Runs x b a b' → Numbered first b'

theorem shifts_pure (g : α → β) (a : α) : Shifts k g (pure a) (pure (g a)) := by
  intro first b numbered
  refine ⟨rfl, fun c b' run => ?_⟩
  rw [(runs_pure.1 run).2]
  exact numbered

theorem shifts_bind {g : α → β} {h : γ → δ} {x : Step α} {y : Step β} {f : α → Step γ}
    {f' : β → Step δ} (shifts : Shifts k g x y)
    (next : ∀ b a b', Runs x b a b' → Shifts k h (f a) (f' (g a))) :
    Shifts k h (x >>= f) (y >>= f') := by
  intro first b numbered
  obtain ⟨same, stays⟩ := shifts first b numbered
  refine ⟨?_, fun c b'' run => ?_⟩
  · rw [result_bind, result_bind, same]
    cases ran : x.result b with
    | error fault => rfl
    | ok p => exact (next b p.1 p.2 ran first p.2 (stays p.1 p.2 ran)).1
  · obtain ⟨a, b', run₁, run₂⟩ := runs_bind.1 run
    exact (next b a b' run₁ first b' (stays a b' run₁)).2 c b'' run₂

theorem shifts_of {g : α → β} {r : Except Failure α} {r' : Except Failure β}
    (same : r' = r.map g) : Shifts k g (of r) (of r') := by
  intro first b numbered
  refine ⟨?_, fun a b' run => ?_⟩
  · rw [same]
    cases r <;> rfl
  · rw [(runs_of.1 run).2]
    exact numbered

/-- A step that gathers nothing is the same on shifted bindings. -/
theorem shifts_of_self (r : Except Failure α) : Shifts k id (of r) (of r) := by
  refine shifts_of ?_
  cases r <;> rfl

theorem shifts_report (code : DiagnosticCode) (message : String) (path : List String) :
    Shifts k id (report code message path) (report code message path) := by
  intro first b numbered
  refine ⟨rfl, fun u b' run => ?_⟩
  rw [runs_report.1 run]
  exact ⟨numbered.le, numbered.bound, numbered.declared⟩

theorem shifts_bindArgument (a : ArgumentDef) (v : Value) :
    Shifts k (shiftVariable k) (bindArgument a v) (bindArgument a v) := by
  have counted (first : Nat) : (0 : Int) ≤ first := Int.natCast_nonneg first
  intro first b numbered
  refine ⟨?_, fun name b' run => ?_⟩
  · have shifted := Bindings.bind_shift (counted first) numbered k a v
    simp only [result, bindArgument, shifted]
    cases b.bind a v <;> rfl
  · exact (Bindings.numbered_stable _).bind b a v name b' trivial
      (runs_bindArgument.1 run) numbered

end Step

open Step

variable {k : Nat}

/-! ### Arguments -/

namespace Request

theorem shifts_payloadValue (r : Request) (f : FieldDef) (plural : Bool) :
    Shifts k id (r.payloadValue f plural) (r.payloadValue f plural) := by
  refine shifts_bind (shifts_of_self _) fun _ field _ _ => ?_
  have rows : Shifts k id (do
      let rows ← ofShape r.rowsValue
      return some rows) (do
      let rows ← ofShape r.rowsValue
      return some rows) := shifts_bind (shifts_of_self _) fun _ _ _ _ => shifts_pure id _
  cases plural with
  | true =>
    simp only [if_true, id_eq]
    split
    · exact shifts_bind (shifts_report _ _ _) fun _ _ _ _ => rows
    · exact rows
  | false =>
    simp only [Bool.false_eq_true, if_false, id_eq]
    split
    · exact shifts_pure id _
    · refine shifts_bind (shifts_of_self _) fun _ row _ _ => ?_
      cases row with
      | some row => exact shifts_pure id _
      | none =>
        refine shifts_bind (shifts_of_self _) fun _ count _ _ => ?_
        exact shifts_bind (shifts_report _ _ _) fun _ _ _ _ => shifts_pure id _

theorem shifts_payloadFor (r : Request) (f : FieldDef) (name : Value) :
    Shifts k id (r.payloadFor f name) (r.payloadFor f name) := by
  unfold payloadFor
  split
  · exact shifts_pure id _
  · split
    · exact shifts_payloadValue r f true
    · split
      · exact shifts_payloadValue r f false
      · exact shifts_pure id _

theorem shifts_rootValue (r : Request) (f : FieldDef) (name : Value) :
    Shifts k id (r.rootValue f name) (r.rootValue f name) := by
  refine shifts_bind (shifts_of_self _) fun _ v _ _ => ?_
  cases v with
  | some v => exact shifts_pure id _
  | none =>
    dsimp only [id_eq]
    split
    · exact shifts_pure id _
    · refine shifts_bind (shifts_payloadFor r f name) fun _ v _ _ => ?_
      cases v with
      | some v => exact shifts_pure id _
      | none =>
        dsimp only [id_eq]
        split
        · exact shifts_pure id _
        · exact shifts_of_self _

/-- The root field is passed the shifted variables. -/
theorem shifts_bindEach (r : Request) (f : FieldDef) (arguments : List ArgumentDef) :
    Shifts k (List.map (BoundArgument.shift k)) (r.bindEach f arguments)
      (r.bindEach f arguments) := by
  induction arguments with
  | nil => exact shifts_pure (List.map (BoundArgument.shift k)) []
  | cons a rest ih =>
    refine shifts_bind (shifts_rootValue r f a.name) fun _ v _ _ => ?_
    cases v with
    | none => exact ih
    | some v =>
      refine shifts_bind (shifts_bindArgument a v) fun _ name _ _ => ?_
      refine shifts_bind ih fun _ bound _ _ => ?_
      exact shifts_pure (List.map (BoundArgument.shift k)) (⟨a.name.text, name⟩ :: bound)

end Request

/-- A field below the root is passed the shifted variables. -/
theorem FieldDef.shifts_bindNestedFrom (f : FieldDef) (path done : List String)
    (arguments : Fields) :
    Shifts k (List.map (BoundArgument.shift k)) (f.bindNestedFrom path done arguments)
      (f.bindNestedFrom path done arguments) := by
  induction arguments generalizing done with
  | nil => exact shifts_pure (List.map (BoundArgument.shift k)) []
  | cons p rest ih =>
    obtain ⟨name, v⟩ := p
    unfold bindNestedFrom
    split
    · exact ih done
    · split
      · exact shifts_bind (shifts_report _ _ _) fun _ _ _ _ => ih done
      · rename_i a _
        refine shifts_bind (shifts_bindArgument a v) fun _ used _ _ => ?_
        refine shifts_bind (ih (name :: done)) fun _ others _ _ => ?_
        exact shifts_pure (List.map (BoundArgument.shift k)) (⟨name, used⟩ :: others)

end GraphRequest

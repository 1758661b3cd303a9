import GraphRequest.Proofs.Query.Envelopes
import GraphRequest.Proofs.Query.Numbering
import GraphRequest.Proofs.Value.Texts

/-!
# Where the rows to insert go

The root field of an insertion takes the rows as its argument `objects` or `object`. The two
arguments are visited one by one, each with a decision of its own. Together the decisions bind the
rows once, or report that they could not be bound, but for two shapes of a field: one that has no
argument to take the rows, where they are dropped without a report, and one for a single row that
declares both arguments, where they are bound twice.

* `Request.BoundEach`: how the arguments of the root field are bound, one after the other.
* `runs_rootValue_objects`, `runs_rootValue_object`: what the two decisions are.
* `Request.Lost`, `Request.Doubled`: the two shapes.
* `settled_iff`: the rows are bound once or reported except for these shapes.
-/

namespace GraphRequest

open Document (readText?)
open Step

theorem Bindings.stable_mem (p : String × Value) :
    Stable (fun _ => True) fun b => p ∈ b.variableValues where
  report _ _ h := h
  bind b a v name b' _ binds h := by
    rw [(bind_variableValues binds).2]
    exact List.mem_append_left _ h

theorem FieldDef.exists_name_iff {f : FieldDef} {name : String} :
    (∃ a ∈ f.arguments, a.name = .str name) ↔ f.declares name = true := by
  constructor
  · rintro ⟨a, ha, named⟩
    exact declares_of_mem ha named
  · intro declared
    obtain ⟨a, found⟩ := Option.isSome_iff_exists.1 declared
    exact ⟨a, argument?_eq_some found⟩

namespace Request

variable {r : Request} {f : FieldDef} {b b' : Bindings}

/-! ### The arguments one by one -/

/-- How the arguments of a root field are bound, one after the other: those that the request has no
value for are passed over. -/
inductive BoundEach (r : Request) (f : FieldDef) :
    List ArgumentDef → Bindings → List BoundArgument → Bindings → Prop
  | nil {b : Bindings} : BoundEach r f [] b [] b
  | skip {a : ArgumentDef} {rest : List ArgumentDef} {bound : List BoundArgument}
      {b b₁ b' : Bindings} (unfilled : Runs (r.rootValue f a.name) b none b₁)
      (others : BoundEach r f rest b₁ bound b') : BoundEach r f (a :: rest) b bound b'
  | take {a : ArgumentDef} {rest : List ArgumentDef} {bound : List BoundArgument} {v : Value}
      {name : String} {b b₁ b₂ b' : Bindings} (filled : Runs (r.rootValue f a.name) b (some v) b₁)
      (binds : b₁.bind a v = .ok (name, b₂)) (others : BoundEach r f rest b₂ bound b') :
      BoundEach r f (a :: rest) b (⟨a.name.text, name⟩ :: bound) b'

theorem boundEach_of_runs {arguments : List ArgumentDef} {bound : List BoundArgument}
    (h : Runs (r.bindEach f arguments) b bound b') : BoundEach r f arguments b bound b' := by
  induction arguments generalizing b bound with
  | nil =>
    obtain ⟨rfl, rfl⟩ := runs_pure.1 h
    exact .nil
  | cons a rest ih =>
    obtain ⟨o, b₁, value, h₁⟩ := runs_bind.1 h
    cases o with
    | none => exact .skip value (ih h₁)
    | some v =>
      obtain ⟨name, b₂, binds, h₂⟩ := runs_bind.1 h₁
      obtain ⟨others, b₃, ran, h₃⟩ := runs_bind.1 h₂
      obtain ⟨rfl, rfl⟩ := runs_pure.1 h₃
      exact .take value (runs_bindArgument.1 binds) (ih ran)

namespace BoundEach

variable {arguments : List ArgumentDef} {bound : List BoundArgument}

theorem mem_variableValues (h : BoundEach r f arguments b bound b') {p : String × Value}
    (hp : p ∈ b.variableValues) : p ∈ b'.variableValues := by
  have kept (name : Value) : Keeps (fun b => p ∈ b.variableValues) (r.rootValue f name) :=
    keeps_rootValue (fun _ _ h => h) r f name
  induction h with
  | nil => exact hp
  | skip unfilled _ ih => exact ih (kept _ _ _ _ unfilled hp)
  | take filled binds _ ih =>
    exact ih ((Bindings.stable_mem p).bind _ _ _ _ _ trivial binds (kept _ _ _ _ filled hp))

/-- An argument that was bound has the value that the request has for it. -/
theorem exists_value (h : BoundEach r f arguments b bound b') {x : BoundArgument}
    (hx : x ∈ bound) : ∃ a ∈ arguments, a.name.text = x.name ∧
      ∃ v b₁ b₂, Runs (r.rootValue f a.name) b₁ (some v) b₂ ∧
        (x.variableName, v) ∈ b'.variableValues := by
  induction h with
  | nil => cases hx
  | skip unfilled _ ih =>
    obtain ⟨a, ha, found⟩ := ih hx
    exact ⟨a, .tail _ ha, found⟩
  | @take a rest _ v _ b b₁ b₂ _ filled binds others ih =>
    rcases List.mem_cons.1 hx with rfl | hx
    · have bound := (Bindings.bind_variableValues binds).2
      refine ⟨a, .head _, rfl, v, b, b₁, filled, mem_variableValues others ?_⟩
      rw [bound]
      exact List.mem_append_right _ (.head _)
    · obtain ⟨a, ha, found⟩ := ih hx
      exact ⟨a, .tail _ ha, found⟩

/-- An argument that the request has a value for is bound. -/
theorem unfilled_or_bound (h : BoundEach r f arguments b bound b') {a : ArgumentDef}
    (ha : a ∈ arguments) : ∃ o b₁ b₂, Runs (r.rootValue f a.name) b₁ o b₂ ∧
      ∀ v, o = some v → ∃ x ∈ bound, x.name = a.name.text ∧
        (x.variableName, v) ∈ b'.variableValues := by
  induction h with
  | nil => cases ha
  | skip unfilled _ ih =>
    rcases List.mem_cons.1 ha with rfl | ha
    · exact ⟨none, _, _, unfilled, nofun⟩
    · exact ih ha
  | @take a rest _ v name b b₁ b₂ _ filled binds others ih =>
    rcases List.mem_cons.1 ha with rfl | ha
    · refine ⟨some v, _, _, filled, ?_⟩
      rintro _ ⟨⟩
      have bound := (Bindings.bind_variableValues binds).2
      refine ⟨_, .head _, rfl, mem_variableValues others ?_⟩
      rw [bound]
      exact List.mem_append_right _ (.head _)
    · obtain ⟨o, b₃, b₄, ran, taken⟩ := ih ha
      refine ⟨o, b₃, b₄, ran, fun v hv => ?_⟩
      obtain ⟨x, hx, found⟩ := taken v hv
      exact ⟨x, .tail _ hx, found⟩

/-- Arguments with different names are bound once: at most one bound argument goes by a name that
begins with a small letter. -/
theorem eq_of_name_eq (h : BoundEach r f arguments b bound b')
    (distinct : arguments.Pairwise fun a b => b.name.equals a.name = false) {name : String}
    {c : Char} (begins : name.toList.head? = some c) (lower : c.isLower = true)
    {x y : BoundArgument} (hx : x ∈ bound) (hy : y ∈ bound) (named : x.name = name)
    (named' : y.name = name) : x = y := by
  induction h with
  | nil => cases hx
  | skip _ _ ih => exact ih (List.pairwise_cons.1 distinct).2 hx hy
  | @take a rest bound v variable' b b₁ b₂ b' filled binds others ih =>
    -- No later argument goes by the name of the first one.
    have later {z : BoundArgument} (hz : z ∈ bound) (first : a.name.text = name) :
        z.name ≠ name := by
      intro last
      obtain ⟨a', ha', same, _⟩ := others.exists_value hz
      have apart := (List.pairwise_cons.1 distinct).1 a' ha'
      rw [Value.eq_str_of_text begins lower first,
        Value.eq_str_of_text begins lower (same.trans last), Value.equals_str_self] at apart
      cases apart
    rcases List.mem_cons.1 hx with rfl | hx <;> rcases List.mem_cons.1 hy with rfl | hy
    · rfl
    · exact absurd named' (later hy named)
    · exact absurd named (later hx named')
    · exact ih (List.pairwise_cons.1 distinct).2 hx hy

end BoundEach

/-! ### The two decisions -/

/-- Whether a field that declares both arguments takes the rows as `objects` only. -/
def givesWay (f : FieldDef) (name : String) : Bool :=
  f.declares "objects" && f.declares "object" && !Naming.isOne name

/-- The rows as a list are always there. At most, that they could go elsewhere is reported. -/
theorem runs_payloadValue_objects {o : Option Value} (h : Runs (r.payloadValue f true) b o b') :
    ∃ rows, r.rowsValue = .ok rows ∧ o = some rows ∧
      (b' = b ∨ ∃ d : Diagnostic, d.code = .ambiguousInsert ∧ b' = b.report d) := by
  obtain ⟨field, b₁, ran, h₁⟩ := runs_bind.1 h
  obtain ⟨_, rfl⟩ := runs_ofShape.1 ran
  have rows {b : Bindings} (h : Runs (do
      let rows ← ofShape r.rowsValue
      return some rows) b o b') : ∃ rows, r.rowsValue = .ok rows ∧ o = some rows ∧ b' = b := by
    obtain ⟨rows, b₂, ran, h₂⟩ := runs_bind.1 h
    obtain ⟨given, rfl⟩ := runs_ofShape.1 ran
    obtain ⟨rfl, rfl⟩ := runs_pure.1 h₂
    exact ⟨rows, given, rfl, rfl⟩
  simp only [if_true] at h₁
  split at h₁
  · obtain ⟨_, b₂, ran, h₂⟩ := runs_bind.1 h₁
    have reported := runs_report.1 ran
    obtain ⟨items, given, bound, rfl⟩ := rows h₂
    exact ⟨items, given, bound, .inr ⟨_, rfl, reported⟩⟩
  · obtain ⟨items, given, bound, rfl⟩ := rows h₁
    exact ⟨items, given, bound, .inl rfl⟩

/-- The outcomes for the argument of one row: it leaves the rows to `objects`, takes the only one,
or reports that there is not just one. -/
inductive RowOutcome (r : Request) (f : FieldDef) (name : String) (b : Bindings) :
    Option Value → Bindings → Prop
  | left (leaves : givesWay f name = true) : RowOutcome r f name b none b
  | given {row : Value} (keeps : givesWay f name = false) (only : r.rowValue? = .ok (some row)) :
      RowOutcome r f name b (some row) b
  | unmatched {d : Diagnostic} (keeps : givesWay f name = false) (several : r.rowValue? = .ok none)
      (code : d.code = .unmatchedInsert) : RowOutcome r f name b none (b.report d)

theorem runs_payloadValue_object {name : String} {o : Option Value}
    (named : f.nameText = .ok name) (h : Runs (r.payloadValue f false) b o b') :
    RowOutcome r f name b o b' := by
  obtain ⟨field, b₁, ran, h₁⟩ := runs_bind.1 h
  obtain ⟨same, rfl⟩ := runs_ofShape.1 ran
  cases named.symm.trans same
  simp only [Bool.false_eq_true, if_false] at h₁
  split at h₁
  · rename_i leaves
    obtain ⟨rfl, rfl⟩ := runs_pure.1 h₁
    exact .left leaves
  · rename_i keeps
    have keeps : givesWay f name = false := Bool.eq_false_iff.2 keeps
    obtain ⟨row, b₂, ran, h₂⟩ := runs_bind.1 h₁
    obtain ⟨only, rfl⟩ := runs_ofShape.1 ran
    cases row with
    | some row =>
      obtain ⟨rfl, rfl⟩ := runs_pure.1 h₂
      exact .given keeps only
    | none =>
      obtain ⟨count, b₃, ran, h₃⟩ := runs_bind.1 h₂
      obtain ⟨_, rfl⟩ := runs_ofShape.1 ran
      obtain ⟨_, b₄, ran, h₄⟩ := runs_bind.1 h₃
      obtain ⟨rfl, rfl⟩ := runs_pure.1 h₄
      rw [runs_report.1 ran]
      exact .unmatched keeps only rfl

/-- An argument takes the value of its key column, or else one of the rows to insert, or else one
from the rest of the request. -/
inductive ArgumentOutcome (r : Request) (f : FieldDef) (name : Value) (b : Bindings) :
    Option Value → Bindings → Prop
  | key {v : Value} (keyed : r.keyValue? f name = .ok (some v)) :
      ArgumentOutcome r f name b (some v) b
  | set (unkeyed : r.keyValue? f name = .ok none) (named : name = .str "_set") :
      ArgumentOutcome r f name b (some r.setValues) b
  | rows {v : Value} {b' : Bindings} (unkeyed : r.keyValue? f name = .ok none)
      (given : Runs (r.payloadFor f name) b (some v) b') : ArgumentOutcome r f name b (some v) b'
  | other {o : Option Value} {b' : Bindings} (unkeyed : r.keyValue? f name = .ok none)
      (ungiven : Runs (r.payloadFor f name) b none b')
      (rest : (r.plainValue name).given = o ∧ o ≠ none ∨ r.furtherValue? name = .ok o) :
      ArgumentOutcome r f name b o b'

theorem runs_rootValue {name : Value} {o : Option Value} (h : Runs (r.rootValue f name) b o b') :
    ArgumentOutcome r f name b o b' := by
  obtain ⟨key, b₁, ran, h₁⟩ := runs_bind.1 h
  obtain ⟨keyed, rfl⟩ := runs_ofShape.1 ran
  cases key with
  | some v =>
    obtain ⟨rfl, rfl⟩ := runs_pure.1 h₁
    exact .key keyed
  | none =>
    dsimp only at h₁
    split at h₁
    · rename_i set
      obtain ⟨rfl, rfl⟩ := runs_pure.1 h₁
      rw [Bool.and_eq_true, beq_iff_eq] at set
      exact .set keyed set.1
    · obtain ⟨given, b₂, ran, h₂⟩ := runs_bind.1 h₁
      cases given with
      | some v =>
        obtain ⟨rfl, rfl⟩ := runs_pure.1 h₂
        exact .rows keyed ran
      | none =>
        dsimp only at h₂
        split at h₂
        · rename_i v plain
          obtain ⟨rfl, rfl⟩ := runs_pure.1 h₂
          exact .other keyed ran (.inl ⟨plain, Option.some_ne_none v⟩)
        · obtain ⟨further, rfl⟩ := runs_ofShape.1 h₂
          exact .other keyed ran (.inr further)

/-- The argument `objects` takes the rows unless a key column goes by that name. -/
theorem runs_rootValue_objects {o : Option Value} (payload : r.hasPayload = true)
    (h : Runs (r.rootValue f (.str "objects")) b o b') :
    (∃ v, r.keyValue? f (.str "objects") = .ok (some v) ∧ o = some v ∧ b' = b) ∨
      r.keyValue? f (.str "objects") = .ok none ∧ ∃ rows, r.rowsValue = .ok rows ∧ o = some rows ∧
        (b' = b ∨ ∃ d : Diagnostic, d.code = .ambiguousInsert ∧ b' = b.report d) := by
  have rows : r.payloadFor f (.str "objects") = r.payloadValue f true := by
    simp [payloadFor, payload]
  cases runs_rootValue h with
  | key keyed => exact .inl ⟨_, keyed, rfl, rfl⟩
  | set unkeyed named => exact absurd named (by decide)
  | rows unkeyed given =>
    rw [rows] at given
    exact .inr ⟨unkeyed, runs_payloadValue_objects given⟩
  | other unkeyed ungiven rest =>
    rw [rows] at ungiven
    obtain ⟨_, _, same, _⟩ := runs_payloadValue_objects ungiven
    cases same

/-- The argument `object` has one of its outcomes unless a key column goes by that name. -/
theorem runs_rootValue_object {name : String} {o : Option Value} (payload : r.hasPayload = true)
    (named : f.nameText = .ok name) (ungiven : r.arguments.has (.str "object") = .ok false)
    (h : Runs (r.rootValue f (.str "object")) b o b') :
    (∃ v, r.keyValue? f (.str "object") = .ok (some v) ∧ o = some v ∧ b' = b) ∨
      r.keyValue? f (.str "object") = .ok none ∧ RowOutcome r f name b o b' := by
  have row : r.payloadFor f (.str "object") = r.payloadValue f false := by
    simp [payloadFor, payload]
  cases runs_rootValue h with
  | key keyed => exact .inl ⟨_, keyed, rfl, rfl⟩
  | set unkeyed same => exact absurd same (by decide)
  | rows unkeyed given =>
    rw [row] at given
    exact .inr ⟨unkeyed, runs_payloadValue_object named given⟩
  | other unkeyed none' rest =>
    rw [row] at none'
    have further : r.furtherValue? (.str "object") = .ok none := by
      rw [furtherValue?, ungiven]
      rfl
    rcases rest with ⟨plain, present⟩ | further'
    · exact absurd plain.symm present
    · cases further.symm.trans further'
      exact .inr ⟨unkeyed, runs_payloadValue_object named none'⟩

/-- Only the two arguments for the rows report anything. -/
theorem runs_rootValue_of_ne {name : Value} {o : Option Value} (row : name ≠ .str "object")
    (rows : name ≠ .str "objects") (h : Runs (r.rootValue f name) b o b') : b' = b := by
  have nothing : r.payloadFor f name = pure none := by
    simp [payloadFor, row, rows]
  cases runs_rootValue h with
  | key keyed => rfl
  | set unkeyed named => rfl
  | rows unkeyed given =>
    rw [nothing] at given
    exact (runs_pure.1 given).2
  | other unkeyed ungiven rest =>
    rw [nothing] at ungiven
    exact (runs_pure.1 ungiven).2

/-! ### Lost and doubled rows -/

/-- Whether an argument is open to the rows to insert: its field declares it, and no key column of
the request goes by its name. -/
def Takes (r : Request) (f : FieldDef) (name : String) : Prop :=
  f.declares name = true ∧ r.keyValue? f (.str name) = .ok none

/-- The rows to insert go nowhere: `objects` is not open to them, and `object` is not either or
leaves them to `objects`. -/
def Lost (r : Request) (f : FieldDef) (name : String) : Prop :=
  ¬ r.Takes f "objects" ∧ (r.Takes f "object" → givesWay f name = true)

/-- There is one row to insert, and a field for one row declares both arguments. -/
structure Doubled (r : Request) (f : FieldDef) (name : String) : Prop where
  rows : f.declares "objects" = true
  row : f.declares "object" = true
  single : Naming.isOne name = true
  given : ∃ row, r.rowValue? = .ok (some row)

/-- Whether a bound argument has its value from the rows to insert, and not from a key column. -/
def Delivers (r : Request) (f : FieldDef) (values : Fields) (x : BoundArgument) : Prop :=
  r.keyValue? f (.str x.name) = .ok none ∧ ∃ v, values.lookup x.variableName = some v ∧
    (x.name = "objects" ∧ r.rowsValue = .ok v ∨ x.name = "object" ∧ r.rowValue? = .ok (some v))

/-- The argument `object` is open to the rows and keeps them, but there is not just one. -/
structure Refuses (r : Request) (f : FieldDef) (name : String) : Prop where
  unkeyed : r.keyValue? f (.str "object") = .ok none
  keeps : givesWay f name = false
  several : r.rowValue? = .ok none

/-- A visit to an argument reports unmatched rows just if it is `object` and refuses them. -/
theorem unmatched_of_runs {a : Value} {name : String} {o : Option Value}
    (payload : r.hasPayload = true) (named : f.nameText = .ok name)
    (ungiven : r.arguments.has (.str "object") = .ok false) (h : Runs (r.rootValue f a) b o b') :
    (∃ d ∈ b'.diagnostics, d.code = .unmatchedInsert) ↔
      (∃ d ∈ b.diagnostics, d.code = .unmatchedInsert) ∨ a = .str "object" ∧ r.Refuses f name := by
  by_cases row : a = .str "object"
  · subst row
    obtain ⟨v, keyed, _, rfl⟩ | ⟨unkeyed, outcome⟩ :=
      runs_rootValue_object payload named ungiven h
    · refine (or_iff_left ?_).symm
      rintro ⟨_, refuses⟩
      cases keyed.symm.trans refuses.unkeyed
    · cases outcome with
      | left leaves =>
        refine (or_iff_left ?_).symm
        rintro ⟨_, refuses⟩
        cases leaves.symm.trans refuses.keeps
      | given _ only =>
        refine (or_iff_left ?_).symm
        rintro ⟨_, refuses⟩
        cases only.symm.trans refuses.several
      | @unmatched d keeps several code =>
        exact iff_of_true ⟨d, List.mem_append_right _ (.head _), code⟩
          (.inr ⟨rfl, unkeyed, keeps, several⟩)
  · rw [or_iff_left fun both => row both.1]
    by_cases rows : a = .str "objects"
    · subst rows
      obtain ⟨_, _, _, rfl⟩ | ⟨_, _, _, _, rfl | ⟨d, code, rfl⟩⟩ :=
        runs_rootValue_objects payload h
      · rfl
      · rfl
      · simp [Bindings.report, code]
    · rw [runs_rootValue_of_ne row rows h]

theorem Delivers.name_eq {values : Fields} {x : BoundArgument} (h : r.Delivers f values x) :
    x.name = "objects" ∨ x.name = "object" := by
  obtain ⟨_, _, _, rows | row⟩ := h
  · exact .inl rows.1
  · exact .inr row.1

namespace BoundEach

variable {arguments : List ArgumentDef} {bound : List BoundArgument} {values : Fields}

/-- The rows are bound to `objects` just if it is open to them. -/
theorem delivers_objects_iff (h : BoundEach r f f.arguments b bound b')
    (payload : r.hasPayload = true)
    (looked : ∀ p ∈ b'.variableValues, values.lookup p.1 = some p.2) :
    (∃ x ∈ bound, r.Delivers f values x ∧ x.name = "objects") ↔ r.Takes f "objects" := by
  constructor
  · rintro ⟨x, hx, ⟨unkeyed, _⟩, named⟩
    obtain ⟨a, ha, text, _⟩ := h.exists_value hx
    have declared : a.name = .str "objects" :=
      Value.eq_str_of_text (c := 'o') (by decide) (by decide) (text.trans named)
    exact ⟨FieldDef.declares_of_mem ha declared, named ▸ unkeyed⟩
  · rintro ⟨declared, unkeyed⟩
    obtain ⟨a, ha, named⟩ := FieldDef.exists_name_iff.2 declared
    obtain ⟨o, b₁, b₂, ran, taken⟩ := h.unfilled_or_bound ha
    rw [named] at ran taken
    rcases runs_rootValue_objects payload ran with ⟨v, keyed, _⟩ | ⟨_, rows, given, filled, _⟩
    · cases keyed.symm.trans unkeyed
    · obtain ⟨x, hx, text, mem⟩ := taken rows filled
      have text : x.name = "objects" := text
      exact ⟨x, hx, ⟨text ▸ unkeyed, rows, looked _ mem, .inl ⟨text, given⟩⟩, text⟩

/-- One row is bound to `object` just if it is open to the rows, does not leave them to `objects`,
and there is just one. -/
theorem delivers_object_iff {name : String} (h : BoundEach r f f.arguments b bound b')
    (payload : r.hasPayload = true) (named : f.nameText = .ok name)
    (ungiven : r.arguments.has (.str "object") = .ok false)
    (looked : ∀ p ∈ b'.variableValues, values.lookup p.1 = some p.2) :
    (∃ x ∈ bound, r.Delivers f values x ∧ x.name = "object") ↔
      r.Takes f "object" ∧ givesWay f name = false ∧ ∃ row, r.rowValue? = .ok (some row) := by
  constructor
  · rintro ⟨x, hx, ⟨unkeyed, _⟩, text⟩
    obtain ⟨a, ha, same, v, b₁, b₂, ran, _⟩ := h.exists_value hx
    have declared : a.name = .str "object" :=
      Value.eq_str_of_text (c := 'o') (by decide) (by decide) (same.trans text)
    rw [text] at unkeyed
    rw [declared] at ran
    refine ⟨⟨FieldDef.declares_of_mem ha declared, unkeyed⟩, ?_⟩
    rcases runs_rootValue_object payload named ungiven ran with ⟨v, keyed, _⟩ | ⟨_, outcome⟩
    · cases keyed.symm.trans unkeyed
    · cases outcome with
      | given keeps only => exact ⟨keeps, v, only⟩
  · rintro ⟨⟨declared, unkeyed⟩, keeps, row, only⟩
    obtain ⟨a, ha, same⟩ := FieldDef.exists_name_iff.2 declared
    obtain ⟨o, b₁, b₂, ran, taken⟩ := h.unfilled_or_bound ha
    rw [same] at ran taken
    rcases runs_rootValue_object payload named ungiven ran with ⟨v, keyed, _⟩ | ⟨_, outcome⟩
    · cases keyed.symm.trans unkeyed
    · cases outcome with
      | left leaves => cases leaves.symm.trans keeps
      | unmatched _ several _ => cases several.symm.trans only
      | given _ only' =>
        cases only.symm.trans only'
        obtain ⟨x, hx, text, mem⟩ := taken row rfl
        have text : x.name = "object" := text
        exact ⟨x, hx, ⟨text ▸ unkeyed, row, looked _ mem, .inr ⟨text, only⟩⟩, text⟩

/-- An argument `object` that is open to the rows and keeps them finds one row, or reports that
there is not just one. -/
theorem rowValue?_of_takes {name : String} (h : BoundEach r f f.arguments b bound b')
    (payload : r.hasPayload = true) (named : f.nameText = .ok name)
    (ungiven : r.arguments.has (.str "object") = .ok false) (takes : r.Takes f "object")
    (keeps : givesWay f name = false) : ∃ o, r.rowValue? = .ok o := by
  obtain ⟨declared, unkeyed⟩ := takes
  obtain ⟨a, ha, same⟩ := FieldDef.exists_name_iff.2 declared
  obtain ⟨o, b₁, b₂, ran, _⟩ := h.unfilled_or_bound ha
  rw [same] at ran
  rcases runs_rootValue_object payload named ungiven ran with ⟨v, keyed, _⟩ | ⟨_, outcome⟩
  · cases keyed.symm.trans unkeyed
  · cases outcome with
    | left leaves => cases leaves.symm.trans keeps
    | given _ only => exact ⟨_, only⟩
    | unmatched _ several _ => exact ⟨_, several⟩

/-- That there is not just one row is reported when `object` is visited, and by nothing else. -/
theorem unmatched_iff {name : String} (h : BoundEach r f arguments b bound b')
    (payload : r.hasPayload = true) (named : f.nameText = .ok name)
    (ungiven : r.arguments.has (.str "object") = .ok false) :
    (∃ d ∈ b'.diagnostics, d.code = .unmatchedInsert) ↔
      (∃ d ∈ b.diagnostics, d.code = .unmatchedInsert) ∨
        (∃ a ∈ arguments, a.name = .str "object") ∧ r.Refuses f name := by
  induction h with
  | nil => simp
  | @skip a rest _ _ _ _ unfilled others ih =>
    rw [ih, unmatched_of_runs payload named ungiven unfilled, List.exists_mem_cons_iff, or_assoc,
      ← or_and_right]
  | @take a rest _ _ _ _ b₁ b₂ _ filled binds others ih =>
    have same : b₂.diagnostics = b₁.diagnostics := by
      obtain ⟨_, _, made⟩ := bind_eq_ok.1 binds
      cases made
      rfl
    rw [ih, same, unmatched_of_runs payload named ungiven filled, List.exists_mem_cons_iff,
      or_assoc, ← or_and_right]

end BoundEach

/-- The rows to insert are bound to exactly one argument, or to none and that is reported. -/
def Settled (r : Request) (f : FieldDef) (q : CompiledQuery) (bound : List BoundArgument) : Prop :=
  (∃! x, x ∈ bound ∧ r.Delivers f q.variableValues x) ∨
    (∀ x ∈ bound, ¬ r.Delivers f q.variableValues x) ∧
      ∃ d ∈ q.diagnostics, d.code = .unmatchedInsert

/-- Nothing is delivered twice under one name, so that exactly one argument delivers rows just if
one of the two does and the other does not. -/
theorem existsUnique_delivers_iff {bound : List BoundArgument} {values : Fields}
    (once : ∀ name, name = "objects" ∨ name = "object" → ∀ x ∈ bound, ∀ y ∈ bound,
      x.name = name → y.name = name → x = y) :
    (∃! x, x ∈ bound ∧ r.Delivers f values x) ↔
      ¬ ((∃ x ∈ bound, r.Delivers f values x ∧ x.name = "objects") ↔
        ∃ x ∈ bound, r.Delivers f values x ∧ x.name = "object") := by
  constructor
  · rintro ⟨x, ⟨hx, delivers⟩, unique⟩ both
    rcases delivers.name_eq with named | named
    · obtain ⟨y, hy, delivers', named'⟩ := both.1 ⟨x, hx, delivers, named⟩
      rw [unique y ⟨hy, delivers'⟩, named] at named'
      exact absurd named' (by decide)
    · obtain ⟨y, hy, delivers', named'⟩ := both.2 ⟨x, hx, delivers, named⟩
      rw [unique y ⟨hy, delivers'⟩, named] at named'
      exact absurd named' (by decide)
  · intro differ
    by_cases rows : ∃ x ∈ bound, r.Delivers f values x ∧ x.name = "objects"
    · obtain ⟨x, hx, delivers, named⟩ := rows
      refine ⟨x, ⟨hx, delivers⟩, ?_⟩
      rintro y ⟨hy, delivers'⟩
      rcases delivers'.name_eq with named' | named'
      · exact once _ (.inl rfl) y hy x hx named' named
      · exact absurd ⟨fun _ => ⟨y, hy, delivers', named'⟩, fun _ => ⟨x, hx, delivers, named⟩⟩ differ
    · by_cases row : ∃ x ∈ bound, r.Delivers f values x ∧ x.name = "object"
      · obtain ⟨x, hx, delivers, named⟩ := row
        refine ⟨x, ⟨hx, delivers⟩, ?_⟩
        rintro y ⟨hy, delivers'⟩
        rcases delivers'.name_eq with named' | named'
        · exact absurd ⟨y, hy, delivers', named'⟩ rows
        · exact once _ (.inr rfl) y hy x hx named' named
      · exact absurd (iff_of_false rows row) differ

theorem forall_not_delivers_iff {bound : List BoundArgument} {values : Fields} :
    (∀ x ∈ bound, ¬ r.Delivers f values x) ↔
      ¬ (∃ x ∈ bound, r.Delivers f values x ∧ x.name = "objects") ∧
        ¬ ∃ x ∈ bound, r.Delivers f values x ∧ x.name = "object" := by
  constructor
  · intro none'
    refine ⟨?_, ?_⟩
    · rintro ⟨x, hx, delivers, _⟩
      exact none' x hx delivers
    · rintro ⟨x, hx, delivers, _⟩
      exact none' x hx delivers
  · rintro ⟨rows, row⟩ x hx delivers
    rcases delivers.name_eq with named | named
    · exact rows ⟨x, hx, delivers, named⟩
    · exact row ⟨x, hx, delivers, named⟩

/-- The field that inserts one row has no key columns. -/
theorem keyValue?_of_isOne {name : String} {key : Value} (named : f.nameText = .ok name)
    (one : Naming.isOne name = true) (other : key ≠ .str "pk_columns") :
    r.keyValue? f key = .ok none := by
  unfold keyValue?
  split
  · rfl
  · rw [if_neg (by rwa [beq_iff_eq]), named]
    show (if Naming.isByKey name = true then _ else Except.ok none) = _
    rw [Naming.isByKey_of_isOne one, if_neg Bool.false_ne_true]

/-- The rows are bound twice just if both arguments are open to them and `object` keeps them. -/
theorem doubled_iff {name : String} (named : f.nameText = .ok name) :
    r.Doubled f name ↔ r.Takes f "objects" ∧
      r.Takes f "object" ∧ givesWay f name = false ∧ ∃ row, r.rowValue? = .ok (some row) := by
  constructor
  · rintro ⟨rows, row, one, given⟩
    have unkeyed (key : String) (other : Value.str key ≠ .str "pk_columns") :=
      keyValue?_of_isOne (r := r) named one other
    refine ⟨⟨rows, unkeyed _ (by decide)⟩, ⟨row, unkeyed _ (by decide)⟩, ?_, given⟩
    rw [givesWay, one, Bool.not_true, Bool.and_false]
  · rintro ⟨⟨rows, _⟩, ⟨row, _⟩, keeps, given⟩
    rw [givesWay, rows, row, Bool.true_and, Bool.true_and, Bool.not_eq_false'] at keeps
    exact ⟨rows, row, keeps, given⟩

/-- Rows that an argument is open to are delivered once or refused, unless both arguments get them
or none is open to them. -/
theorem settled_cases {rows row keeps given several : Prop}
    (found : row → keeps → given ∨ several) :
    ¬ (rows ↔ row ∧ keeps ∧ given) ∨
        (¬ rows ∧ ¬ (row ∧ keeps ∧ given)) ∧ row ∧ keeps ∧ several ↔
      ¬ (¬ rows ∧ (row → ¬ keeps)) ∧ ¬ (rows ∧ row ∧ keeps ∧ given) := by
  grind

theorem refuses_iff {name : String} : f.declares "object" = true ∧ r.Refuses f name ↔
    r.Takes f "object" ∧ givesWay f name = false ∧ r.rowValue? = .ok none := by
  constructor
  · rintro ⟨declared, unkeyed, keeps, several⟩
    exact ⟨⟨declared, unkeyed⟩, keeps, several⟩
  · rintro ⟨⟨declared, unkeyed⟩, keeps, several⟩
    exact ⟨declared, unkeyed, keeps, several⟩

end Request

namespace Schema

variable {s : Schema} {r : Request}

/-- No two arguments of a root field that is resolved go by the same name. -/
theorem distinct_arguments_of_resolve {v : Value} (introspected : ofIntrospection v = .ok s)
    {root : RootField} (resolved : s.resolve r = .ok root) :
    root.field.arguments.Pairwise fun a b => b.name.equals a.name = false := by
  obtain ⟨_, t, listed, found⟩ := resolve_eq_ok resolved
  have sound := sound_of_ofIntrospection introspected t (mem_of_type? listed)
  exact sound.distinct _ (TypeDef.field?_eq_some found).1

/-- The rows to insert are bound to exactly one argument of the root field, or to none and that is
reported, unless they are lost or doubled. -/
theorem settled_iff {read : String → Option Document} {v : Value} {q : CompiledQuery}
    {root : RootField} (introspected : ofIntrospection v = .ok s)
    (compiled : s.compileBy read r = .ok q) (resolved : s.resolve r = .ok root)
    (payload : r.hasPayload = true) (ungiven : r.arguments.has (.str "object") = .ok false) :
    ∃ p text, s.plan r = .ok p ∧ Assembly.documentText p.parts r.fragments = .ok text ∧
      read text = some q.document ∧ p.parts.fieldText = p.rootItem.text ∧
      (r.Settled root.field q p.arguments ↔
        ¬ r.Lost root.field root.name ∧ ¬ r.Doubled root.field root.name) := by
  obtain ⟨p, text, document, planned, written, reads, rfl⟩ := plan_of_compileBy compiled
  obtain ⟨root', b, resolved', _, _, arguments, below⟩ := planned_of_plan planned
  cases resolved.symm.trans resolved'
  refine ⟨p, text, planned, written, reads, p.fieldText_parts, ?_⟩
  have named := nameText_of_resolve resolved
  have bound := Request.boundEach_of_runs arguments
  have distinct := distinct_arguments_of_resolve introspected resolved
  have looked : ∀ x ∈ b.variableValues, p.bindings.variableMap.lookup x.1 = some x.2 := by
    intro x hx
    exact lookup_variableMap_of_plan planned
      (keeps_planned (Bindings.stable_mem x) s.offers_true below hx)
  have rows := bound.delivers_objects_iff payload looked
  have row := bound.delivers_object_iff payload named ungiven looked
  have reported : (∃ d ∈ p.bindings.diagnostics, d.code = .unmatchedInsert) ↔
      root.field.declares "object" = true ∧ r.Refuses root.field root.name := by
    rw [(reports_planned below).exists_code_iff (by simp [DiagnosticCode.IsOfSelection]),
      bound.unmatched_iff payload named ungiven, FieldDef.exists_name_iff]
    refine or_iff_right ?_
    rintro ⟨d, hd, _⟩
    cases hd
  have once : ∀ name, name = "objects" ∨ name = "object" → ∀ x ∈ p.arguments, ∀ y ∈ p.arguments,
      x.name = name → y.name = name → x = y := by
    rintro _ (rfl | rfl) x hx y hy named named'
    · exact bound.eq_of_name_eq distinct (c := 'o') (by decide) (by decide) hx hy named named'
    · exact bound.eq_of_name_eq distinct (c := 'o') (by decide) (by decide) hx hy named named'
  show (∃! x, x ∈ p.arguments ∧ r.Delivers root.field p.bindings.variableMap x) ∨
    (∀ x ∈ p.arguments, ¬ r.Delivers root.field p.bindings.variableMap x) ∧
      (∃ d ∈ p.bindings.diagnostics, d.code = .unmatchedInsert) ↔ _
  rw [Request.existsUnique_delivers_iff once, Request.forall_not_delivers_iff, rows, row, reported,
    Request.refuses_iff, Request.doubled_iff named, Request.Lost, ← Bool.not_eq_false]
  have found : r.Takes root.field "object" → Request.givesWay root.field root.name = false →
      (∃ row, r.rowValue? = .ok (some row)) ∨ r.rowValue? = .ok none := by
    intro takes keeps
    obtain ⟨_ | row, only⟩ := bound.rowValue?_of_takes payload named ungiven takes keeps
    · exact .inr only
    · exact .inl ⟨row, only⟩
  exact Request.settled_cases found

/-- Two phases are bound to exactly one argument. -/
theorem settled_iff_phases : ∃ root q p, Sample.changing.resolve Sample.phases = .ok root ∧
    Sample.changing.compileBy readText? Sample.phases = .ok q ∧
    Sample.changing.plan Sample.phases = .ok p ∧
    Sample.phases.Settled root.field q p.arguments := by
  obtain ⟨q, compiled, _⟩ := Sample.exists_compileBy_phases
  obtain ⟨root, resolved, shape⟩ : ∃ root, Sample.changing.resolve Sample.phases = .ok root ∧
      (root.field.declares "objects", root.field.declares "object") = (true, false) :=
    exists_of_toOption_map (by decide +kernel)
  obtain ⟨rows, row⟩ := Prod.mk.inj shape
  obtain ⟨p, _, planned, _, _, _, settled⟩ :=
    settled_iff Sample.ofIntrospection_changingAnswer compiled resolved (by decide +kernel)
      (by decide +kernel)
  have unkeyed : Sample.phases.keyValue? root.field (.str "objects") = .ok none := by
    have none' : Sample.phases.pkColumns = .null := by decide +kernel
    rw [Request.keyValue?, none']
  refine ⟨root, q, p, resolved, compiled, planned, settled.2 ⟨?_, ?_⟩⟩
  · exact fun lost => lost.1 ⟨rows, unkeyed⟩
  · exact fun doubled => Bool.false_ne_true (row.symm.trans doubled.row)

end Schema

namespace Sample

/-- A request to insert one row into a collection of the schema with changes. -/
def insertingOne (collection : String) : Except Failure Request :=
  Request.ofValue (insertion collection [("object", .str "only")])

/-- Inserting one row by a field without arguments. -/
def oneLog : Request := (insertingOne "log").toOption.get (by decide +kernel)

/-- Inserting one row by a field for one row that declares both arguments. -/
def onePhase : Request := (insertingOne "phase").toOption.get (by decide +kernel)

end Sample

namespace Schema

/-- A row that no argument is open to is dropped and nothing is reported. A row that two arguments
of a field for one row are open to is bound to both of them. -/
theorem unsettled_rows :
    (∃ q p, Sample.changing.compileBy readText? Sample.oneLog = .ok q ∧
      Sample.changing.plan Sample.oneLog = .ok p ∧ Sample.oneLog.hasPayload = true ∧
      p.arguments = [] ∧ q.diagnostics = []) ∧
    ∃ q p, Sample.changing.compileBy readText? Sample.onePhase = .ok q ∧
      Sample.changing.plan Sample.onePhase = .ok p ∧
      p.arguments = [⟨"object", "v1"⟩, ⟨"objects", "v2"⟩] ∧
      q.variableValues = [("v1", .str "only"), ("v2", .arr [.str "only"])] := by
  obtain ⟨p, q, planned, compiled, dropped⟩ : ∃ p q,
      Sample.changing.plan Sample.oneLog = .ok p ∧
      Sample.changing.compileBy readText? Sample.oneLog = .ok q ∧
      (p.arguments, q.diagnostics) = ([], []) := exists_of_run? (by decide +kernel)
  obtain ⟨unbound, unreported⟩ := Prod.mk.inj dropped
  obtain ⟨p', q', planned', compiled', doubled⟩ : ∃ p q,
      Sample.changing.plan Sample.onePhase = .ok p ∧
      Sample.changing.compileBy readText? Sample.onePhase = .ok q ∧
      (p.arguments, q.variableValues) = ([⟨"object", "v1"⟩, ⟨"objects", "v2"⟩],
        [("v1", .str "only"), ("v2", .arr [.str "only"])]) := exists_of_run? (by decide +kernel)
  obtain ⟨bound, values⟩ := Prod.mk.inj doubled
  exact ⟨⟨q, p, compiled, planned, by decide +kernel, unbound, unreported⟩,
    q', p', compiled', planned', bound, values⟩

end Schema

end GraphRequest

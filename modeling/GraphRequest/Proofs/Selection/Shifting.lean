import GraphRequest.Proofs.Query.Shifting
import GraphRequest.Proofs.Selection.Names
import GraphRequest.Proofs.Selection.Variables

/-!
# Selections with later variables

Selections are looked at again once they are made: below a field they are merged, at the root they
replace each other by the names that their texts begin with, and an envelope takes some of them out.
None of this looks at the variables, so a selection made with later variables is the same but for
them.

* `Item.shift`, `Item.leadingName_shift`: a selection with later variables begins the same.
* `shifts_compile`: compiling an entry.
* `shifts_mergeInto`, `shifts_compileRoot`: compiling the root selection.
* `shifts_planRoot`: the whole plan of a request.
-/

namespace GraphRequest

open Step

variable {k : Nat}

/-! ### Selections -/

namespace Item

mutual

/-- A selection with all variables shifted. -/
def shift (k : Nat) : Item → Item
  | .raw text => .raw text
  | .field aliasName name arguments body =>
    match body with
    | none => .field aliasName name (arguments.map (BoundArgument.shift k)) none
    | some items =>
      .field aliasName name (arguments.map (BoundArgument.shift k)) (some (shiftAll k items))

/-- Selections with all variables shifted. -/
def shiftAll (k : Nat) : List Item → List Item
  | [] => []
  | i :: is => shift k i :: shiftAll k is

end

theorem shiftAll_eq_map (items : List Item) : shiftAll k items = items.map (shift k) := by
  induction items with
  | nil => rfl
  | cons i items ih => rw [shiftAll, List.map_cons, ih]

theorem shift_field (aliasName : Option String) (name : String) (arguments : List BoundArgument)
    (body : Option (List Item)) : (field aliasName name arguments body).shift k =
      .field aliasName name (arguments.map (BoundArgument.shift k))
        (body.map (List.map (shift k))) := by
  cases body with
  | none => rfl
  | some items => rw [shift, shiftAll_eq_map, Option.map_some]

/-- The name that a selection begins with does not depend on its variables. -/
theorem leadingName_shift (i : Item) : (i.shift k).leadingName = i.leadingName := by
  cases i with
  | raw text => rfl
  | field aliasName name arguments body =>
    rw [shift_field, leadingName_field, leadingName_field]

mutual

/-- A selection without variables is left as it is. -/
theorem shift_of_no_variables : (i : Item) → i.variableNames = [] → i.shift k = i
  | .raw _, _ => rfl
  | .field aliasName name arguments none, h => by
    rw [variableNames, List.append_nil, List.map_eq_nil_iff] at h
    rw [h]
    rfl
  | .field aliasName name arguments (some items), h => by
    rw [variableNames, List.append_eq_nil_iff, List.map_eq_nil_iff] at h
    rw [shift, h.1, shiftAll_of_no_variables items h.2]
    rfl

theorem shiftAll_of_no_variables :
    (items : List Item) → variableNamesAll items = [] → shiftAll k items = items
  | [], _ => rfl
  | i :: items, h => by
    rw [variableNamesAll, List.append_eq_nil_iff] at h
    rw [shiftAll, shift_of_no_variables i h.1, shiftAll_of_no_variables items h.2]

end

theorem map_shift_of_no_variables {items : List Item} (h : items.flatMap variableNames = []) :
    items.map (shift k) = items := by
  rw [← variableNamesAll_eq_flatMap] at h
  rw [← shiftAll_eq_map, shiftAll_of_no_variables items h]

/-- Taking out the selections that begin with a name leaves the same ones with later variables. -/
theorem filter_map_shift (p : Option String → Bool) (items : List Item) :
    (items.map (shift k)).filter (fun i => p i.leadingName) =
      (items.filter fun i => p i.leadingName).map (shift k) := by
  rw [List.filter_map]
  refine congrArg _ (List.filter_congr fun i _ => ?_)
  show p (i.shift k).leadingName = p i.leadingName
  rw [leadingName_shift]

end Item

namespace Schema

variable {s : Schema}

/-! ### Fields -/

theorem shifts_findField (s : Schema) (parent : Value) (name : String) (path : List String) :
    Shifts k id (s.findField parent name path) (s.findField parent name path) := by
  refine shifts_bind (shifts_of_self _) fun _ o _ _ => ?_
  cases o with
  | none => exact shifts_bind (shifts_report _ _ _) fun _ _ _ _ => shifts_pure id _
  | some f => exact shifts_bind (shifts_of_self _) fun _ _ _ _ => shifts_pure id _

/-- The body that a type calls for is that of the shifted selections. -/
theorem body_shift (s : Schema) (items : List Item) (type : Value) (aggregate : Bool) :
    s.body (items.map (Item.shift k)) type aggregate =
      (s.body items type aggregate).map (Option.map (List.map (Item.shift k))) := by
  unfold body
  cases selected : s.selectable type with
  | error fault => rfl
  | ok o =>
    cases o with
    | none => rfl
    | some t =>
      show (if (items.map (Item.shift k)).isEmpty then _ else _) =
        Except.map _ (if items.isEmpty then _ else _)
      cases items with
      | cons i items => rfl
      | nil =>
        cases defaults : s.typeDefault t aggregate with
        | error fault => rfl
        | ok made =>
          have fixed :=
            Item.map_shift_of_no_variables (k := k) (variableNames_of_typeDefault defaults)
          show Except.ok (some made) = Except.ok (some (made.map (Item.shift k)))
          rw [fixed]

theorem shifts_fieldItem (s : Schema) (aliasName : Option String) (name : String)
    (arguments : List BoundArgument) (items : List Item) (type : Value) (aggregate : Bool) :
    Shifts k (Option.map (Item.shift k)) (s.fieldItem aliasName name arguments items type aggregate)
      (s.fieldItem aliasName name (arguments.map (BoundArgument.shift k))
        (items.map (Item.shift k)) type aggregate) := by
  refine shifts_bind (shifts_of (body_shift s items type aggregate)) fun _ body _ _ => ?_
  rw [← Item.shift_field]
  exact shifts_pure (Option.map (Item.shift k)) (some (.field aliasName name arguments body))

theorem shifts_compileColumns (s : Schema) (name : String) (names distinct : Value) (f : FieldDef)
    (returned : Value) (path : List String) :
    Shifts k (Option.map (Item.shift k)) (s.compileColumns name names distinct f returned path)
      (s.compileColumns name names distinct f returned path) := by
  unfold compileColumns
  split
  · exact shifts_bind (shifts_report _ _ _) fun _ _ _ _ => shifts_fieldItem s none name [] [] _ _
  · refine shifts_bind (shifts_of_self _) fun _ columns _ _ => ?_
    refine shifts_bind (f.shifts_bindNestedFrom path [] _) fun _ bound _ _ => ?_
    exact shifts_pure (Option.map (Item.shift k)) (some (.field none name bound none))

theorem shifts_compileAll {es : List Entry} {parent : Value} {path : List String}
    (each : ∀ e ∈ es, Shifts k (Option.map (Item.shift k)) (e.compile s parent path)
      (e.compile s parent path)) :
    Shifts k (List.map (Item.shift k)) (s.compileAll es parent path)
      (s.compileAll es parent path) := by
  induction es with
  | nil => exact shifts_pure (List.map (Item.shift k)) []
  | cons e es ih =>
    refine shifts_bind (each e (.head _)) fun _ item _ _ => ?_
    refine shifts_bind (ih fun e' he' => each e' (.tail _ he')) fun _ items _ _ => ?_
    have same : (item.map (Item.shift k)).toList ++ items.map (Item.shift k) =
        (item.toList ++ items).map (Item.shift k) := by
      cases item <;> rfl
    rw [same]
    exact shifts_pure (List.map (Item.shift k)) (item.toList ++ items)

theorem base_of_findField {parent : Value} {name : String} {path : List String} {f : FieldDef}
    {returned : Value} {b b' : Bindings}
    (h : Runs (s.findField parent name path) b (some (f, returned)) b') :
    ∃ base, f.base = .ok base ∧ returned = base.name := by
  obtain ⟨o, b₁, _, h₁⟩ := runs_bind.1 h
  cases o with
  | none =>
    obtain ⟨_, b₂, _, h₂⟩ := runs_bind.1 h₁
    cases (runs_pure.1 h₂).1
  | some g =>
    obtain ⟨base, b₂, hb, h₂⟩ := runs_bind.1 h₁
    cases (runs_pure.1 h₂).1
    exact ⟨base, (runs_of.1 hb).1, rfl⟩

/-- Compiling an entry makes the same selection with later variables, by induction on the size of
the entry. -/
theorem shifts_compile (s : Schema) (e : Entry) (parent : Value) (path : List String) :
    Shifts k (Option.map (Item.shift k)) (e.compile s parent path) (e.compile s parent path) := by
  induction e using (measure (sizeOf : Entry → Nat)).wf.induction generalizing parent path with
  | h e ih =>
    have below {f : FieldDef} {base : BaseType} {aliasName : Option String} {arguments : Fields}
        {children : List Entry} (type : Value) (path : List String)
        (wants : Entry.Wants s f base e aliasName arguments children) :
        Shifts k (List.map (Item.shift k)) (s.compileAll children type path)
          (s.compileAll children type path) :=
      shifts_compileAll fun c hc => ih c (wants.sizeOf_lt hc) type path
    have missing : Shifts k (Option.map (Item.shift k)) (pure none) (pure none) :=
      shifts_pure (Option.map (Item.shift k)) none
    cases e with
    | raw text =>
      have same : (Entry.rawItem text).map (Item.shift k) = Entry.rawItem text := by
        unfold Entry.rawItem
        split <;> rfl
      have shifts := shifts_pure (k := k) (Option.map (Item.shift k)) (Entry.rawItem text)
      rw [same] at shifts
      exact shifts
    | toggle name included =>
      rw [Entry.compile]
      refine shifts_bind (shifts_findField s parent name path) fun _ o _ _ => ?_
      cases o with
      | none => exact missing
      | some found =>
        dsimp only [id_eq]
        split
        · exact shifts_fieldItem s none name [] [] _ _
        · exact missing
    | subselection name children =>
      rw [Entry.compile]
      refine shifts_bind (shifts_findField s parent name path) fun _ o _ run => ?_
      cases o with
      | none => exact missing
      | some found =>
        obtain ⟨base, _, _⟩ := base_of_findField run
        dsimp only [id_eq]
        rw [Entry.map_compilations]
        have wants : Entry.Wants s found.1 base (.subselection name children) none [] children :=
          .subselection name children
        refine shifts_bind (below _ _ wants) fun _ items _ _ => ?_
        exact shifts_fieldItem s none name [] items _ _
    | nested name aliasName arguments returning extras =>
      rw [Entry.compile]
      refine shifts_bind (shifts_findField s parent name path) fun _ o _ run => ?_
      cases o with
      | none => exact missing
      | some found =>
        obtain ⟨base, _, same⟩ := base_of_findField run
        dsimp only [id_eq]
        refine shifts_bind (shifts_of_self _) fun _ t _ ht => ?_
        obtain ⟨type, _⟩ := runs_of.1 ht
        refine shifts_bind (shifts_of_self _) fun _ more _ hmore => ?_
        obtain ⟨meant, _⟩ := runs_of.1 hmore
        refine shifts_bind (found.1.shifts_bindNestedFrom _ [] _) fun _ bound _ _ => ?_
        obtain ⟨children, nested, listed⟩ :=
          Entry.nestedEntries_of_extraCompilations s name returning meant
        rw [same] at type
        dsimp only [id_eq]
        rw [listed]
        refine shifts_bind (below _ _ (.nested type nested)) fun _ items _ _ => ?_
        exact shifts_fieldItem s _ name bound items _ _
    | columns name names distinct =>
      rw [Entry.compile]
      refine shifts_bind (shifts_findField s parent name path) fun _ o _ _ => ?_
      cases o with
      | none => exact missing
      | some found => exact shifts_compileColumns s name names distinct found.1 found.2 _

theorem shifts_entries (s : Schema) (es : List Entry) (type : Value) (path : List String) :
    Shifts k (List.map (Item.shift k)) (s.compileAll es type path) (s.compileAll es type path) :=
  shifts_compileAll fun e _ => shifts_compile s e type path

/-! ### The root selection -/

theorem beside_shift (es : List Entry) (items : List Item) :
    beside es (items.map (Item.shift k)) = (beside es items).map (Item.shift k) :=
  Item.filter_map_shift (fun name => es.all fun e => name != e.name?) items

/-- Merging takes out the same selections and adds the same ones. -/
theorem shifts_mergeInto (s : Schema) (items : List Item) (es : List Entry) (type : Value)
    (path : List String) :
    Shifts k (List.map (Item.shift k)) (s.mergeInto items es type path)
      (s.mergeInto (items.map (Item.shift k)) es type path) := by
  rw [mergeInto_eq, mergeInto_eq]
  refine shifts_bind (shifts_entries s es type path) fun _ more _ _ => ?_
  rw [beside_shift, ← List.map_append]
  exact shifts_pure (List.map (Item.shift k)) (beside es items ++ more)

/-- The default selection at the root has no variables. -/
theorem shifts_rootDefaults (s : Schema) (type : Value) (aggregate : Bool) :
    Shifts k (List.map (Item.shift k)) (of (s.rootDefaults type aggregate))
      (of (s.rootDefaults type aggregate)) := by
  refine shifts_of ?_
  cases defaults : s.rootDefaults type aggregate with
  | error fault => rfl
  | ok items =>
    show Except.ok items = Except.ok (items.map (Item.shift k))
    rw [Item.map_shift_of_no_variables (variableNames_of_rootDefaults defaults)]

theorem shifts_compileWanted (s : Schema) (r : Request) (type : Value) (aggregate : Bool)
    (path : List String) :
    Shifts k (List.map (Item.shift k)) (s.compileWanted r type aggregate path)
      (s.compileWanted r type aggregate path) := by
  unfold compileWanted
  split
  · exact shifts_entries s _ type path
  · refine shifts_bind (shifts_rootDefaults s type aggregate) fun _ defaults _ _ => ?_
    exact shifts_mergeInto s defaults _ type path
  · exact shifts_rootDefaults s type aggregate

theorem shifts_compileRoot (s : Schema) (r : Request) (type : Value) (aggregate : Bool)
    (path : List String) :
    Shifts k (List.map (Item.shift k)) (s.compileRoot r type aggregate path)
      (s.compileRoot r type aggregate path) := by
  have none : Shifts k (List.map (Item.shift k)) (pure []) (pure []) :=
    shifts_pure (List.map (Item.shift k)) []
  refine shifts_bind (shifts_of_self _) fun _ o _ _ => ?_
  cases o with
  | none =>
    dsimp only [id_eq]
    split
    · exact shifts_bind (shifts_report _ _ _) fun _ _ _ _ => none
    · exact none
  | some t =>
    refine shifts_bind (shifts_compileWanted s r type aggregate path) fun _ items _ _ => ?_
    split
    · refine shifts_bind (shifts_of_self _) fun _ o _ _ => ?_
      cases o with
      | none => exact shifts_pure (List.map (Item.shift k)) items
      | some e => exact shifts_mergeInto s items [e] type path
    · exact shifts_pure (List.map (Item.shift k)) items

/-! ### Plans -/

theorem shifts_envelope (s : Schema) (action : Option Action) (f : FieldDef) :
    Shifts k id (s.envelope action f) (s.envelope action f) := by
  unfold envelope
  split
  · exact shifts_pure id _
  · refine shifts_bind (shifts_of_self _) fun _ name _ _ => ?_
    dsimp only [id_eq]
    split
    · exact shifts_pure id _
    · refine shifts_bind (shifts_of_self _) fun _ base _ _ => ?_
      refine shifts_bind (shifts_of_self _) fun _ payload _ _ => ?_
      dsimp only [id_eq]
      split
      · exact shifts_bind (shifts_report _ _ _) fun _ _ _ _ => shifts_pure id _
      · refine shifts_bind (shifts_of_self _) fun _ row _ _ => ?_
        exact shifts_pure id _

/-- An envelope takes out the same selections. -/
theorem wrap_shift (items : List Item) :
    Envelope.wrap (items.map (Item.shift k)) = (Envelope.wrap items).map (Item.shift k) := by
  have rows := Item.filter_map_shift (k := k) (· != some Envelope.countField) items
  unfold Envelope.wrap
  rw [rows]
  cases items.filter fun i => i.leadingName != some Envelope.countField with
  | nil => rfl
  | cons i rows =>
    simp only [List.map_cons, List.isEmpty_cons, Bool.false_eq_true, if_false, Item.shift_field,
      Option.map_some, List.map_nil]
    rfl

theorem shifts_planItems (s : Schema) (r : Request) (root : RootField) :
    Shifts k (List.map (Item.shift k)) (s.planItems r root) (s.planItems r root) := by
  refine shifts_bind (shifts_envelope s _ _) fun _ o _ _ => ?_
  cases o with
  | none =>
    refine shifts_bind (shifts_of_self _) fun _ base _ _ => ?_
    exact shifts_compileRoot s r base.name r.isAggregate [root.name]
  | some e =>
    refine shifts_bind (shifts_compileRoot s r e.row false [root.name]) fun _ items _ _ => ?_
    rw [wrap_shift]
    exact shifts_pure (List.map (Item.shift k)) (Envelope.wrap items)

/-- The plan of a request is the same with later variables. -/
theorem shifts_planRoot (s : Schema) (r : Request) (root : RootField) :
    Shifts k (Prod.map (List.map (BoundArgument.shift k)) (List.map (Item.shift k)))
      (s.planRoot r root) (s.planRoot r root) := by
  refine shifts_bind (Request.shifts_bindEach r root.field _) fun _ arguments _ _ => ?_
  refine shifts_bind (shifts_planItems s r root) fun _ items _ _ => ?_
  exact shifts_pure (Prod.map (List.map (BoundArgument.shift k)) (List.map (Item.shift k)))
    (arguments, items)

end Schema

end GraphRequest

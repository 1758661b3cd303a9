import GraphRequest.Proofs.Query.Heedless
import GraphRequest.Proofs.Schema.Introspected
import GraphRequest.Proofs.Selection.Shifting

/-!
# Entries that leave no trace among others

A field that the type does not have is reported and left out, and a field that is switched off is
left out. Neither binds a variable nor selects anything, so the entries beside it, and the fields
that enclose it, compile as if it were not there. The exception is a field whose type has no base
type: it cannot be switched off, since its type is looked at first.

* `heedless_compile`: compiling an entry does not read what was reported before.
* `compile_unknown`, `compile_off`: the two kinds of entries that are left out.
* `Entry.Frame`, `Entry.plug`: a place among the children of subselections, at any depth.
* `inserts_plug`: an unknown field at such a place.
* `compileAll_off_iff`: when a field that is switched off leaves no trace.
-/

namespace GraphRequest

open Step

namespace Schema

variable {s : Schema}

/-! ### Compiling does not read what was reported -/

theorem heedless_findField (s : Schema) (parent : Value) (name : String) (path : List String) :
    Heedless (s.findField parent name path) := by
  refine heedless_bind (heedless_of _) fun _ o _ _ => ?_
  cases o with
  | none => exact heedless_bind (heedless_report _ _ _) fun _ _ _ _ => heedless_pure _
  | some f => exact heedless_bind (heedless_of _) fun _ _ _ _ => heedless_pure _

theorem heedless_fieldItem (s : Schema) (aliasName : Option String) (name : String)
    (arguments : List BoundArgument) (items : List Item) (type : Value) (aggregate : Bool) :
    Heedless (s.fieldItem aliasName name arguments items type aggregate) :=
  heedless_bind (heedless_of _) fun _ _ _ _ => heedless_pure _

theorem heedless_compileColumns (s : Schema) (name : String) (names distinct : Value)
    (f : FieldDef) (returned : Value) (path : List String) :
    Heedless (s.compileColumns name names distinct f returned path) := by
  unfold compileColumns
  split
  · refine heedless_bind (heedless_report _ _ _) fun _ _ _ _ => ?_
    exact heedless_fieldItem s none name [] [] returned false
  · refine heedless_bind (heedless_ofShape _) fun _ _ _ _ => ?_
    refine heedless_bind (f.heedless_bindNestedFrom path [] _) fun _ _ _ _ => ?_
    exact heedless_pure _

theorem heedless_compileAll {es : List Entry} {parent : Value} {path : List String}
    (each : ∀ e ∈ es, Heedless (e.compile s parent path)) :
    Heedless (s.compileAll es parent path) := by
  induction es with
  | nil => exact heedless_pure _
  | cons e es ih =>
    refine heedless_bind (each e (.head _)) fun _ _ _ _ => ?_
    exact heedless_bind (ih fun e' he' => each e' (.tail _ he')) fun _ _ _ _ => heedless_pure _

/-- Compiling an entry does not read what was reported, by induction on the size of the entry. -/
theorem heedless_compile (s : Schema) (e : Entry) (parent : Value) (path : List String) :
    Heedless (e.compile s parent path) := by
  induction e using (measure (sizeOf : Entry → Nat)).wf.induction generalizing parent path with
  | h e ih =>
    have below {f : FieldDef} {base : BaseType} {aliasName : Option String} {arguments : Fields}
        {children : List Entry} (type : Value) (path : List String)
        (wants : Entry.Wants s f base e aliasName arguments children) :
        Heedless (s.compileAll children type path) :=
      heedless_compileAll fun c hc => ih c (wants.sizeOf_lt hc) type path
    cases e with
    | raw text =>
      rw [Entry.compile]
      exact heedless_pure _
    | toggle name included =>
      rw [Entry.compile]
      refine heedless_bind (heedless_findField s parent name path) fun _ o _ _ => ?_
      cases o with
      | none => exact heedless_pure _
      | some found =>
        dsimp only
        split
        · exact heedless_fieldItem s none name [] [] _ _
        · exact heedless_pure _
    | subselection name children =>
      rw [Entry.compile]
      refine heedless_bind (heedless_findField s parent name path) fun _ o _ run => ?_
      cases o with
      | none => exact heedless_pure _
      | some found =>
        obtain ⟨base, _, _⟩ := base_of_findField run
        dsimp only
        rw [Entry.map_compilations]
        have wants : Entry.Wants s found.1 base (.subselection name children) none [] children :=
          .subselection name children
        refine heedless_bind (below _ _ wants) fun _ items _ _ => ?_
        exact heedless_fieldItem s none name [] items _ _
    | nested name aliasName arguments returning extras =>
      rw [Entry.compile]
      refine heedless_bind (heedless_findField s parent name path) fun _ o _ run => ?_
      cases o with
      | none => exact heedless_pure _
      | some found =>
        obtain ⟨base, _, same⟩ := base_of_findField run
        dsimp only
        refine heedless_bind (heedless_of _) fun _ t _ ht => ?_
        obtain ⟨type, _⟩ := runs_of.1 ht
        refine heedless_bind (heedless_of _) fun _ more _ hmore => ?_
        obtain ⟨meant, _⟩ := runs_of.1 hmore
        refine heedless_bind (found.1.heedless_bindNestedFrom _ [] _) fun _ bound _ _ => ?_
        obtain ⟨children, nested, listed⟩ :=
          Entry.nestedEntries_of_extraCompilations s name returning meant
        rw [same] at type
        rw [listed]
        refine heedless_bind (below _ _ (.nested type nested)) fun _ items _ _ => ?_
        exact heedless_fieldItem s _ name bound items _ _
    | columns name names distinct =>
      rw [Entry.compile]
      refine heedless_bind (heedless_findField s parent name path) fun _ o _ _ => ?_
      cases o with
      | none => exact heedless_pure _
      | some found => exact heedless_compileColumns s name names distinct found.1 found.2 _

theorem heedless_entries (s : Schema) (es : List Entry) (parent : Value) (path : List String) :
    Heedless (s.compileAll es parent path) :=
  heedless_compileAll fun e _ => heedless_compile s e parent path

/-! ### Entries that are left out -/

variable {parent : Value} {path : List String}

theorem findField_of_missing {name : String} (missing : s.field parent (.str name) = .ok none) :
    s.findField parent name path = (do
      Step.report .unknownField ("Field \"" ++ name ++ "\" not found in type \"" ++ parent.text ++
        "\". Skipping.") (path ++ [name])
      return none) := by
  rw [findField, missing]
  rfl

theorem findField_of_found {name : String} {f : FieldDef} {base : BaseType}
    (found : s.field parent (.str name) = .ok (some f)) (returned : f.base = .ok base) :
    s.findField parent name path = pure (some (f, base.name)) := by
  rw [findField, found]
  show (do
    let base ← Step.of f.base
    return some (f, base.name)) = _
  rw [returned]
  rfl

theorem findField_of_unreturned {name : String} {f : FieldDef} {fault : Failure}
    (found : s.field parent (.str name) = .ok (some f)) (unreturned : f.base = .error fault) :
    s.findField parent name path = Step.of (.error fault) := by
  rw [findField, found]
  show (do
    let base ← Step.of f.base
    return some (f, base.name)) = _
  rw [unreturned]
  rfl

/-- A field that the type does not have is reported and left out, whatever is asked of it. -/
theorem compile_unknown {e : Entry} {name : String} (structured : e.isRaw = false)
    (named : e.name? = some name) (missing : s.field parent (.str name) = .ok none) :
    e.compile s parent path = (do
      Step.report .unknownField ("Field \"" ++ name ++ "\" not found in type \"" ++ parent.text ++
        "\". Skipping.") (path ++ [name])
      return none) := by
  cases e with
  | raw text => cases structured
  | _ =>
    cases named
    simp only [Entry.compile, findField_of_missing missing, bind_assoc, pure_bind]

/-- A field that is switched off is left out, if its type has a base type. -/
theorem compile_off {name : String} {f : FieldDef} {base : BaseType}
    (found : s.field parent (.str name) = .ok (some f)) (returned : f.base = .ok base) :
    (Entry.toggle name false).compile s parent path = pure none := by
  simp only [Entry.compile, findField_of_found found returned, pure_bind, Bool.false_eq_true,
    if_false]

/-- A field that is switched off fails to compile if its type has no base type. -/
theorem compile_off_of_error {name : String} {f : FieldDef} {fault : Failure}
    (found : s.field parent (.str name) = .ok (some f)) (unreturned : f.base = .error fault) :
    (Entry.toggle name false).compile s parent path = Step.of (.error fault) := by
  simp only [Entry.compile, findField_of_unreturned found unreturned]
  rfl

theorem compile_subselection {name : String} {f : FieldDef} {base : BaseType}
    (children : List Entry) (found : s.field parent (.str name) = .ok (some f))
    (returned : f.base = .ok base) :
    (Entry.subselection name children).compile s parent path = (do
      let items ← s.compileAll children base.name (path ++ [name])
      s.fieldItem none name [] items base.name (Naming.isAggregate name)) := by
  simp only [Entry.compile, findField_of_found found returned, pure_bind, Entry.map_compilations]
  rfl

/-! ### Places among the children of subselections -/

end Schema

namespace Entry

/-- A subselection with an open place among its children, between the entries beside it. -/
structure Frame where
  before : List Entry
  name : String
  after : List Entry

/-- Entries put at the open place of frames, the outermost frame first. -/
def plug : List Frame → List Entry → List Entry
  | [], es => es
  | frame :: frames, es =>
    frame.before ++ .subselection frame.name (plug frames es) :: frame.after

end Entry

namespace Schema

variable {s : Schema}

/-- The fields of frames, one below the other, lead from a type to the type that the last of them
returns. -/
inductive Leads (s : Schema) : Value → List Entry.Frame → Value → Prop
  | here (type : Value) : Leads s type [] type
  | inside {parent type : Value} {frame : Entry.Frame} {frames : List Entry.Frame} {f : FieldDef}
      {base : BaseType} (found : s.field parent (.str frame.name) = .ok (some f))
      (returned : f.base = .ok base) (leads : Leads s base.name frames type) :
      Leads s parent (frame :: frames) type

/-- Compiles what stands before some entries at the open place of frames, and these entries: on the
way down, the entries before each frame, and then the entries at the place. -/
def compileBefore (s : Schema) : List Entry.Frame → List Entry → Value → List String →
    Step (List Item)
  | [], es, parent, path => s.compileAll es parent path
  | frame :: frames, es, parent, path => do
    let _ ← s.compileAll frame.before parent path
    match ← s.findField parent frame.name path with
    | none => return []
    | some (_, returned) => s.compileBefore frames es returned (path ++ [frame.name])

/-- An unknown field at the open place of frames is reported behind what stands before it, and that
is all it does. The induction is on the frames: inside a frame the entry is among the children of
its subselection, and neither the body of that field nor the entries behind it depend on it. -/
theorem inserts_plug {parent type : Value} {frames : List Entry.Frame}
    (leads : s.Leads parent frames type) {e : Entry} {name : String} (structured : e.isRaw = false)
    (named : e.name? = some name) (missing : s.field type (.str name) = .ok none)
    (es es' : List Entry) (path : List String) :
    Inserts ⟨.unknownField, "Field \"" ++ name ++ "\" not found in type \"" ++ type.text ++
        "\". Skipping.", path ++ frames.map Entry.Frame.name ++ [name]⟩
      (s.compileBefore frames es parent path)
      (s.compileAll (Entry.plug frames (es ++ es')) parent path)
      (s.compileAll (Entry.plug frames (es ++ e :: es')) parent path) := by
  induction leads generalizing path with
  | here type =>
    have behind (items : List Item) : Heedless (s.compileAll es' type path >>= fun more =>
        (pure (items ++ more) : Step (List Item))) :=
      heedless_bind (heedless_entries s es' type path) fun _ _ _ _ => heedless_pure _
    rw [List.map_nil, List.append_nil, compileBefore, ← bind_pure (s.compileAll es type path),
      Entry.plug, Entry.plug, compileAll_append, compileAll_append]
    refine inserts_before fun items => ?_
    rw [compileAll_cons, compile_unknown structured named missing]
    simp only [bind_assoc, pure_bind, Option.toList_none, List.nil_append]
    exact inserts_report _ _ _ (behind items) items
  | @inside parent type frame frames f base found returned leads ih =>
    have children := ih missing (path ++ [frame.name])
    rw [compileBefore, Entry.plug, Entry.plug, compileAll_append, compileAll_append]
    refine inserts_before fun items => ?_
    rw [findField_of_found found returned, pure_bind, compileAll_cons, compileAll_cons,
      compile_subselection _ found returned, compile_subselection _ found returned]
    simp only [bind_assoc, pure_bind]
    rw [List.append_assoc path, List.singleton_append] at children
    refine inserts_behind children fun below => ?_
    refine heedless_bind (heedless_fieldItem s none frame.name [] below _ _) fun _ _ _ _ => ?_
    exact heedless_bind (heedless_entries s frame.after parent path) fun _ _ _ _ => heedless_pure _

/-- Entries with an unknown field among the children of subselections, at any depth, fail to compile
with the failure that they have without it, or they compile to the same selections and leave the
same bindings, but that the unknown field is reported right behind what is reported before it. -/
theorem compileAll_plug_of_missing {parent type : Value} {frames : List Entry.Frame}
    (leads : s.Leads parent frames type) {e : Entry} {name : String} (structured : e.isRaw = false)
    (named : e.name? = some name) (missing : s.field type (.str name) = .ok none)
    (es es' : List Entry) (path : List String) (b : Bindings) :
    (∃ fault, (s.compileAll (Entry.plug frames (es ++ es')) parent path).result b = .error fault ∧
      (s.compileAll (Entry.plug frames (es ++ e :: es')) parent path).result b = .error fault) ∨
    ∃ before b₁ items b', Runs (s.compileBefore frames es parent path) b before b₁ ∧
      Runs (s.compileAll (Entry.plug frames (es ++ es')) parent path) b items
        (Bindings.behind b₁.diagnostics b') ∧
      Runs (s.compileAll (Entry.plug frames (es ++ e :: es')) parent path) b items
        (Bindings.behind (b₁.diagnostics ++ [⟨.unknownField, "Field \"" ++ name ++
          "\" not found in type \"" ++ type.text ++ "\". Skipping.",
          path ++ frames.map Entry.Frame.name ++ [name]⟩]) b') :=
  inserts_plug leads structured named missing es es' path b

end Schema

namespace Sample

/-- A field that users do not have, with an alias, an argument, a call of a function below it and a
key that means nothing. -/
def bogus : Entry :=
  .nested "bogus" (some "other") [("limit", .int 2)] (some [.columns "count" (.int 5) .null])
    [.mk "key" (.int 5) (.error (.badFieldValue "key" (.int 5)))]

/-- A place among the fields of the users, between two other fields of the query. -/
def amongUsers : List Entry.Frame := [⟨[.toggle "missing" true], "users", [.toggle "last" true]⟩]

theorem leads_amongUsers : ∃ type, schema.Leads (.str "Query") amongUsers type ∧
    schema.field type (.str "bogus") = .ok none := by
  obtain ⟨f, base, found, returned, name⟩ : ∃ f base,
      schema.field (.str "Query") (.str "users") = .ok (some f) ∧ f.base = .ok base ∧
        base.name = .str "User" := Schema.exists_base_of_field (by decide +kernel)
  refine ⟨base.name, .inside found returned (.here _), ?_⟩
  rw [name]
  rfl

theorem exists_compileAll_amongUsers : ∃ p : List Item × Bindings,
    (schema.compileAll
        (Entry.plug amongUsers ([Entry.toggle "id" true] ++ [Entry.toggle "next" true]))
        (.str "Query") []).result (Bindings.start 1) = .ok p ∧
      (p.1.map Item.text, p.2.diagnostics.map Diagnostic.path) =
        (["users \x7b\n  id\n\x7d"], [["missing"], ["users", "next"], ["last"]]) :=
  exists_of_toOption_map (by decide +kernel)

theorem exists_compileBefore_amongUsers : ∃ p : List Item × Bindings,
    (schema.compileBefore amongUsers [.toggle "id" true] (.str "Query") []).result
      (Bindings.start 1) = .ok p ∧ p.2.diagnostics.map Diagnostic.path = [["missing"]] :=
  exists_of_toOption_map (by decide +kernel)

end Sample

namespace Schema

/-- Users compile with an unknown field among theirs as without it, and it is reported between the
unknown fields before it and behind it. -/
theorem compileAll_plug_of_missing_users : ∃ items b',
    Runs (Sample.schema.compileAll (Entry.plug Sample.amongUsers
      ([.toggle "id" true] ++ Sample.bogus :: [.toggle "next" true])) (.str "Query") [])
      (Bindings.start 1) items b' ∧
    items.map Item.text = ["users \x7b\n  id\n\x7d"] ∧
    b'.diagnostics.map Diagnostic.path =
      [["missing"], ["users", "bogus"], ["users", "next"], ["last"]] := by
  obtain ⟨type, leads, missing⟩ := Sample.leads_amongUsers
  obtain ⟨p, ran, written⟩ := Sample.exists_compileAll_amongUsers
  obtain ⟨q, ran', early⟩ := Sample.exists_compileBefore_amongUsers
  obtain ⟨fault, failed, _⟩ | ⟨before, b₁, items, b', first, plain, more⟩ :=
    compileAll_plug_of_missing leads (e := Sample.bogus) rfl rfl missing [.toggle "id" true]
      [.toggle "next" true] [] (Bindings.start 1)
  · cases ran.symm.trans failed
  · cases ran.symm.trans plain
    cases ran'.symm.trans first
    obtain ⟨texts, paths⟩ := Prod.mk.inj written
    have later : b'.diagnostics.map Diagnostic.path = [["users", "next"], ["last"]] := by
      rw [Bindings.behind, List.map_append, early] at paths
      exact List.append_cancel_left paths
    refine ⟨items, _, more, texts, ?_⟩
    rw [Bindings.behind, List.map_append, List.map_append, early, later]
    rfl

/-! ### Fields that are switched off -/

variable {s : Schema}

/-- A field that is switched off changes nothing, wherever it stands, just if its type has a base
type. If its type has none, compiling fails for that when it comes to the field. -/
theorem compileAll_off_iff {parent : Value} {name : String} {f : FieldDef}
    (found : s.field parent (.str name) = .ok (some f)) :
    ((∀ es es' path, s.compileAll (es ++ .toggle name false :: es') parent path =
        s.compileAll (es ++ es') parent path) ↔ ∃ base, f.base = .ok base) ∧
      ∀ fault, f.base = .error fault → ∀ es es' path,
        s.compileAll (es ++ .toggle name false :: es') parent path =
          s.compileAll es parent path >>= fun _ => Step.of (.error fault) := by
  have fails {fault : Failure} (unreturned : f.base = .error fault) (es es' : List Entry)
      (path : List String) : s.compileAll (es ++ .toggle name false :: es') parent path =
        s.compileAll es parent path >>= fun _ => Step.of (.error fault) := by
    rw [compileAll_append, compileAll_cons, compile_off_of_error found unreturned]
    rfl
  refine ⟨⟨fun same => ?_, ?_⟩, fun _ => fails⟩
  · cases returned : f.base with
    | ok base => exact ⟨base, rfl⟩
    | error fault =>
      -- Alone, the field fails where no entry at all compiles.
      have clash := congrFun ((fails returned [] [] []).symm.trans (same [] [] [])) default
      cases congrArg Prod.fst clash
  · rintro ⟨base, returned⟩ es es' path
    rw [compileAll_append, compileAll_append, compileAll_cons, compile_off found returned]
    simp only [pure_bind, Option.toList_none, List.nil_append, bind_pure]

end Schema

namespace Sample

/-- An introspection answer: the cells of a grid, row by row, and the number of its rows. -/
def gridAnswer : Value :=
  .obj [("queryType", .obj [("name", .str "Query")]), ("types", .arr [
    object "Query" [
      member "cells" (wrapped "LIST" (wrapped "LIST" (plain "SCALAR" "Int"))) [],
      member "height" (plain "SCALAR" "Int") []]])]

/-- The schema of the answer. -/
def grid : Schema := (Schema.ofIntrospection gridAnswer).toOption.get (by decide +kernel)

/-- A field of a type without a base type. -/
theorem exists_cells : ∃ f, grid.field (.str "Query") (.str "cells") = .ok (some f) ∧
    f.base = .error (.schema (.noBaseName f.type)) := by
  obtain ⟨o, found, holds⟩ : ∃ o, grid.field (.str "Query") (.str "cells") = .ok o ∧
      o.map FieldDef.type = some (.list (.list (.named .scalar "Int"))) :=
    exists_of_toOption_map (by rfl)
  obtain ⟨f, rfl, nested⟩ := Option.map_eq_some_iff.1 holds
  refine ⟨f, found, ?_⟩
  rw [FieldDef.base, nested]
  rfl

theorem exists_height : ∃ f base, grid.field (.str "Query") (.str "height") = .ok (some f) ∧
    f.base = .ok base ∧ base.name = .str "Int" :=
  Schema.exists_base_of_field (by decide +kernel)

end Sample

namespace Schema

/-- The height of a grid is switched off without a trace. -/
theorem compileAll_off_iff_height : (∃ f, Sample.grid.field (.str "Query") (.str "height") =
      .ok (some f)) ∧ ∀ es es' path,
    Sample.grid.compileAll (es ++ .toggle "height" false :: es') (.str "Query") path =
      Sample.grid.compileAll (es ++ es') (.str "Query") path := by
  obtain ⟨f, base, found, returned, _⟩ := Sample.exists_height
  exact ⟨⟨f, found⟩, (compileAll_off_iff found).1.2 ⟨base, returned⟩⟩

/-- Switching off the cells of a grid fails, and no fields at all compile to no selections. -/
theorem unsettling_cells : ∃ f, Sample.grid.field (.str "Query") (.str "cells") = .ok (some f) ∧
    (Sample.grid.compileAll ([] ++ .toggle "cells" false :: []) (.str "Query") []).result
      (Bindings.start 1) = .error (.schema (.noBaseName f.type)) ∧
    (Sample.grid.compileAll ([] ++ []) (.str "Query") []).result (Bindings.start 1) =
      .ok ([], Bindings.start 1) := by
  obtain ⟨f, found, unreturned⟩ := Sample.exists_cells
  refine ⟨f, found, ?_, rfl⟩
  rw [List.nil_append, compileAll_cons, compile_off_of_error found unreturned]
  rfl

end Schema

end GraphRequest

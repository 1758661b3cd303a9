import GraphRequest.Proofs.Query.Plans
import GraphRequest.Proofs.Selection.Names

/-!
# A tree of wanted fields merged into the default selection

The wanted fields of a tree are compiled one after the other, and meanwhile each takes away the
default selections whose text begins with the name of its field. The outcome is that of compiling
the entries alone, with the default selections of all other fields in front.

* `Item.fieldName?`: the field that a selection is of.
* `fieldName?_of_rootDefaults`: default selections are written beginning with the names of their
  fields.
* `compileRoot_tree`: a tree of wanted fields at the root.
-/

namespace GraphRequest

open Step

/-- The name of the field that a selection is of, whatever its alias. -/
def Item.fieldName? : Item → Option String
  | .raw _ => none
  | .field _ name _ _ => some name

namespace Schema

variable {s : Schema} {type : Value}

theorem fieldName?_of_leaf {name : String} (h : name ∈ typenameField :: rootDefaultFields) :
    (Item.leaf name).leadingName = (Item.leaf name).fieldName? := leadingName_leaf h

theorem fieldName?_of_aggregateDefault {t : TypeDef} {items : List Item}
    (made : s.aggregateDefault t = .ok items) : ∀ i ∈ items, i.leadingName = i.fieldName? := by
  unfold aggregateDefault at made
  split at made
  · cases made
    exact List.forall_mem_singleton.2 (fieldName?_of_leaf (.head _))
  · obtain ⟨base, _, made⟩ := bind_eq_ok.1 made
    obtain ⟨o, _, made⟩ := bind_eq_ok.1 made
    cases made
    have named : Text.leadingName "aggregate" = some "aggregate" := by decide
    exact List.forall_mem_singleton.2 ((Item.leadingName_field _ _ _ _).trans named)

/-- Default selections at the root are written beginning with the names of their fields. -/
theorem fieldName?_of_rootDefaults {t : TypeDef} {aggregate : Bool} {items : List Item}
    (selectable : s.selectable type = .ok (some t))
    (made : s.rootDefaults type aggregate = .ok items) :
    ∀ i ∈ items, i.leadingName = i.fieldName? := by
  cases aggregate with
  | true =>
    obtain ⟨o, found, made⟩ := bind_eq_ok.1 made
    cases selectable.symm.trans found
    exact fieldName?_of_aggregateDefault made
  | false =>
    obtain ⟨o, found, made⟩ := bind_eq_ok.1 made
    cases selectable.symm.trans found
    cases made
    intro i hi
    obtain ⟨name, hname, rfl⟩ := List.mem_map.1 hi
    apply fieldName?_of_leaf
    split at hname
    · exact List.mem_cons.2 (.inl (List.mem_singleton.1 hname))
    · exact List.mem_cons_of_mem _ (List.mem_filter.1 hname).1

/-- The default selections that stay beside some entries are those of the fields that none of the
entries is about. -/
theorem beside_rootDefaults {t : TypeDef} {aggregate : Bool} {items : List Item}
    (selectable : s.selectable type = .ok (some t))
    (made : s.rootDefaults type aggregate = .ok items) (es : List Entry) :
    beside es items = items.filter fun i => es.all fun e => e.name? != i.fieldName? := by
  refine List.filter_congr fun i hi => ?_
  rw [fieldName?_of_rootDefaults selectable made i hi]
  simp only [bne_comm]

/-- A request has no entry for its aggregate if that is missing or empty. -/
theorem aggregateEntry_of_plain {r : Request} (plain : r.aggregate = none ∨ r.aggregate = some []) :
    aggregateEntry r = .ok none := by
  unfold aggregateEntry
  rcases plain with plain | plain <;> rw [plain]

/-- A tree of wanted fields compiles at the root as its entries do alone, behind the default
selections of the fields that no entry is about, whatever becomes of the entries. -/
theorem compileRoot_tree {r : Request} {t : TypeDef} {es : List Entry}
    (selectable : s.selectable type = .ok (some t)) (wanted : r.wanted = some (.tree es))
    (plain : r.aggregate = none ∨ r.aggregate = some []) (aggregate : Bool) (path : List String) :
    s.compileRoot r type aggregate path = (do
      let defaults ← Step.of (s.rootDefaults type aggregate)
      let items ← s.compileAll es type path
      return (defaults.filter fun i => es.all fun e => e.name? != i.fieldName?) ++ items) := by
  have merges : s.compileRoot r type aggregate path = (do
      let defaults ← Step.of (s.rootDefaults type aggregate)
      s.mergeInto defaults es type path) := by
    have unmerged : Step.of (aggregateEntry r) = pure none := by
      rw [aggregateEntry_of_plain plain]
      rfl
    have typed : Step.of (s.selectable type) = pure (some t) := by
      rw [selectable]
      rfl
    simp only [compileRoot, typed, compileWanted, wanted, unmerged, pure_bind]
    cases aggregate <;> simp
  rw [merges]
  cases made : s.rootDefaults type aggregate with
  | error fault => rfl
  | ok defaults =>
    show s.mergeInto defaults es type path = (do
      let items ← s.compileAll es type path
      return (defaults.filter fun i => es.all fun e => e.name? != i.fieldName?) ++ items)
    rw [mergeInto_eq, beside_rootDefaults selectable made]

end Schema

namespace Sample

/-- An introspection answer: people with the fields that are selected by default. -/
def peopleAnswer : Value :=
  .obj [("queryType", .obj [("name", .str "Query")]), ("types", .arr [
    object "Query" [member "people" (wrapped "LIST" (plain "OBJECT" "Person")) []],
    object "Person" [
      member "id" (wrapped "NON_NULL" (plain "SCALAR" "Int")) [],
      member "name" (plain "SCALAR" "String") [],
      member "email" (plain "SCALAR" "String") []]])]

/-- The schema of the answer. -/
def people : Schema := (Schema.ofIntrospection peopleAnswer).toOption.get (by decide +kernel)

/-- People under a name, without their email, and with a field that people do not have. -/
def labels : List Entry :=
  [.nested "name" (some "label") [] none [], .toggle "email" false, .toggle "bogus" true]

/-- A request for such people. -/
def labelled : Request :=
  (Request.ofValue (.obj [("operation", .str "query"), ("collection", .str "people"),
    ("returning", .obj [("name", .obj [("alias", .str "label")]), ("email", .bool false),
      ("bogus", .bool true)])])).toOption.get (by decide +kernel)

theorem wanted_labelled : labelled.wanted = some (.tree labels) := by rfl

theorem exists_person : ∃ t, people.selectable (.str "Person") = .ok (some t) := by
  obtain ⟨o, found, holds⟩ : ∃ o, people.selectable (.str "Person") = .ok o ∧
      o.isSome = true := exists_of_toOption_map (by decide +kernel)
  obtain ⟨t, rfl⟩ := Option.isSome_iff_exists.1 holds
  exact ⟨t, found⟩

theorem exists_compileAll_labels : ∃ p : List Item × Bindings,
    (people.compileAll labels (.str "Person") ["people"]).result (Bindings.start 1) = .ok p ∧
      (p.1.map Item.text, p.2.diagnostics.map Diagnostic.path) =
        (["label: name"], [["people", "bogus"]]) :=
  exists_of_toOption_map (by decide +kernel)

end Sample

namespace Schema

/-- People under a name: the name takes the place of the default selection of its field, the email
is gone, and the default selection of the number stays. -/
theorem compileRoot_tree_labels : ∃ items b', Runs (Sample.people.compileRoot Sample.labelled
      (.str "Person") false ["people"]) (Bindings.start 1) items b' ∧
    items.map Item.text = ["id", "label: name"] ∧
    b'.diagnostics.map Diagnostic.path = [["people", "bogus"]] := by
  obtain ⟨t, selectable⟩ := Sample.exists_person
  obtain ⟨⟨items, b'⟩, run, written⟩ := Sample.exists_compileAll_labels
  obtain ⟨texts, paths⟩ := Prod.mk.inj written
  refine ⟨.leaf "id" :: items, b', ?_, congrArg ("id" :: ·) texts, paths⟩
  rw [compileRoot_tree selectable Sample.wanted_labelled (.inl rfl) false ["people"]]
  have made : Sample.people.rootDefaults (.str "Person") false =
      .ok [.leaf "id", .leaf "name", .leaf "email"] := by rfl
  rw [made]
  refine runs_bind.2 ⟨_, _, runs_of.2 ⟨rfl, rfl⟩, ?_⟩
  exact runs_bind.2 ⟨items, b', run, runs_pure.2 ⟨by rfl, rfl⟩⟩

end Schema

end GraphRequest

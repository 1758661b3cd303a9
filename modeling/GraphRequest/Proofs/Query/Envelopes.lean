import GraphRequest.Proofs.Query.Bodies
import GraphRequest.Proofs.Query.Reports

/-!
# Which changes are enveloped

The root field for changing any number of rows is named after the action and the collection, and its
payload counts the rows and holds them, so its selection is put into an envelope. How the name of
the field ends tells whether it is such a field. For most collections this is right. The name of
some collections itself ends like a field for one row, or is such an ending; the selection on them
is left on the payload.

* `Naming.isReserved`: the collections whose fields are mistaken for fields for one row.
* `Naming.isBulk_opening_append`: the field of a collection is mistaken just if it is reserved.
* `enveloped_unless_reserved`: what is selected on a payload of the usual form.
-/

namespace GraphRequest

open Document (readText?)
open Step

/-! ### Names of changes -/

namespace Naming

/-- Whether the fields that change rows of a collection are named like fields for one row. -/
def isReserved (collection : String) : Bool :=
  isByKey collection || isOne collection || collection == "by_pk" || collection == "one"

theorem endsIn_iff {name ending : String} :
    endsIn name ending = true ↔ ending.toList <:+ name.toList := List.isSuffixOf_iff_suffix

/-- A field for one row by its key is none that inserts one row. -/
theorem isByKey_of_isOne {name : String} (one : isOne name = true) : isByKey name = false := by
  rw [Bool.eq_false_iff]
  intro byKey
  have either := List.suffix_or_suffix_of_suffix (endsIn_iff.1 one) (endsIn_iff.1 byKey)
  exact absurd either (by decide +kernel)

/-- An ending of two texts in a row is one of the second, or goes across both. -/
theorem endsIn_append_iff {first second ending : String} :
    endsIn (first ++ second) ending = true ↔ endsIn second ending = true ∨
      ∃ rest, rest <:+ first.toList ∧ ending.toList = rest ++ second.toList := by
  rw [endsIn_iff, endsIn_iff, String.toList_append]
  constructor
  · rintro ⟨before, same⟩
    rcases List.append_eq_append_iff.1 same with ⟨rest, first', across⟩ | ⟨rest, _, inside⟩
    · exact .inr ⟨rest, ⟨before, first'.symm⟩, across⟩
    · exact .inl ⟨rest, inside.symm⟩
  · rintro (inside | ⟨rest, ⟨before, first'⟩, across⟩)
    · exact inside.trans (List.suffix_append _ _)
    · exact ⟨before, by rw [across, ← first', List.append_assoc]⟩

/-- An ending that goes on in an opening with no more than its first character is one of the
collection behind the opening or takes up all of it. -/
theorem endsIn_append_of_single {opening ending : String} (collection : String)
    (first : ending.toList.take 1 <:+ opening.toList)
    (single : ∀ n ≤ ending.toList.length, ending.toList.take n <:+ opening.toList → n ≤ 1) :
    endsIn (opening ++ collection) ending = true ↔ endsIn collection ending = true ∨
      collection.toList = ending.toList.drop 1 := by
  rw [endsIn_append_iff]
  constructor
  · rintro (inside | ⟨rest, tail, across⟩)
    · exact .inl inside
    · have taken : ending.toList.take rest.length = rest := by rw [across, List.take_left]
      have dropped : ending.toList.drop rest.length = collection.toList := by
        rw [across, List.drop_left]
      have le : rest.length ≤ ending.toList.length := by
        rw [across, List.length_append]
        omega
      have short := single rest.length le (taken.symm ▸ tail)
      rcases Nat.le_one_iff_eq_zero_or_eq_one.1 short with none' | one'
      · rw [none', List.drop_zero] at dropped
        exact .inl (endsIn_iff.2 (dropped ▸ List.suffix_refl _))
      · rw [one'] at dropped
        exact .inr dropped.symm
  · refine Or.imp_right fun across => ⟨ending.toList.take 1, first, ?_⟩
    rw [across, List.take_append_drop]

/-- The field of a change to any number of rows is recognised unless its collection is reserved. -/
theorem isBulk_opening_append {a : Action} (change : a.isMutation = true) (collection : String) :
    isBulk a (a.opening ++ collection) = !isReserved collection := by
  have byKey : isByKey (a.opening ++ collection) = true ↔
      isByKey collection = true ∨ collection.toList = "by_pk".toList := by
    refine endsIn_append_of_single collection ?_ ?_ <;> cases a <;>
      first | decide +kernel | cases change
  have one : isOne (a.opening ++ collection) = true ↔
      isOne collection = true ∨ collection.toList = "one".toList := by
    refine endsIn_append_of_single collection ?_ ?_ <;> cases a <;>
      first | decide +kernel | cases change
  rw [String.toList_inj] at byKey one
  have reserved : isReserved collection = true ↔
      isByKey (a.opening ++ collection) = true ∨ isOne (a.opening ++ collection) = true := by
    rw [byKey, one, isReserved, Bool.or_eq_true, Bool.or_eq_true, Bool.or_eq_true, beq_iff_eq,
      beq_iff_eq, or_assoc, or_or_or_comm]
  rw [isBulk, change, Bool.true_and, ← Bool.not_or, Bool.not_inj_iff, Bool.eq_iff_iff,
    Bool.or_eq_true, reserved]

end Naming

namespace Schema

variable {s : Schema} {r : Request} {root : RootField} {b b' : Bindings}

/-! ### The root field of a change -/

theorem mem_candidates_of_resolve (h : s.resolve r = .ok root) : root.name ∈ r.candidates := by
  unfold resolve at h
  split at h
  · cases h
  · split at h
    · cases h
    · split at h
      · cases h
      · rename_i name field found
        cases h
        obtain ⟨candidate, mem, paired⟩ := List.exists_of_findSome?_eq_some found
        obtain ⟨_, _, same⟩ := Option.map_eq_some_iff.1 paired
        cases same
        exact mem

/-- A request for an aggregate does not resolve to the field of a change. -/
theorem isAggregate_of_resolve (resolved : s.resolve r = .ok root)
    (change : r.action.isMutation = true) (named : root.name = r.action.opening ++ r.collection) :
    r.isAggregate = false := by
  rw [Bool.eq_false_iff]
  intro aggregate
  have opens := Action.length_opening change
  have mem := mem_candidates_of_resolve resolved
  rw [named, Request.candidates, List.mem_eraseDups, Request.specialCandidates, if_pos aggregate,
    List.singleton_append, List.mem_pair] at mem
  have length := mem.imp (congrArg String.length) (congrArg String.length)
  have ending := Naming.length_aggregateEnding
  simp only [String.length_append] at length
  omega

/-! ### Envelopes -/

/-- A field that changes one row has no envelope, which is not reported. -/
theorem runs_envelope_of_single {a : Action} {o : Option Envelope}
    (named : root.field.nameText = .ok root.name) (single : Naming.isBulk a root.name = false)
    (h : Runs (s.envelope (some a) root.field) b o b') : o = none ∧ b' = b := by
  unfold envelope at h
  split at h
  · exact runs_pure.1 h
  · rename_i change
    obtain ⟨name, b₁, ran, h₁⟩ := runs_bind.1 h
    obtain ⟨same, rfl⟩ := runs_ofShape.1 ran
    cases named.symm.trans same
    cases (Option.filter_eq_some_iff.1 change).1
    rw [single] at h₁
    exact runs_pure.1 h₁

/-- A field that changes any number of rows and returns a payload of the usual form has an envelope,
and nothing is reported. -/
theorem runs_envelope_of_bulk {a : Action} {base : BaseType} {t : TypeDef} {rows : FieldDef}
    {o : Option Envelope} (named : root.field.nameText = .ok root.name)
    (bulk : Naming.isBulk a root.name = true) (returned : root.field.base = .ok base)
    (typed : s.typeNamed base.name = .ok (some t)) (usual : rowsFieldOf t = some rows)
    (h : Runs (s.envelope (some a) root.field) b o b') :
    ∃ row, rows.base = .ok row ∧ o = some ⟨base.name, row.name⟩ ∧ b' = b := by
  have wrapped := isSome_of_runs_envelope named returned typed h
  rw [bulk, usual] at wrapped
  obtain ⟨rfl, _⟩ | ⟨base', t', rows', row, returned', typed', usual', held, same⟩ :=
    runs_envelope h
  · cases wrapped
  · cases returned.symm.trans returned'
    cases typed.symm.trans typed'
    cases usual.symm.trans usual'
    exact ⟨row, held, same⟩

/-- The selection on a payload of the usual form: in an envelope and on the type of the rows, unless
the field is one for a single row. -/
theorem enveloped_of_planned {base : BaseType} {t : TypeDef} {rows : FieldDef} {items : List Item}
    (named : root.field.nameText = .ok root.name) (returned : root.field.base = .ok base)
    (typed : s.typeNamed base.name = .ok (some t)) (usual : rowsFieldOf t = some rows)
    (h : Planned s r root b items b') :
    if Naming.isBulk r.action root.name then
      ∃ row selected, rows.base = .ok row ∧
        Runs (s.compileRoot r row.name false [root.name]) b selected b' ∧
        items = Envelope.wrap selected
    else Runs (s.compileRoot r base.name r.isAggregate [root.name]) b items b' := by
  cases bulk : Naming.isBulk r.action root.name with
  | true =>
    rw [if_pos rfl]
    cases h with
    | enveloped envelope compiles =>
      obtain ⟨row, held, same, rfl⟩ :=
        runs_envelope_of_bulk named bulk returned typed usual envelope
      cases same
      exact ⟨row, _, held, compiles, rfl⟩
    | plain envelope returned' compiles =>
      obtain ⟨_, _, same, _⟩ := runs_envelope_of_bulk named bulk returned typed usual envelope
      cases same
  | false =>
    rw [if_neg Bool.false_ne_true]
    cases h with
    | enveloped envelope compiles =>
      obtain ⟨same, _⟩ := runs_envelope_of_single named bulk envelope
      cases same
    | plain envelope returned' compiles =>
      obtain ⟨_, rfl⟩ := runs_envelope_of_single named bulk envelope
      cases returned.symm.trans returned'
      exact compiles

/-- The selection on the payload of a change to any number of rows is in an envelope and on the type
of the rows, whenever the payload counts the rows and holds them and the collection is not
reserved. For a reserved collection it is left on the payload. No envelope is reported missing. -/
theorem enveloped_unless_reserved {read : String → Option Document} {q : CompiledQuery}
    {base : BaseType} {t : TypeDef} {rows : FieldDef} (compiled : s.compileBy read r = .ok q)
    (resolved : s.resolve r = .ok root) (change : r.action.isMutation = true)
    (named : root.name = r.action.opening ++ r.collection) (returned : root.field.base = .ok base)
    (typed : s.typeNamed base.name = .ok (some t)) (counts : t.declares "affected_rows" = true)
    (holds : t.field? (.str "returning") = some rows) :
    (∀ d ∈ q.diagnostics, d.code ≠ .missingEnvelope) ∧
      ∃ p text b, s.plan r = .ok p ∧ Assembly.documentText p.parts r.fragments = .ok text ∧
        read text = some q.document ∧ p.parts.fieldText = p.rootItem.text ∧
        Runs (r.bindRoot root.field) (Bindings.start r.counter) p.arguments b ∧
        if Naming.isReserved r.collection then
          Runs (s.compileRoot r base.name false [root.name]) b p.items p.bindings
        else ∃ row selected, rows.base = .ok row ∧
          Runs (s.compileRoot r row.name false [root.name]) b selected p.bindings ∧
          p.items = .leaf "affected_rows" ::
            (if (without selected (some "affected_rows")).isEmpty then []
              else [.field none "returning" []
                (some (without selected (some "affected_rows")))]) := by
  obtain ⟨p, text, document, planned, written, reads, rfl⟩ := plan_of_compileBy compiled
  obtain ⟨root', b, resolved', _, _, arguments, below⟩ := planned_of_plan planned
  cases resolved.symm.trans resolved'
  have usual : rowsFieldOf t = some rows := (if_pos counts).trans holds
  have whole : r.isAggregate = false := isAggregate_of_resolve resolved change named
  have selects := enveloped_of_planned (nameText_of_resolve resolved) returned typed usual below
  rw [named, Naming.isBulk_opening_append change, whole, ← named] at selects
  -- Only looking for an envelope reports a missing one, and nothing was reported then.
  have nothing : ¬ ∃ d ∈ b.diagnostics, d.code = .missingEnvelope := by
    rw [(reports_bindRoot arguments).exists_code_iff (by simp [DiagnosticCode.IsOfPayload])]
    simp [Bindings.start]
  have selected {type : Value} {items : List Item} {b' : Bindings}
      (h : Runs (s.compileRoot r type false [root.name]) b items b') :
      ¬ ∃ d ∈ b'.diagnostics, d.code = .missingEnvelope := by
    rwa [(reports_compileRoot h).exists_code_iff (by simp [DiagnosticCode.IsOfSelection])]
  cases reserved : Naming.isReserved r.collection with
  | true =>
    rw [reserved, Bool.not_true, if_neg Bool.false_ne_true] at selects
    refine ⟨fun d hd code => selected selects ⟨d, hd, code⟩, p, text, b, planned, written, reads,
      p.fieldText_parts, arguments, ?_⟩
    rw [if_pos rfl]
    exact selects
  | false =>
    rw [reserved, Bool.not_false, if_pos rfl] at selects
    obtain ⟨row, items, held, compiles, wrapped⟩ := selects
    refine ⟨fun d hd code => selected compiles ⟨d, hd, code⟩, p, text, b, planned, written, reads,
      p.fieldText_parts, arguments, ?_⟩
    rw [if_neg Bool.false_ne_true]
    exact ⟨row, items, held, compiles, wrapped⟩

end Schema

namespace Sample

/-- The request to insert two rows into a collection of the schema with changes. -/
def inserting (collection : String) : Except Failure Request :=
  Request.ofValue (insertion collection [("objects", .arr [.str "first", .str "second"])])

/-- Inserting two phases. -/
def phases : Request := (inserting "phase").toOption.get (by decide +kernel)

theorem exists_compileBy_phases :
    ∃ q, changing.compileBy readText? phases = .ok q ∧ q.field = "insert_phase" :=
  Schema.exists_compileBy_of_run? (by decide +kernel)

/-- Inserting into a collection whose name ends like a field for one row. -/
def phaseOnes : Request := (inserting "phase_one").toOption.get (by decide +kernel)

/-- The root field of a request and the type of the payload that it returns. -/
def payloadOf (r : Request) : Except Failure (RootField × BaseType × Option TypeDef) := do
  let root ← changing.resolve r
  let base ← root.field.base
  let payload ← changing.typeNamed base.name
  .ok (root, base, payload)

/-- Whether a payload, if there is one, has the usual form. -/
def isUsual (payload : Option TypeDef) : Bool :=
  payload.any fun t => t.declares "affected_rows" && t.declares "returning"

theorem exists_payload {r : Request} (name : String)
    (h : ((payloadOf r).toOption.map fun p => (p.1.name, isUsual p.2.2)) = some (name, true)) :
    ∃ root base t rows, changing.resolve r = .ok root ∧ root.name = name ∧
      root.field.base = .ok base ∧ changing.typeNamed base.name = .ok (some t) ∧
      t.declares "affected_rows" = true ∧ t.field? (.str "returning") = some rows := by
  obtain ⟨_, made, h⟩ := exists_of_toOption_map h
  obtain ⟨root, resolved, made⟩ := bind_eq_ok.1 made
  obtain ⟨base, returned, made⟩ := bind_eq_ok.1 made
  obtain ⟨payload, typed, made⟩ := bind_eq_ok.1 made
  cases made
  obtain ⟨named, usual⟩ := Prod.mk.inj h
  cases payload with
  | none => cases usual
  | some t =>
    have declared : (t.declares "affected_rows" && t.declares "returning") = true := usual
    rw [Bool.and_eq_true] at declared
    obtain ⟨rows, holds⟩ := Option.isSome_iff_exists.1 declared.2
    exact ⟨root, base, t, rows, resolved, named, returned, typed, declared.1, holds⟩

end Sample

namespace Schema

/-- Two phases are inserted in an envelope. -/
theorem enveloped_unless_reserved_phases :
    ∃ q p row, Sample.changing.compileBy readText? Sample.phases = .ok q ∧
      Sample.changing.plan Sample.phases = .ok p ∧
      (∀ d ∈ q.diagnostics, d.code ≠ .missingEnvelope) ∧
      p.items = .leaf "affected_rows" :: row := by
  obtain ⟨q, compiled, _⟩ := Sample.exists_compileBy_phases
  obtain ⟨root, base, t, rows, resolved, named, returned, typed, counts, holds⟩ :=
    Sample.exists_payload (r := Sample.phases) "insert_phase" (by decide +kernel)
  have same : root.name = Sample.phases.action.opening ++ Sample.phases.collection := by
    rw [named]
    decide +kernel
  obtain ⟨unreported, p, _, _, planned, _, _, _, _, selects⟩ :=
    enveloped_unless_reserved compiled resolved (by decide +kernel) same returned typed counts holds
  rw [if_neg (by decide +kernel)] at selects
  obtain ⟨_, _, _, _, items⟩ := selects
  exact ⟨q, p, _, compiled, planned, unreported, items⟩

/-- The field for inserting any number of rows into a collection that ends in `_one` returns a
payload of the usual form, but its selection is left on the payload, where the wanted title is
unknown. -/
theorem bare_phaseOnes :
    ∃ root base t rows q p, Sample.changing.resolve Sample.phaseOnes = .ok root ∧
      root.name = Sample.phaseOnes.action.opening ++ Sample.phaseOnes.collection ∧
      root.field.base = .ok base ∧ Sample.changing.typeNamed base.name = .ok (some t) ∧
      t.declares "affected_rows" = true ∧ t.field? (.str "returning") = some rows ∧
      Sample.changing.compileBy readText? Sample.phaseOnes = .ok q ∧
      q.diagnostics.map Diagnostic.code = [.unmatchedInsert, .unknownField] ∧
      Sample.changing.plan Sample.phaseOnes = .ok p ∧ p.items.map Item.text = ["__typename"] := by
  obtain ⟨root, base, t, rows, resolved, named, returned, typed, counts, holds⟩ :=
    Sample.exists_payload (r := Sample.phaseOnes) "insert_phase_one" (by decide +kernel)
  have same : root.name = Sample.phaseOnes.action.opening ++ Sample.phaseOnes.collection := by
    rw [named]
    decide +kernel
  obtain ⟨p, q, planned, compiled, bare⟩ : ∃ p q,
      Sample.changing.plan Sample.phaseOnes = .ok p ∧
      Sample.changing.compileBy readText? Sample.phaseOnes = .ok q ∧
      (q.diagnostics.map Diagnostic.code, p.items.map Item.text) =
        ([.unmatchedInsert, .unknownField], ["__typename"]) := exists_of_run? (by decide +kernel)
  obtain ⟨codes, items⟩ := Prod.mk.inj bare
  exact ⟨root, base, t, rows, q, p, resolved, same, returned, typed, counts, holds, compiled, codes,
    planned, items⟩

end Schema

end GraphRequest

import Mathlib.Data.List.Forall2
import GraphRequest.Proofs.Schema.Names
import GraphRequest.Proofs.Schema.Shapes

/-!
# What a schema says about its introspection answer

A schema is an index over an answer: its types, fields and arguments are looked up by name, and the
answer may list a name more than once. Of types and fields the last one counts, an argument may be
listed once only, and the root types have to be object types of the answer.

* `LastNamed`, `ReadLast`: the last of some descriptions under a name, and what it is read as.
* `TypeDef.ReadFrom`: a type with the fields and arguments that its description lists.
* `Schema.Indexes`: a schema that says of each name what the answer lists last under it.
* `Schema.Breaks`: answers with an argument listed twice or without their root types.
* `Schema.indexes_of_ofIntrospection`: a schema that is read is an index, and an answer that breaks
  the rules is not read.
-/

namespace GraphRequest

/-! ### Descriptions -/

namespace Value

/-- The items of a member that may be absent or empty. -/
def listed (v : Value) (key : String) : List Value :=
  (optionalElements (v.memberOrNone key)).toOption.getD []

theorem listed_of_optionalElements {v : Value} {key : String} {items : List Value}
    (h : optionalElements (v.memberOrNone key) = .ok items) : v.listed key = items := by
  rw [listed, h]
  rfl

theorem memberOrNone_of_twoEntries? {v name type : Value}
    (h : v.twoEntries? "name" "type" = some (name, type)) : v.memberOrNone "name" = some name := by
  cases v with
  | obj fields =>
    obtain ⟨a, first, h⟩ := Option.bind_eq_some_iff.1 h
    obtain ⟨b, _, h⟩ := Option.bind_eq_some_iff.1 h
    cases h
    exact first
  | _ => cases h

theorem hasDistinctKeys_of_isKey {v : Value} (key : v.isKey = true) :
    v.hasDistinctKeys = true := by
  induction v using inductParts with
  | arr items => cases key
  | obj fields => cases key
  | columns names distinct ihn ihd =>
    obtain ⟨hn, hd⟩ := Bool.and_eq_true_iff.1 key
    exact hasDistinctKeys_columns.2 ⟨ihn hn, ihd hd⟩
  | _ => rfl

end Value

/-- The last of some descriptions under a name. -/
def LastNamed (name : String) (described : List Value) (v : Value) : Prop :=
  ∃ before after, described = before ++ v :: after ∧ v.memberOrNone "name" = some (.str name) ∧
    ∀ w ∈ after, w.memberOrNone "name" ≠ some (.str name)

theorem LastNamed.mem {name : String} {described : List Value} {v : Value}
    (h : LastNamed name described v) : v ∈ described := by
  obtain ⟨before, after, rfl, _⟩ := h
  exact List.mem_append_right before (.head after)

theorem LastNamed.named {name : String} {described : List Value} {v : Value}
    (h : LastNamed name described v) : v.memberOrNone "name" = some (.str name) := by
  obtain ⟨_, _, _, named, _⟩ := h
  exact named

/-- What is found under a name is related to the last description under it. If nothing is found,
there is no such description. -/
def ReadLast {α : Type} (R : Value → α → Prop) (name : String) (described : List Value) :
    Option α → Prop
  | none => ∀ v ∈ described, v.memberOrNone "name" ≠ some (.str name)
  | some a => ∃ v, LastNamed name described v ∧ R v a

theorem Value.equals_str_iff {v : Value} {name : String} :
    v.equals (.str name) = true ↔ v = .str name := by
  refine ⟨equals_str, ?_⟩
  rintro rfl
  exact equals_str_self name

section

variable {α : Type} {R : Value → α → Prop} {nameOf : α → Value}

/-- Descriptions are read one by one, under their names. Looking a name up from the back then finds
what the last description under it was read as. -/
theorem readLast_of_forall₂ (named : ∀ v a, R v a → v.memberOrNone "name" = some (nameOf a))
    {described : List Value} {read : List α} (h : List.Forall₂ R described read) (name : String) :
    ReadLast R name described (read.reverse.find? fun a => (nameOf a).equals (.str name)) := by
  -- What is found among the later ones counts; only if nothing is, the first one may.
  induction h with
  | nil => exact List.forall_mem_nil _
  | @cons v a described read first _ ih =>
    rw [List.reverse_cons, List.find?_append]
    cases later : read.reverse.find? fun a => (nameOf a).equals (.str name) with
    | some b =>
      rw [later] at ih
      obtain ⟨w, ⟨before, after, split, here, others⟩, related⟩ := ih
      exact ⟨w, ⟨v :: before, after, by rw [split, List.cons_append], here, others⟩, related⟩
    | none =>
      rw [later] at ih
      rw [Option.none_or, List.find?_singleton]
      cases same : (nameOf a).equals (.str name) with
      | true =>
        rw [if_pos rfl]
        exact ⟨v, ⟨[], described, rfl, by rw [named v a first, Value.equals_str same], ih⟩, first⟩
      | false =>
        rw [if_neg Bool.false_ne_true]
        refine List.forall_mem_cons.2 ⟨fun here => ?_, ih⟩
        rw [named v a first, Option.some.injEq, ← Value.equals_str_iff, same] at here
        cases here

end

/-! ### Reading one description after the other -/

theorem forall₂_of_mapM_eq_ok {ε α β : Type} {f : α → Except ε β} {as : List α} {bs : List β}
    (h : as.mapM f = .ok bs) : List.Forall₂ (fun a b => f a = .ok b) as bs := by
  induction as generalizing bs with
  | nil =>
    cases h
    exact .nil
  | cons a as ih =>
    rw [List.mapM_cons] at h
    obtain ⟨b, hb, h⟩ := bind_eq_ok.1 h
    obtain ⟨bs, hbs, h⟩ := bind_eq_ok.1 h
    cases h
    exact .cons hb (ih hbs)

theorem exists_of_forall₂ {α β : Type} {R : α → β → Prop} {as : List α} {bs : List β}
    (h : List.Forall₂ R as bs) {a : α} (ha : a ∈ as) : ∃ b ∈ bs, R a b := by
  induction h with
  | nil => cases ha
  | cons first _ ih =>
    rcases List.mem_cons.1 ha with rfl | ha
    · exact ⟨_, .head _, first⟩
    · obtain ⟨b, hb, related⟩ := ih ha
      exact ⟨b, .tail _ hb, related⟩

namespace FieldDef

/-- Arguments that go by different names, so that looking a name up finds the argument that is
listed under it. -/
structure Agrees (f : FieldDef) : Prop where
  distinct : (f.arguments.map ArgumentDef.name).Nodup
  get : ∀ (name : String) (a : ArgumentDef),
    f.argument? (.str name) = some a ↔ a ∈ f.arguments ∧ a.name = .str name
  has : ∀ name : String, f.declares name = true ↔ ∃ a ∈ f.arguments, a.name = .str name

/-- A field of a type is read from a description, which has its name and lists its arguments, in
order. -/
structure ReadFrom (owner v : Value) (f : FieldDef) : Prop where
  made : FieldDef.ofValue owner v = .ok f
  named : v.memberOrNone "name" = some f.name
  arguments : List.Forall₂ (fun w a => ArgumentDef.ofValue ⟨owner, f.name⟩ w = .ok a)
    (v.listed "args") f.arguments
  agrees : f.Agrees

theorem checked_of_checkArguments {field : Value} {seen : List Value}
    {arguments : List ArgumentDef} (h : checkArguments field seen arguments = .ok ()) :
    ∀ a ∈ arguments, a.name.isKey = true := by
  have reads := reads_checkArguments field seen arguments
  rw [h] at reads
  cases reads with
  | ok _ keyed => exact List.all_eq_true.1 keyed

theorem nodup_of_checkArguments {field : Value} {arguments : List ArgumentDef}
    (h : checkArguments field [] arguments = .ok ()) :
    (arguments.map ArgumentDef.name).Nodup := by
  have keyed := checked_of_checkArguments h
  have distinct := (distinct_of_checkArguments h).2
  refine List.pairwise_map.2 (distinct.imp_of_mem fun {a b} _ hb differ same => ?_)
  rw [same, Value.equals_self (Value.hasDistinctKeys_of_isKey (keyed b hb))] at differ
  cases differ

theorem agrees_of_nodup {f : FieldDef} (distinct : (f.arguments.map ArgumentDef.name).Nodup) :
    f.Agrees where
  distinct := distinct
  get name a := by
    refine ⟨argument?_eq_some, fun ⟨listed, named⟩ => ?_⟩
    obtain ⟨b, found⟩ := Option.isSome_iff_exists.1 (declares_of_mem listed named)
    obtain ⟨listed', named'⟩ := argument?_eq_some found
    rw [found, List.inj_on_of_nodup_map distinct listed' listed (named'.trans named.symm)]
  has name := by
    refine ⟨fun declared => ?_, fun ⟨a, listed, named⟩ => declares_of_mem listed named⟩
    obtain ⟨a, found⟩ := Option.isSome_iff_exists.1 declared
    exact ⟨a, argument?_eq_some found⟩

theorem readFrom_of_ofValue {owner v : Value} {f : FieldDef} (h : ofValue owner v = .ok f) :
    f.ReadFrom owner v := by
  have whole := h
  unfold ofValue at h
  split at h
  · cases h
  · rename_i name type entries
    obtain ⟨described, items, h⟩ := bind_eq_ok.1 h
    obtain ⟨arguments, made, h⟩ := bind_eq_ok.1 h
    obtain ⟨_, _, h⟩ := bind_eq_ok.1 h
    obtain ⟨_, checked, h⟩ := bind_eq_ok.1 h
    cases h
    refine ⟨whole, Value.memberOrNone_of_twoEntries? entries, ?_,
      agrees_of_nodup (nodup_of_checkArguments checked)⟩
    rw [Value.listed_of_optionalElements items]
    exact forall₂_of_mapM_eq_ok made

/-- A field lists each of its arguments once. -/
theorem ReadFrom.nodup_names {owner v : Value} {f : FieldDef} (h : f.ReadFrom owner v) :
    ((v.listed "args").map fun w => w.memberOrNone "name").Nodup := by
  have names : (v.listed "args").map (fun w => w.memberOrNone "name") =
      (f.arguments.map ArgumentDef.name).map some := by
    rw [List.map_map]
    refine List.forall₂_eq_eq_eq ▸ List.forall₂_map_left_iff.2 (List.forall₂_map_right_iff.2 ?_)
    refine h.arguments.imp fun w a read => ?_
    unfold ArgumentDef.ofValue at read
    split at read
    · cases read
    · rename_i entries
      obtain ⟨_, _, read⟩ := bind_eq_ok.1 read
      cases read
      exact Value.memberOrNone_of_twoEntries? entries
  rw [names]
  exact h.agrees.distinct.map fun _ _ same => Option.some.inj same

end FieldDef

namespace TypeDef

/-- A type is read from a description, which has its name and kind and, if the kind takes a
selection, lists its fields in order. Of several fields of a name the last one is found. -/
structure ReadFrom (v : Value) (t : TypeDef) : Prop where
  made : TypeDef.ofValue v = .ok t
  named : v.memberOrNone "name" = some t.name
  kind : (v.memberOrNone "kind").bind TypeKind.ofValue? = some t.kind
  fields : t.isSelectable = true →
    List.Forall₂ (fun w f => f.ReadFrom t.name w) (v.listed "fields") t.fields
  found : t.isSelectable = true → ∀ name : String,
    (∀ f ∈ t.field? (.str name), f.name = .str name) ∧
      ReadLast (fun w f => f.ReadFrom t.name w) name (v.listed "fields") (t.field? (.str name))
  leaf : t.isSelectable = false → t.fields = [] ∧ ∀ name, t.field? name = none

theorem ReadFrom.agrees {v : Value} {t : TypeDef} (h : t.ReadFrom v) :
    ∀ f ∈ t.fields, f.Agrees := by
  intro f hf
  cases selectable : t.isSelectable with
  | false =>
    rw [(h.leaf selectable).1] at hf
    cases hf
  | true =>
    obtain ⟨w, _, read⟩ := exists_of_forall₂ (List.Forall₂.flip (h.fields selectable)) hf
    exact read.agrees

theorem members_of_headOf {v name : Value} {kind : TypeKind} (h : headOf v = .ok (kind, name)) :
    v.memberOrNone "name" = some name ∧
      (v.memberOrNone "kind").bind TypeKind.ofValue? = some kind := by
  unfold headOf at h
  split at h
  · split at h
    · rename_i kinded named
      cases h
      exact ⟨named, kinded⟩
    · cases h
  · cases h

theorem readFrom_of_ofValue {v : Value} {t : TypeDef} (h : ofValue v = .ok t) : t.ReadFrom v := by
  have whole := h
  obtain ⟨⟨kind, name⟩, head, h⟩ := bind_eq_ok.1 h
  obtain ⟨named, kinded⟩ := members_of_headOf head
  dsimp only at h
  cases selectable : kind.isSelectable with
  | false =>
    rw [selectable, if_neg Bool.false_ne_true] at h
    cases h
    refine ⟨whole, named, kinded, fun takes => ?_, fun takes => ?_,
      fun _ => ⟨rfl, fun _ => rfl⟩⟩ <;>
      exact absurd takes (by simp [isSelectable, selectable])
  | true =>
    rw [selectable, if_pos rfl] at h
    obtain ⟨described, items, h⟩ := bind_eq_ok.1 h
    obtain ⟨fields, made, h⟩ := bind_eq_ok.1 h
    split at h
    · cases h
      have read : List.Forall₂ (fun w f => FieldDef.ReadFrom name w f) (v.listed "fields")
          fields := by
        rw [Value.listed_of_optionalElements items]
        exact (forall₂_of_mapM_eq_ok made).imp fun w f => FieldDef.readFrom_of_ofValue
      refine ⟨whole, named, kinded, fun _ => read, fun _ n => ⟨fun f found => ?_, ?_⟩,
        fun leaf => ?_⟩
      · exact (field?_eq_some found).2
      · exact readLast_of_forall₂ (fun w f given => given.named) read n
      · exact absurd leaf (by simp [isSelectable, selectable])
    · cases h

end TypeDef

namespace Schema

/-! ### Types -/

/-- Of the types of a name, the one that was put in last is found. -/
theorem find?_insert (types : List TypeDef) (t : TypeDef) (name : String) :
    (insert types t).find? (fun u => u.name.equals (.str name)) =
      if t.name.equals (.str name) then some t
      else types.find? fun u => u.name.equals (.str name) := by
  induction types with
  | nil => exact List.find?_singleton
  | cons u us ih =>
    simp only [insert]
    cases replaced : u.name.equals t.name with
    | false =>
      rw [if_neg Bool.false_ne_true, List.find?_cons, ih, List.find?_cons]
      cases here : u.name.equals (.str name) with
      | false => rfl
      | true =>
        -- If both had the name, `u` would have been replaced.
        have other : t.name.equals (.str name) = false := by
          rw [Bool.eq_false_iff]
          intro same
          rw [Value.equals_str same, here] at replaced
          cases replaced
        rw [other]
        rfl
    | true =>
      rw [if_pos rfl, List.find?_cons, List.find?_cons]
      cases same : t.name.equals (.str name) with
      | true => rfl
      | false =>
        have other : u.name.equals (.str name) = false := by
          rw [Bool.eq_false_iff]
          intro here
          rw [Value.equals_str here] at replaced
          rw [Value.eq_of_str_equals replaced, Value.equals_str_self] at same
          cases same
        rw [other]
        rfl

theorem find?_foldl_insert (read types : List TypeDef) (name : String) :
    (read.foldl insert types).find? (fun u => u.name.equals (.str name)) =
      (read.reverse.find? fun u => u.name.equals (.str name)).or
        (types.find? fun u => u.name.equals (.str name)) := by
  induction read generalizing types with
  | nil => rfl
  | cons t read ih =>
    rw [List.foldl_cons, ih, find?_insert, List.reverse_cons, List.find?_append, Option.or_assoc,
      List.find?_singleton]
    cases t.name.equals (.str name) <;> rfl

theorem readTypes_eq_ok {types made : List TypeDef} {described : List Value}
    (h : readTypes types described = .ok made) :
    ∃ read, List.Forall₂ (fun v t => TypeDef.ofValue v = .ok t) described read ∧
      made = read.foldl insert types := by
  induction described generalizing types with
  | nil =>
    cases h
    exact ⟨[], .nil, rfl⟩
  | cons v rest ih =>
    obtain ⟨t, read, h⟩ := bind_eq_ok.1 h
    split at h
    · obtain ⟨others, made, rfl⟩ := ih h
      exact ⟨t :: others, .cons read made, rfl⟩
    · cases h

/-- The descriptions of types that an answer lists. -/
def describedTypes (fields : Fields) : List Value :=
  ((fields.lookup "types").getD .null).elements.toOption.getD []

/-! ### Indexes -/

/-- A schema as an index over an answer. The root types that the answer names are object types of
the schema, and there is one for queries. The type of a name is the last one that the answer lists
under it, and the field of a name on a type is the last one that this type lists under it. Types
that take no selection have no fields, and the arguments of a field agree with looking them up. -/
structure Indexes (s : Schema) (fields : Fields) : Prop where
  roots : ∀ o : OperationType, ∃ name, rootName fields o.rootKey = .ok name ∧
    s.root o = name.given ∧ (o = .query → name.isTruthy = true)
  objects : ∀ o name, s.root o = some name →
    ∃ t, s.typeNamed name = .ok (some t) ∧ t.kind = .object
  types : ∀ name : String, ∃ o, s.typeNamed (.str name) = .ok o ∧
    (∀ t ∈ o, t ∈ s.types ∧ t.name = .str name) ∧
    ReadLast (fun v t => t.ReadFrom v) name (describedTypes fields) o
  field : ∀ (type : String) (t : TypeDef), s.typeNamed (.str type) = .ok (some t) →
    ∀ name : String, s.field (.str type) (.str name) = .ok (t.field? (.str name))
  noField : ∀ type : String, s.typeNamed (.str type) = .ok none →
    ∀ name : String, s.field (.str type) (.str name) = .ok none
  leaf : ∀ t ∈ s.types, t.isSelectable = false → t.fields = [] ∧ ∀ name, t.field? name = none
  agrees : ∀ t ∈ s.types, ∀ f ∈ t.fields, f.Agrees

/-- What an answer does that names a root type which it does not list as an object type, or none for
queries, or that lists an argument twice. -/
inductive Breaks (fields : Fields) : Prop
  | argument {v w : Value} (listed : v ∈ describedTypes fields)
      (selectable : v.isSelectableType = true) (field : w ∈ v.listed "fields")
      (repeated : ¬ ((w.listed "args").map fun a => a.memberOrNone "name").Nodup)
  | query (unnamed : ∀ name, rootName fields "queryType" = .ok name → name.isTruthy = false)
  | root {o : OperationType} {name : String}
      (named : rootName fields o.rootKey = .ok (.str name))
      (absent : ∀ v, LastNamed name (describedTypes fields) v →
        (v.memberOrNone "kind").bind TypeKind.ofValue? ≠ some .object)

theorem typeNamed_of_given {s : Schema} {name name' : Value} {o : Option TypeDef}
    (given : name'.given = some name) (found : s.lookup name = .ok o) :
    s.typeNamed name = .ok o := by
  unfold typeNamed
  split
  · cases name' <;> cases given
  · exact found

/-- Of the types that are read one by one, the last one of a name is found. -/
theorem readLast_type? {s : Schema} {described : List Value} {read : List TypeDef}
    (each : List.Forall₂ (fun v t => t.ReadFrom v) described read)
    (same : s.types = read.foldl insert []) (name : String) :
    ReadLast (fun v t => t.ReadFrom v) name described (s.type? (.str name)) := by
  rw [type?, same, find?_foldl_insert, List.find?_nil, Option.or_none]
  exact readLast_of_forall₂ (fun v t read => read.named) each name

/-- A schema that is read from an answer is an index over it. -/
theorem exists_indexes {v : Value} {s : Schema} (h : ofIntrospection v = .ok s) :
    ∃ fields, ∃ read : List TypeDef, payload v = .ok fields ∧ s.Indexes fields ∧
      List.Forall₂ (fun v t => t.ReadFrom v) (describedTypes fields) read := by
  obtain ⟨fields, described, opened, listed, made, roots, checked⟩ := ofIntrospection_eq_ok h
  have here : describedTypes fields = described := by
    rw [describedTypes, Failure.ofShape_eq_ok.1 listed]
    rfl
  have readFrom : ∀ t ∈ s.types, ∃ v, t.ReadFrom v :=
    forall_of_readTypes (fun v t read => ⟨v, TypeDef.readFrom_of_ofValue read⟩) made
      (List.forall_mem_nil _)
  obtain ⟨read, each, same⟩ := readTypes_eq_ok made
  have each := each.imp fun v t => TypeDef.readFrom_of_ofValue
  refine ⟨fields, read, opened, ⟨roots, fun o name root => ?_, fun name => ?_,
    fun type t found => field_of_typeNamed found, fun type missing name => ?_, fun t ht => ?_,
    fun t ht => ?_⟩, here ▸ each⟩
  · have check := checked o
    rw [root] at check
    obtain ⟨t, found, kind⟩ := checkRoot_eq_ok check
    obtain ⟨name', _, given, _⟩ := roots o
    exact ⟨t, typeNamed_of_given (given.symm.trans root) found, kind⟩
  · refine ⟨s.type? (.str name), rfl, fun t found => ?_, here ▸ readLast_type? each same name⟩
    have called := List.find?_some found
    exact ⟨mem_of_type? found, Value.equals_str called⟩
  · have missing : s.lookup (.str type) = .ok none := missing
    rw [field, missing]
    · rfl
    · nofun
  · obtain ⟨v, read⟩ := readFrom t ht
    exact read.leaf
  · obtain ⟨v, read⟩ := readFrom t ht
    exact read.agrees

/-- An answer that a schema is an index over breaks no rule. -/
theorem Indexes.not_breaks {s : Schema} {fields : Fields} {read : List TypeDef}
    (h : s.Indexes fields)
    (each : List.Forall₂ (fun v t => t.ReadFrom v) (describedTypes fields) read) :
    ¬ Breaks fields := by
  intro breaks
  cases breaks with
  | @argument v w listed selectable field repeated =>
    obtain ⟨t, _, read⟩ := exists_of_forall₂ each listed
    rw [Value.isSelectableType, read.kind, Option.any_some] at selectable
    obtain ⟨f, _, read⟩ := exists_of_forall₂ (read.fields selectable) field
    exact repeated read.nodup_names
  | query unnamed =>
    obtain ⟨name, named, _, truthy⟩ := h.roots .query
    rw [unnamed name named] at truthy
    cases truthy rfl
  | @root o name named absent =>
    obtain ⟨name', named', given, _⟩ := h.roots o
    cases Except.ok.inj (named.symm.trans named')
    obtain ⟨t, found, kind⟩ := h.objects o (.str name) given
    obtain ⟨o', found', _, last⟩ := h.types name
    cases Except.ok.inj (found.symm.trans found')
    obtain ⟨v, last, read⟩ := last
    exact absent v last (by rw [read.kind, kind])

/-- A schema that is read from an introspection answer is an index over it. An answer that lists an
argument twice or names a root type that it does not list as an object type is reported with the
schema, unless it is not shaped and a use of one of its parts fails. -/
theorem indexes_of_ofIntrospection (v : Value) :
    (∀ s, ofIntrospection v = .ok s → ∃ fields, payload v = .ok fields ∧ s.Indexes fields) ∧
    ∀ fields, payload v = .ok fields → Breaks fields →
      (∃ fault, ofIntrospection v = .error (.schema fault)) ∨
      v.isShaped = false ∧ (ofIntrospection v = .error (.shape .wrongKind) ∨
        ofIntrospection v = .error (.shape .noMember)) := by
  refine ⟨fun s h => ?_, fun fields opened breaks => ?_⟩
  · obtain ⟨fields, _, opened, indexes, _⟩ := exists_indexes h
    exact ⟨fields, opened, indexes⟩
  · refine (ofIntrospection_outcome v).resolve_left ?_
    rintro ⟨⟨s, h⟩, _⟩
    obtain ⟨fields', read, opened', indexes, each⟩ := exists_indexes h
    cases Except.ok.inj (opened.symm.trans opened')
    exact indexes.not_breaks each breaks

end Schema

namespace Sample

/-- The entries of an answer that lists the limit of the users twice. -/
def twiceLimited : Fields :=
  [("queryType", .obj [("name", .str "Query")]), ("types", .arr [object "Query" [
    member "users" (plain "SCALAR" "Int")
      [member "limit" (plain "SCALAR" "Int") [], member "limit" (plain "SCALAR" "String") []]]])]

/-- The entries of an answer that names a root type for changes, but lists null in its place. -/
def unlistedMutation : Fields :=
  [("queryType", .obj [("name", .str "Query")]),
    ("mutationType", .obj [("name", .str "Mutation")]),
    ("types", .arr [object "Query" [member "users" (plain "SCALAR" "Int") []], .null])]

end Sample

namespace Schema

/-- A schema with users and posts is an index, and an argument that is listed twice is reported. -/
theorem indexes_of_ofIntrospection_answer :
    (∃ fields, payload Sample.answer = .ok fields ∧ Sample.schema.Indexes fields) ∧
    payload (.obj Sample.twiceLimited) = .ok Sample.twiceLimited ∧ Breaks Sample.twiceLimited ∧
      ∃ fault, ofIntrospection (.obj Sample.twiceLimited) = .error (.schema fault) := by
  have opened : payload (.obj Sample.twiceLimited) = .ok Sample.twiceLimited := by rfl
  have breaks : Breaks Sample.twiceLimited := .argument (.head _) rfl (.head _) (by decide)
  refine ⟨(indexes_of_ofIntrospection Sample.answer).1 _ Sample.ofIntrospection_answer, opened,
    breaks, ?_⟩
  refine ((indexes_of_ofIntrospection _).2 _ opened breaks).resolve_right ?_
  rintro ⟨misshapen, _⟩
  have shaped : (Value.obj Sample.twiceLimited).isShaped = true := by decide
  rw [shaped] at misshapen
  cases misshapen

/-- All names in the answer are names, and its root type for changes is not listed. But what is
reported is a failed use of the null that stands among the types. -/
theorem escapes_unlistedMutation :
    (Value.obj Sample.unlistedMutation).namesPass Value.isName = true ∧
      payload (.obj Sample.unlistedMutation) = .ok Sample.unlistedMutation ∧
      Breaks Sample.unlistedMutation ∧
      ofIntrospection (.obj Sample.unlistedMutation) = .error (.shape .wrongKind) ∧
      ¬ ∃ fault, ofIntrospection (.obj Sample.unlistedMutation) = .error (.schema fault) := by
  have failed : ofIntrospection (.obj Sample.unlistedMutation) = .error (.shape .wrongKind) := by
    rfl
  refine ⟨by decide, by rfl, @Breaks.root _ .mutation "Mutation" rfl fun v last _ => ?_, failed,
    ?_⟩
  · rcases List.mem_cons.1 last.mem with rfl | listed
    · exact absurd last.named (by decide)
    · rw [List.mem_singleton.1 listed] at last
      exact absurd last.named (by decide)
  · rw [failed]
    nofun

end Schema

end GraphRequest

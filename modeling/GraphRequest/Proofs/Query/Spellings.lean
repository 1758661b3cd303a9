import Mathlib.Data.List.Nodup
import GraphRequest.Keyed
import GraphRequest.Request.Basic

/-!
# Spellings of requests

The keys of a request may stand in any order, and some fields have several spellings. A request is
read key by key: reading stops as soon as a field is given twice, and puts off the keys that stand
for no field. What comes out does not depend on the order of the keys or on how they are spelled.

* `Request.denoted`, `Request.unknownKeys`: the fields that keys stand for, and the other keys.
* `Request.gather_of_nodup`, `Request.gather_of_repeated`: what going through the keys comes to.
* `Request.WellKeyed`: there is one key for every field that is needed, and none that is not known.
* `Request.Miskeyed`: the ways in which an object is not.
* `Request.ofFields_of_any_keys`: order and spelling do not matter, and mistakes are always
  reported.
-/

namespace GraphRequest

namespace Request

/-! ### Fields of keys -/

/-- The keys that stand for one field, for every field with several of them. -/
def spellings : List (List String) :=
  [["table", "collection"], ["_set", "set_values"],
    ["var_counter", "varCounter", "incoming_var_counter"]]

/-- Whether a key stands for a field. -/
def isKnown (key : String) : Bool := fieldNames.contains (fieldOf key)

/-- The spellings of a field stand for the same one. -/
theorem fieldOf_of_spellings : ∀ group ∈ spellings, ∀ key ∈ group, ∀ key' ∈ group,
    fieldOf key = fieldOf key' ∧ isKnown key = true := by
  decide +kernel

/-- A key that does not stand for itself is a spelling of the field it stands for. -/
theorem fieldOf_cases (key : String) :
    fieldOf key = key ∨ ∃ group ∈ spellings, key ∈ group ∧ fieldOf key ∈ group := by
  unfold fieldOf
  split
  · rename_i table
    rw [eq_of_beq table]
    exact .inr ⟨_, .head _, by decide, by decide⟩
  · split
    · rename_i set
      rw [eq_of_beq set]
      exact .inr ⟨_, .tail _ (.head _), by decide, by decide⟩
    · split
      · rename_i counter
        rw [Bool.or_eq_true, beq_iff_eq, beq_iff_eq] at counter
        refine .inr ⟨_, .tail _ (.tail _ (.head _)), ?_, by decide⟩
        obtain rfl | rfl := counter <;> decide
      · exact .inl rfl

/-- Different groups have different keys. -/
theorem group_unique : ∀ group ∈ spellings, ∀ group' ∈ spellings, ∀ key ∈ group, key ∈ group' →
    group = group' := by
  decide +kernel

/-- Keys that stand for one field are equal, unless they are spellings of it. -/
theorem spelled_of_fieldOf {key key' : String} (h : fieldOf key = fieldOf key')
    (different : key ≠ key') : ∃ group ∈ spellings, key ∈ group ∧ key' ∈ group := by
  obtain self | ⟨group, spelled, mem, field⟩ := fieldOf_cases key
  · obtain self' | ⟨group, spelled, mem, field⟩ := fieldOf_cases key'
    · exact absurd (self.symm.trans (h.trans self')) different
    · rw [← h, self] at field
      exact ⟨group, spelled, field, mem⟩
  · obtain self' | ⟨group', spelled', mem', field'⟩ := fieldOf_cases key'
    · rw [h, self'] at field
      exact ⟨group, spelled, mem, field⟩
    · rw [← h] at field'
      obtain rfl := group_unique _ spelled _ spelled' _ field field'
      exact ⟨group, spelled, mem, mem'⟩

/-- A key that stands for a field is its name or a spelling of it. -/
theorem isKnown_iff {key : String} :
    isKnown key = true ↔ key ∈ fieldNames ∨ key ∈ spellings.flatten := by
  constructor
  · intro known
    obtain self | ⟨group, spelled, mem, _⟩ := fieldOf_cases key
    · rw [isKnown, self, List.contains_iff_mem] at known
      exact .inl known
    · exact .inr (List.mem_flatten.2 ⟨group, spelled, mem⟩)
  · rintro (name | spelled)
    · revert key
      decide +kernel
    · obtain ⟨group, spelled, mem⟩ := List.mem_flatten.1 spelled
      exact (fieldOf_of_spellings group spelled key mem key mem).2

/-! ### Gathering -/

/-- The fields that the entries of an object stand for, with their values. -/
def denoted (fields : Fields) : Fields :=
  (fields.filter fun p => isKnown p.1).map fun p => (fieldOf p.1, p.2)

/-- The keys that stand for no field. -/
def unknownKeys (fields : Fields) : List String := (Keyed.keys fields).filter (!isKnown ·)

theorem keys_denoted (fields : Fields) :
    Keyed.keys (denoted fields) = ((Keyed.keys fields).filter isKnown).map fieldOf := by
  simp only [Keyed.keys, denoted, List.map_map, List.filter_map, Function.comp_def]

theorem isSome_lookup {fields : Fields} {field : String} :
    (fields.lookup field).isSome = true ↔ field ∈ Keyed.keys fields := by
  rw [List.lookup_isSome_iff, Keyed.keys, List.mem_map]
  constructor
  · rintro ⟨p, given, same⟩
    exact ⟨p, given, (eq_of_beq same).symm⟩
  · rintro ⟨p, given, rfl⟩
    exact ⟨p, given, beq_self_eq_true _⟩

theorem denoted_cons (key : String) (v : Value) (rest : Fields) :
    denoted ((key, v) :: rest) =
      if isKnown key then (fieldOf key, v) :: denoted rest else denoted rest := by
  unfold denoted
  rw [List.filter_cons]
  split <;> rfl

theorem unknownKeys_cons (key : String) (v : Value) (rest : Fields) :
    unknownKeys ((key, v) :: rest) =
      if isKnown key then unknownKeys rest else key :: unknownKeys rest := by
  unfold unknownKeys
  rw [Keyed.keys_cons, List.filter_cons]
  cases isKnown key <;> rfl

theorem nodup_keys_snoc {known : Fields} {field : String} {v : Value} :
    (Keyed.keys (known ++ [(field, v)])).Nodup ↔
      (Keyed.keys known).Nodup ∧ field ∉ Keyed.keys known := by
  have last : Keyed.keys (known ++ [(field, v)]) = (Keyed.keys known).concat field := by
    rw [Keyed.keys, List.map_append, List.concat_eq_append]
    rfl
  rw [last, List.nodup_concat]
  exact and_comm

/-- Without a field that is given twice, every entry is gathered as one of the field it stands
for. -/
theorem gather_of_nodup {known fields : Fields} {unknown : List String}
    (distinct : (Keyed.keys (known ++ denoted fields)).Nodup) :
    gather known unknown fields =
      .ok (known ++ denoted fields, unknown ++ unknownKeys fields) := by
  induction fields generalizing known unknown with
  | nil => simp [gather, denoted, unknownKeys, Keyed.keys]
  | cons entry rest ih =>
    obtain ⟨key, v⟩ := entry
    rw [denoted_cons] at distinct ⊢
    rw [unknownKeys_cons]
    dsimp only [gather]
    rw [← isKnown]
    cases stands : isKnown key with
    | false =>
      rw [stands, if_neg (by decide)] at distinct
      rw [Bool.not_false, if_pos rfl, ih distinct, List.append_assoc]
      rfl
    | true =>
      rw [stands, if_pos rfl, List.append_cons] at distinct
      have new : (known.lookup (fieldOf key)).isSome = false := by
        rw [← Bool.not_eq_true, isSome_lookup]
        rw [Keyed.keys, List.map_append] at distinct
        exact (nodup_keys_snoc.1 distinct.of_append_left).2
      rw [Bool.not_true, if_neg (by decide), new, if_neg (by decide), ih distinct]
      simp

/-- A field that is given twice ends the gathering. -/
theorem gather_of_repeated {known fields : Fields} {unknown : List String}
    (repeated : ¬ (Keyed.keys (known ++ denoted fields)).Nodup)
    (distinct : (Keyed.keys known).Nodup) :
    ∃ field, gather known unknown fields = .error (.repeatedKey field) := by
  induction fields generalizing known unknown with
  | nil =>
    rw [denoted, List.filter_nil, List.map_nil, List.append_nil] at repeated
    exact absurd distinct repeated
  | cons entry rest ih =>
    obtain ⟨key, v⟩ := entry
    rw [denoted_cons] at repeated
    dsimp only [gather]
    rw [← isKnown]
    cases stands : isKnown key with
    | false =>
      rw [stands, if_neg (by decide)] at repeated
      rw [Bool.not_false, if_pos rfl]
      exact ih repeated distinct
    | true =>
      rw [stands, if_pos rfl, List.append_cons] at repeated
      rw [Bool.not_true, if_neg (by decide)]
      cases new : (known.lookup (fieldOf key)).isSome with
      | true => exact ⟨_, rfl⟩
      | false =>
        rw [← Bool.not_eq_true, isSome_lookup] at new
        exact ih repeated (nodup_keys_snoc.2 ⟨distinct, new⟩)

/-! ### Reading -/

/-- The fields that a request needs are given, none is given twice, and there are no other keys. -/
structure WellKeyed (fields : Fields) : Prop where
  distinct : (Keyed.keys (denoted fields)).Nodup
  known : unknownKeys fields = []
  operation : "operation" ∈ Keyed.keys (denoted fields)
  collection : "collection" ∈ Keyed.keys (denoted fields)

variable {fields fields' : Fields}

/-- Entries without a field that is given twice are read by the fields they stand for. -/
theorem ofFields_of_distinct (distinct : (Keyed.keys (denoted fields)).Nodup) :
    ofFields fields =
      if !(unknownKeys fields).isEmpty then
        .error (.request (.unknownKeys ((unknownKeys fields).mergeSort fun a b => a ≤ b)))
      else if ((denoted fields).lookup "operation").isNone ||
          ((denoted fields).lookup "collection").isNone then
        .error (.request .missingEssentials)
      else ofKnown (denoted fields) := by
  have gathered : gather [] [] fields = .ok (denoted fields, unknownKeys fields) :=
    gather_of_nodup distinct
  rw [ofFields, gathered]
  rfl

/-- Entries whose keys go together are read by the fields they stand for. -/
theorem ofFields_of_wellKeyed (h : WellKeyed fields) :
    ofFields fields = ofKnown (denoted fields) := by
  have operation := isSome_lookup.2 h.operation
  have collection := isSome_lookup.2 h.collection
  rw [ofFields_of_distinct h.distinct, h.known, ← Option.not_isSome, ← Option.not_isSome,
    operation, collection]
  rfl

/-- Entries whose keys do not go together are refused. -/
theorem refused_of_not_wellKeyed (h : ¬ WellKeyed fields) :
    ∃ fault, ofFields fields = .error (.request fault) := by
  by_cases distinct : (Keyed.keys (denoted fields)).Nodup
  · rw [ofFields_of_distinct distinct]
    split
    · exact ⟨_, rfl⟩
    · rename_i known
      split
      · exact ⟨_, rfl⟩
      · rename_i essential
        rw [← Option.not_isSome, ← Option.not_isSome, ← Bool.not_and, Bool.not_eq_true,
          Bool.not_eq_false', Bool.and_eq_true, isSome_lookup, isSome_lookup] at essential
        rw [Bool.not_eq_true, Bool.not_eq_false', List.isEmpty_iff] at known
        exact absurd ⟨distinct, known, essential.1, essential.2⟩ h
  · have gathered : ∃ field, gather [] [] fields = .error (.repeatedKey field) :=
      gather_of_repeated distinct .nil
    obtain ⟨field, repeated⟩ := gathered
    rw [ofFields, repeated]
    exact ⟨_, rfl⟩

/-! ### Order -/

theorem denoted_perm (h : fields'.Perm fields) : (denoted fields').Perm (denoted fields) :=
  (h.filter _).map _

theorem WellKeyed.perm (perm : fields'.Perm fields) (h : WellKeyed fields) :
    WellKeyed fields' where
  distinct := ((denoted_perm perm).map _).nodup_iff.2 h.distinct
  known := (h.known ▸ (perm.map _).filter _ : (unknownKeys fields').Perm []).eq_nil
  operation := ((denoted_perm perm).map _).mem_iff.2 h.operation
  collection := ((denoted_perm perm).map _).mem_iff.2 h.collection

/-- Fields are looked up in the same way in whatever order they stand. -/
theorem lookup_perm (perm : fields'.Perm fields) (distinct : (Keyed.keys fields).Nodup)
    (field : String) : fields'.lookup field = fields.lookup field := by
  have distinct' : (Keyed.keys fields').Nodup := (perm.map _).nodup_iff.2 distinct
  refine Option.ext fun v => ?_
  rw [Keyed.lookup_eq_some distinct', Keyed.lookup_eq_some distinct]
  exact perm.mem_iff

/-- A request is read from what its fields are looked up to. -/
theorem ofKnown_congr (same : ∀ field, fields'.lookup field = fields.lookup field) :
    ofKnown fields' = ofKnown fields := by
  simp only [ofKnown, same]

/-- The entries of an object may stand in any order: it is read as the same request, or refused. -/
theorem ofFields_perm (perm : fields'.Perm fields) :
    ofFields fields' = ofFields fields ∨
      (∃ fault, ofFields fields' = .error (.request fault)) ∧
        ∃ fault, ofFields fields = .error (.request fault) := by
  by_cases h : WellKeyed fields
  · rw [ofFields_of_wellKeyed h, ofFields_of_wellKeyed (h.perm perm)]
    exact .inl (ofKnown_congr (lookup_perm (denoted_perm perm) h.distinct))
  · have h' : ¬ WellKeyed fields' := fun h' => h (h'.perm perm.symm)
    exact .inr ⟨refused_of_not_wellKeyed h', refused_of_not_wellKeyed h⟩

/-! ### Spelling -/

/-- A key may be replaced by another one that stands for the same field. -/
theorem gather_respelled {key key' : String} (same : fieldOf key = fieldOf key')
    (stands : isKnown key = true) (before : Fields) (v : Value) (after known : Fields)
    (unknown : List String) :
    gather known unknown (before ++ (key', v) :: after) =
      gather known unknown (before ++ (key, v) :: after) := by
  induction before generalizing known unknown with
  | nil =>
    rw [isKnown] at stands
    simp only [List.nil_append, gather, ← same, stands]
    rfl
  | cons entry before ih =>
    simp only [List.cons_append, gather, ih]

/-! ### Mistakes -/

theorem mem_keys_denoted {field : String} : field ∈ Keyed.keys (denoted fields) ↔
    ∃ key ∈ Keyed.keys fields, isKnown key = true ∧ fieldOf key = field := by
  rw [keys_denoted, List.mem_map]
  simp only [List.mem_filter, and_assoc]

/-- The mistakes in the keys of an object: a key that is no spelling of a field, two spellings of
one field, and no key for a field that is needed. -/
inductive Miskeyed (fields : Fields) : Prop
  | unknown {key : String} (given : key ∈ Keyed.keys fields) (unnamed : key ∉ fieldNames)
      (unspelled : key ∉ spellings.flatten) : Miskeyed fields
  | repeated {group : List String} {key key' : String} (spelled : group ∈ spellings)
      (mem : key ∈ group) (mem' : key' ∈ group) (different : key ≠ key')
      (given : key ∈ Keyed.keys fields) (given' : key' ∈ Keyed.keys fields) : Miskeyed fields
  | noOperation (absent : "operation" ∉ Keyed.keys fields) : Miskeyed fields
  | noCollection (absent : ∀ key ∈ ["table", "collection"], key ∉ Keyed.keys fields) :
      Miskeyed fields

theorem not_wellKeyed_of_miskeyed (mistake : Miskeyed fields) : ¬ WellKeyed fields := by
  intro h
  cases mistake with
  | @unknown key given unnamed unspelled =>
    have unknown : isKnown key = false := by
      rw [← Bool.not_eq_true, isKnown_iff, not_or]
      exact ⟨unnamed, unspelled⟩
    have mem : key ∈ unknownKeys fields :=
      List.mem_filter.2 ⟨given, by rw [unknown, Bool.not_false]⟩
    rw [h.known] at mem
    cases mem
  | repeated spelled mem mem' different given given' =>
    obtain ⟨same, stands⟩ := fieldOf_of_spellings _ spelled _ mem _ mem'
    have stands' := (fieldOf_of_spellings _ spelled _ mem' _ mem).2
    have distinct := h.distinct
    rw [keys_denoted] at distinct
    exact different (List.inj_on_of_nodup_map distinct (List.mem_filter.2 ⟨given, stands⟩)
      (List.mem_filter.2 ⟨given', stands'⟩) same)
  | noOperation absent =>
    obtain ⟨key, given, _, field⟩ := mem_keys_denoted.1 h.operation
    have same : key = "operation" := by
      have alone : ∀ group ∈ spellings, "operation" ∉ group := by decide +kernel
      have self : fieldOf key = fieldOf "operation" := field
      by_contra different
      obtain ⟨group, spelled, _, mem⟩ := spelled_of_fieldOf self different
      exact alone group spelled mem
    exact absent (same ▸ given)
  | noCollection absent =>
    obtain ⟨key, given, _, field⟩ := mem_keys_denoted.1 h.collection
    have spelled : key ∈ ["table", "collection"] := by
      have alone : ∀ group ∈ spellings, "collection" ∈ group → group = ["table", "collection"] := by
        decide +kernel
      have self : fieldOf key = fieldOf "collection" := field
      by_cases different : key = "collection"
      · rw [different]
        exact .tail _ (.head _)
      · obtain ⟨group, spelled, mem, mem'⟩ := spelled_of_fieldOf self different
        rw [← alone group spelled mem']
        exact mem
    exact absent key spelled given

/-- A request does not depend on the order of its keys or on how they are spelled. Entries in
another order are read as the same request, or refused just as these are; another spelling of a key
changes nothing; and whatever else is given, a mistake in the keys is reported. -/
theorem ofFields_of_any_keys :
    (∀ fields fields' : Fields, fields'.Perm fields →
      ofFields fields' = ofFields fields ∨
        (∃ fault, ofFields fields' = .error (.request fault)) ∧
          ∃ fault, ofFields fields = .error (.request fault)) ∧
    (∀ group ∈ spellings, ∀ key ∈ group, ∀ key' ∈ group, ∀ before v after,
      ofFields (before ++ (key', v) :: after) = ofFields (before ++ (key, v) :: after)) ∧
    ∀ fields : Fields, Miskeyed fields → ∃ fault, ofFields fields = .error (.request fault) := by
  refine ⟨fun fields fields' => ofFields_perm, ?_, ?_⟩
  · intro group spelled key mem key' mem' before v after
    obtain ⟨same, stands⟩ := fieldOf_of_spellings group spelled key mem key' mem'
    rw [ofFields, gather_respelled same stands]
    rfl
  · exact fun fields mistake => refused_of_not_wellKeyed (not_wellKeyed_of_miskeyed mistake)

/-- A query of users in another order and in another spelling, and one with two collections. -/
theorem ofFields_of_any_keys_users :
    ofFields [("collection", .str "users"), ("operation", .str "query")] =
        ofFields [("operation", .str "query"), ("collection", .str "users")] ∧
      ofFields [("operation", .str "query"), ("table", .str "users")] =
        ofFields [("operation", .str "query"), ("collection", .str "users")] ∧
      ∃ fault, ofFields [("table", .str "users"), ("operation", .str "query"),
        ("collection", .str "users"), ("returning", .int 5)] = .error (.request fault) := by
  obtain ⟨order, spelling, mistake⟩ := ofFields_of_any_keys
  refine ⟨?_, ?_, ?_⟩
  · obtain same | ⟨_, fault, refused⟩ := order _ _ (List.Perm.swap
      ("operation", .str "query") ("collection", .str "users") [])
    · exact same
    · cases refused
  · exact spelling _ (.head _) "collection" (.tail _ (.head _)) "table" (.head _)
      [("operation", .str "query")] (.str "users") []
  · exact mistake _ (.repeated (.head _) (.head _) (.tail _ (.head _)) (by decide) (.head _)
      (.tail _ (.tail _ (.head _))))

end Request

end GraphRequest

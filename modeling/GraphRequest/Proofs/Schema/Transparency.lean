import GraphRequest.Proofs.Schema.History
import GraphRequest.Proofs.Schema.Reordered
import GraphRequest.Proofs.Value.Written

/-!
# A cache that nobody notices

Nobody can tell from the schemas that a cache hands out whether they were built for the payload: a
payload is refused if it is refused without a cache, and else its schema is handed out. What can be
told is that a schema is the very one that was handed out before. It is, as long as the cache was
not cleared and fewer other payloads than the capacity were fetched with success since then.
Payloads that differ in the order of keys only are the same here.

* `fingerprint_eq_iff`: without collisions, fingerprints tell payloads apart.
* `Faithful`: a fetch answers as if there were no cache.
* `Transparent`: what can be told of a cache from the answers to some calls.
* `transparent_of_collisionless`: this holds of all calls whose payloads do not collide.
-/

namespace GraphRequest

/-! ### Payloads up to the order of keys -/

theorem Value.hasDistinctKeys_of_isJson {v : Value} (json : v.isJson = true) :
    v.hasDistinctKeys = true := by
  induction v using inductParts with
  | arr items ih =>
    exact hasDistinctKeys_arr.2 fun v hv => ih v hv (isJson_arr.1 json v hv)
  | obj fields ih =>
    obtain ⟨keys, inside⟩ := isJson_obj.1 json
    exact hasDistinctKeys_obj.2 ⟨keys, fun f hf => ih f hf (inside f hf)⟩
  | columns names distinct => cases json
  | _ => rfl

/-- Payloads that are the same up to the order of keys describe the same schema, or both none. -/
theorem Schema.agree_of_arranged_eq {p q : Value} (hp : p.isJson = true) (hq : q.isJson = true)
    (same : p.arranged = q.arranged) : Agree (fun s t => s.arranged = t.arranged)
      (Schema.ofIntrospection p) (Schema.ofIntrospection q) := by
  have forP := Schema.agree_ofIntrospection (Value.hasDistinctKeys_of_isJson hp)
  have forQ := Schema.agree_ofIntrospection (Value.hasDistinctKeys_of_isJson hq)
  rw [same] at forP
  generalize Schema.ofIntrospection q.arranged = common at forP forQ
  generalize Schema.ofIntrospection p = s at forP ⊢
  generalize Schema.ofIntrospection q = t at forQ ⊢
  cases forP with
  | ok related =>
    cases forQ with
    | ok related' => exact .ok (related.symm.trans related')
  | error f g =>
    cases forQ with
    | error f' g' => exact .error f f'

namespace SchemaCache

theorem fingerprint_of_canonical {p q : Value} (same : p.canonical = q.canonical) :
    p.fingerprint = q.fingerprint := by
  rw [Value.fingerprint, same, Value.fingerprint]

/-- Without collisions, fingerprints tell payloads apart up to the order of keys. -/
theorem fingerprint_eq_iff {seen : List Value} (json : ∀ p ∈ seen, p.isJson = true)
    (apart : Collisionless seen) {p q : Value} (hp : p ∈ seen) (hq : q ∈ seen) :
    p.fingerprint = q.fingerprint ↔ p.arranged = q.arranged := by
  rw [← Value.canonical_eq_iff (json p hp) (json q hq)]
  exact ⟨apart p hp q hq, fingerprint_of_canonical⟩

/-! ### One fetch -/

/-- A fetch answers as if there were no cache. Two schemas are the same if they are when arranged:
all that may differ is the order of keys in an object that stands in place of a name. -/
structure Faithful (c : SchemaCache) (p : Value) : Prop where
  answers : ∀ e, (c.fetch p).1 = .ok e →
    ∃ s, Schema.ofIntrospection p = .ok s ∧ e.schema.arranged = s.arranged
  refuses : ∀ f, (c.fetch p).1 = .error f ↔ Schema.ofIntrospection p = .error f
  unchanged : ∀ f, (c.fetch p).1 = .error f → (c.fetch p).2 = c

/-- A fetch is faithful if what the cache holds was made from payloads that do not collide with the
one fetched. -/
theorem Kept.faithful {c : SchemaCache} {keys : List String} {seen all : List Value}
    (h : Kept c keys seen) (json : ∀ p ∈ all, p.isJson = true) (apart : Collisionless all)
    (known : ∀ p ∈ seen, p ∈ all) {p : Value} (hp : p ∈ all) : Faithful c p := by
  have answers (e : CachedSchema) (answer : (c.fetch p).1 = .ok e) :
      ∃ s, Schema.ofIntrospection p = .ok s ∧ e.schema.arranged = s.arranged := by
    rcases there_or_built answer with ⟨there, key⟩ | ⟨_, _, read⟩
    · obtain ⟨q, hq, key', read⟩ := h.made e there
      have same : q.arranged = p.arranged :=
        (fingerprint_eq_iff json apart (known q hq) hp).1 (key'.trans key)
      have agree := Schema.agree_of_arranged_eq (json q (known q hq)) (json p hp) same
      rw [read] at agree
      generalize Schema.ofIntrospection p = result at agree
      cases agree with
      | ok related => exact ⟨_, rfl, related⟩
    · exact ⟨e.schema, read, rfl⟩
  refine ⟨answers, fun f => ?_, fun f => fetch_error⟩
  have way := fetches c p
  constructor
  · intro failed
    rw [failed] at way
    generalize (c.fetch p).2 = c' at way
    cases way with
    | refusal absent refused => exact refused
  · intro refused
    cases answer : (c.fetch p).1 with
    | ok e =>
      obtain ⟨s, read, _⟩ := answers e answer
      rw [refused] at read
      cases read
    | error f' =>
      rw [answer] at way
      generalize (c.fetch p).2 = c' at way
      cases way with
      | refusal absent refused' => rw [Except.error.inj (refused'.symm.trans refused)]

/-! ### Two fetches -/

/-- Whether a schema outlasts some calls: the cache is not cleared, and fewer other payloads than
the capacity are fetched with success. Payloads that differ in the order of keys only count once. -/
def Outlasts (c : SchemaCache) (calls : List Call) : Prop :=
  .clear ∉ calls ∧ ((c.answered calls).map (·.1.arranged)).dedup.length < capacity

/-- A schema that is built for a payload after some calls: none that was handed out before. -/
structure Fresh (before : List Call) (p : Value) (e : CachedSchema) : Prop where
  read : Schema.ofIntrospection p = .ok e.schema
  unseen : ∀ x ∈ empty.answered before, x.2.serial ≠ e.serial

/-- Without collisions there are as many fingerprints as payloads up to the order of keys. -/
theorem length_dedup_answeredKeys {seen : List Value} (json : ∀ p ∈ seen, p.isJson = true)
    (apart : Collisionless seen) {c : SchemaCache} {calls : List Call}
    (known : ∀ p ∈ payloads calls, p ∈ seen) : (c.answeredKeys calls).dedup.length =
      ((c.answered calls).map (·.1.arranged)).dedup.length := by
  apply length_dedup_map
  intro x hx y hy
  exact fingerprint_eq_iff json apart (known _ (mem_payloads_of_answered hx))
    (known _ (mem_payloads_of_answered hy))

/-- After other calls the fingerprint of a payload is still there just if the schema for it outlasts
them. -/
theorem Kept.mem_fingerprints_run {c : SchemaCache} {keys : List String} {seen : List Value}
    {key : String} (h : Kept c (keys ++ [key]) seen) {calls : List Call}
    (unused : key ∉ c.answeredKeys calls) :
    key ∈ (c.run calls).entries.map (·.fingerprint) ↔
      .clear ∉ calls ∧ (c.answeredKeys calls).dedup.length < capacity := by
  rw [(h.run calls).fingerprints]
  by_cases cleared : .clear ∈ calls
  · refine iff_of_false (fun there => unused ?_) fun kept => kept.1 cleared
    exact mem_answeredKeys_of_clear cleared (List.mem_dedup.1 (List.mem_of_mem_drop there))
  · rw [keysRun_of_not_clear cleared, List.append_assoc, List.singleton_append,
      mem_lastOf_dedup keys unused]
    exact (and_iff_right cleared).symm

/-! ### All calls -/

/-- What can be told of a cache from the answers to some calls: they are those of no cache, no more
schemas are held than the capacity allows, a schema is handed out again as long as it outlasts the
calls between, and it is a fresh one else and for the first time. Schemas that are equal but were
built twice are told apart by their serial numbers. -/
structure Transparent (calls : List Call) : Prop where
  faithful : ∀ before p after, calls = before ++ Call.fetch p :: after →
    Faithful (empty.run before) p
  bounded : ∀ before after, calls = before ++ after →
    (empty.run before).entries.length ≤ capacity
  first : ∀ before p after e, calls = before ++ Call.fetch p :: after →
    (∀ x ∈ empty.answered before, x.1.arranged ≠ p.arranged) →
    ((empty.run before).fetch p).1 = .ok e → Fresh before p e
  again : ∀ before p between q after c e e',
    calls = before ++ Call.fetch p :: (between ++ Call.fetch q :: after) → q.arranged = p.arranged →
    (empty.run before).fetch p = (.ok e, c) →
    (∀ x ∈ c.answered between, x.1.arranged ≠ p.arranged) →
    ((c.run between).fetch q).1 = .ok e' →
    (e' = e ↔ Outlasts c between) ∧
      (¬ Outlasts c between → Fresh (before ++ Call.fetch p :: between) q e')

theorem mem_payloads_append {before more : List Call} {p : Value} :
    p ∈ payloads (before ++ more) ↔ p ∈ payloads before ∨ p ∈ payloads more := by
  rw [payloads_append, List.mem_append]

/-- A schema is a fresh one if no schema with its fingerprint is there. -/
theorem fresh_of_absent {before : List Call} {p : Value} {e : CachedSchema}
    (answer : ((empty.run before).fetch p).1 = .ok e)
    (absent : p.fingerprint ∉ (empty.run before).entries.map (·.fingerprint)) :
    Fresh before p e := by
  rcases there_or_built answer with ⟨there, key⟩ | ⟨_, serial, read⟩
  · exact absurd (key ▸ List.mem_map_of_mem there) absent
  · refine ⟨read, fun x hx same => ?_⟩
    have earlier := serial_lt_of_answered kept_empty hx
    rw [same, serial] at earlier
    exact Nat.lt_irrefl _ earlier

/-- Fingerprints that are there are those of payloads that were fetched with success. -/
theorem mem_answeredKeys_of_there {before : List Call} {key : String}
    (there : key ∈ (empty.run before).entries.map (·.fingerprint)) :
    key ∈ empty.answeredKeys before := by
  rw [(kept_empty.run before).fingerprints] at there
  exact (mem_keysRun (List.mem_dedup.1 (List.mem_of_mem_drop there))).resolve_left
    List.not_mem_nil

section

variable {seen : List Value} (json : ∀ p ∈ seen, p.isJson = true) (apart : Collisionless seen)

include json apart

/-- The fingerprint of a payload is not used if the payload is not. -/
theorem notMem_answeredKeys {c : SchemaCache} {calls : List Call} {p : Value} (hp : p ∈ seen)
    (known : ∀ q ∈ payloads calls, q ∈ seen)
    (other : ∀ x ∈ c.answered calls, x.1.arranged ≠ p.arranged) :
    p.fingerprint ∉ c.answeredKeys calls := by
  intro used
  obtain ⟨x, hx, key⟩ := List.mem_map.1 used
  have there := known _ (mem_payloads_of_answered hx)
  exact other x hx ((fingerprint_eq_iff json apart there hp).1 key)

/-- A schema is handed out again as long as it outlasts the calls between. -/
theorem again_iff_outlasts {before between : List Call} {p q : Value} {c : SchemaCache}
    {e e' : CachedSchema} (hp : p ∈ seen) (hq : q ∈ seen)
    (known : ∀ r ∈ payloads between, r ∈ seen) (same : q.arranged = p.arranged)
    (fetched : (empty.run before).fetch p = (.ok e, c))
    (other : ∀ x ∈ c.answered between, x.1.arranged ≠ p.arranged)
    (answer : ((c.run between).fetch q).1 = .ok e') :
    (e' = e ↔ Outlasts c between) ∧
      (¬ Outlasts c between → Fresh (before ++ .fetch p :: between) q e') := by
  have kept := (kept_empty.run before).fetch p
  have first : ((empty.run before).fetch p).1 = .ok e := congrArg Prod.fst fetched
  have serial := serial_lt_of_fetch (kept_empty.run before) first
  have only := only_of_fetch (kept_empty.run before) first
  have key := (mem_entries_of_fetch first).2
  rw [keysAfter, first] at kept
  rw [fetched] at kept serial only
  have unused := notMem_answeredKeys json apart hp known other
  have key' : q.fingerprint = p.fingerprint := (fingerprint_eq_iff json apart hq hp).2 same
  -- what decides is whether the fingerprint is still among the last ones that were used
  have there_iff : q.fingerprint ∈ (c.run between).entries.map (·.fingerprint) ↔
      Outlasts c between := by
    rw [key', Outlasts, ← length_dedup_answeredKeys json apart known]
    exact kept.mem_fingerprints_run unused
  rcases there_or_built answer with ⟨there, there'⟩ | ⟨absent, built, _⟩
  · have outlasts := there_iff.1 (there' ▸ List.mem_map_of_mem there)
    have equal : e' = e :=
      only.run (key ▸ unused) e' there (there'.trans (key'.trans key.symm))
    exact ⟨iff_of_true equal outlasts, fun gone => absurd outlasts gone⟩
  · -- the serial number of what is built now was given to no schema before
    have gone : ¬ Outlasts c between := fun outlasts => absent (there_iff.2 outlasts)
    have late : (empty.run (before ++ .fetch p :: between)) = c.run between := by
      rw [run_append]
      exact congrArg (run · between) (congrArg Prod.snd fetched)
    refine ⟨iff_of_false ?_ gone, fun _ => fresh_of_absent (late ▸ answer) (late ▸ absent)⟩
    rintro rfl
    rw [built] at serial
    exact absurd (built_le_run c between) (Nat.not_le_of_lt serial)

end

/-- A cache is transparent to all calls whose payloads are JSON data and do not collide. -/
theorem transparent_of_collisionless {calls : List Call}
    (json : ∀ p ∈ payloads calls, p.isJson = true) (apart : Collisionless (payloads calls)) :
    Transparent calls := by
  refine ⟨?_, ?_, ?_, ?_⟩
  · rintro before p after rfl
    refine (kept_empty.run before).faithful json apart ?_ ?_
    · intro q hq
      exact mem_payloads_append.2 (.inl hq)
    · exact mem_payloads_append.2 (.inr (.head _))
  · rintro before after -
    exact (kept_empty.run before).length_le
  · rintro before p after e rfl other answer
    refine fresh_of_absent answer fun there => ?_
    refine notMem_answeredKeys json apart ?_ ?_ other (mem_answeredKeys_of_there there)
    · exact mem_payloads_append.2 (.inr (.head _))
    · intro q hq
      exact mem_payloads_append.2 (.inl hq)
  · rintro before p between q after c e e' rfl same fetched other answer
    refine again_iff_outlasts json apart ?_ ?_ ?_ same fetched other answer
    · exact mem_payloads_append.2 (.inr (.head _))
    · exact mem_payloads_append.2 (.inr (.tail _ (mem_payloads_append.2 (.inr (.head _)))))
    · intro r hr
      exact mem_payloads_append.2 (.inr (.tail _ (mem_payloads_append.2 (.inl hr))))

end SchemaCache

/-- Entries in the order of their keys are sorted. -/
theorem Value.sortByKey_of_pairwise {fields : List (String × String)}
    (sorted : fields.Pairwise fun a b => a.1 ≤ b.1) : sortByKey fields = fields := by
  apply List.mergeSort_of_pairwise
  exact sorted.imp decide_eq_true

namespace Sample

/-- The entries of an answer that describes one type without fields. -/
def entries : Fields :=
  [("queryType", .obj [("name", .str "Query")]),
    ("types", .arr [.obj [("kind", .str "OBJECT"), ("name", .str "Query")]])]

/-- An answer is fetched, and then one that is refused, and the first one in another order. After
the cache is cleared it is fetched once more. -/
def fetched : List SchemaCache.Call :=
  [.fetch (.obj entries), .fetch .null, .fetch (.obj entries.reverse), .clear,
    .fetch (.obj entries)]

theorem canonical_reverse :
    (Value.obj entries.reverse).canonical = (Value.obj entries).canonical :=
  (Value.canonical_eq_iff (by decide) (by decide)).2
    (Value.arranged_of_perm (by decide) entries.reverse_perm)

theorem canonical_entries : (Value.obj entries).canonical =
    "\x7b\"queryType\":\x7b\"name\":\"Query\"\x7d,\"types\":" ++
      "[\x7b\"kind\":\"OBJECT\",\"name\":\"Query\"\x7d]\x7d" := by
  simp only [entries, Value.canonical, Value.canonicalFields, Value.canonicalItems]
  rw [Value.sortByKey_of_pairwise (by decide +kernel),
    Value.sortByKey_of_pairwise (by decide +kernel),
    Value.sortByKey_of_pairwise (by decide +kernel)]
  decide +kernel

theorem fingerprint_ne_null : (Value.obj entries).fingerprint ≠ Value.fingerprint .null := by
  rw [Value.fingerprint, canonical_entries]
  decide +kernel

end Sample

namespace SchemaCache

/-- The answers do not collide, and one of them is accepted. -/
theorem transparent_of_collisionless_cleared :
    (∀ p ∈ payloads Sample.fetched, p.isJson = true) ∧ Collisionless (payloads Sample.fetched) ∧
      (Schema.ofIntrospection (.obj Sample.entries)).toOption.isSome = true ∧
      Transparent Sample.fetched := by
  have json : ∀ p ∈ payloads Sample.fetched, p.isJson = true := by
    decide
  have texts : ∀ p ∈ payloads Sample.fetched,
      p.canonical = (Value.obj Sample.entries).canonical ∨ p = .null := by
    simp [Sample.fetched, payloads, Sample.canonical_reverse]
  have apart : Collisionless (payloads Sample.fetched) := by
    intro p hp q hq same
    rcases texts p hp with hp | rfl <;> rcases texts q hq with hq | rfl
    · exact hp.trans hq.symm
    · exact absurd ((fingerprint_of_canonical hp).symm.trans same) Sample.fingerprint_ne_null
    · exact absurd ((fingerprint_of_canonical hq).symm.trans same.symm) Sample.fingerprint_ne_null
    · rfl
  exact ⟨json, apart, by decide +kernel, transparent_of_collisionless json apart⟩

end SchemaCache

end GraphRequest

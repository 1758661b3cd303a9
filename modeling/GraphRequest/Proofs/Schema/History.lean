import GraphRequest.Proofs.Schema.Recency

/-!
# Histories of a cache

A cache of schemas is used by fetching payloads and by clearing it. Whatever the calls were, the
cache holds the schemas for the last fingerprints that were used since it was cleared, and each of
them was made from a payload with its fingerprint.

* `Fetches`: the three ways a fetch may go.
* `Kept`: what the cache is after some calls, `Kept.run` by induction over them.
* `Only.run`: a schema stays the only one of its fingerprint until another is used.
-/

namespace GraphRequest.SchemaCache

variable {c : SchemaCache} {keys : List String} {seen : List Value}

/-! ### Histories -/

/-- A call of a cache. -/
inductive Call
  | fetch (payload : Value)
  | clear

/-- The cache after a call. -/
def after (c : SchemaCache) : Call → SchemaCache
  | .fetch p => (c.fetch p).2
  | .clear => c.clear

/-- The cache after some calls. -/
def run (c : SchemaCache) (calls : List Call) : SchemaCache := calls.foldl after c

/-- The payloads that are fetched by some calls. -/
def payloads : List Call → List Value
  | [] => []
  | .fetch p :: rest => p :: payloads rest
  | .clear :: rest => payloads rest

/-- The payloads that some calls fetch with success, each with the schema handed out for it. -/
def answered (c : SchemaCache) : List Call → List (Value × CachedSchema)
  | [] => []
  | .fetch p :: rest => (c.fetch p).1.toOption.toList.map (p, ·) ++ answered (c.fetch p).2 rest
  | .clear :: rest => answered c.clear rest

/-- No two texts among those that payloads are fingerprinted by have the same digest. -/
def Collisionless (payloads : List Value) : Prop :=
  ∀ p ∈ payloads, ∀ q ∈ payloads, p.fingerprint = q.fingerprint → p.canonical = q.canonical

theorem run_append (c : SchemaCache) (calls more : List Call) :
    c.run (calls ++ more) = (c.run calls).run more := List.foldl_append

theorem payloads_append (calls more : List Call) :
    payloads (calls ++ more) = payloads calls ++ payloads more := by
  induction calls with
  | nil => rfl
  | cons call rest ih =>
    cases call with
    | fetch p => exact congrArg (p :: ·) ih
    | clear => exact ih

/-- What was handed out for a payload was handed out for one that was fetched. -/
theorem mem_payloads_of_answered {c : SchemaCache} {calls : List Call} {x : Value × CachedSchema}
    (h : x ∈ c.answered calls) : x.1 ∈ payloads calls := by
  induction calls generalizing c with
  | nil => cases h
  | cons call rest ih =>
    cases call with
    | fetch p =>
      rcases List.mem_append.1 h with h | h
      · obtain ⟨e, _, rfl⟩ := List.mem_map.1 h
        exact .head _
      · exact .tail _ (ih h)
    | clear => exact ih (c := c.clear) h

/-! ### One fetch -/

/-- The ways a fetch may go: the schema is there, the payload is refused, or a schema is built. -/
inductive Fetches (c : SchemaCache) (p : Value) : Except Failure CachedSchema → SchemaCache → Prop
  | hit {e : CachedSchema} (there : e ∈ c.entries) (key : e.fingerprint = p.fingerprint) :
      Fetches c p (.ok e)
        { c with entries := c.entries.filter (·.fingerprint != p.fingerprint) ++ [e] }
  | refusal {f : Failure} (absent : p.fingerprint ∉ c.entries.map (·.fingerprint))
      (refused : Schema.ofIntrospection p = .error f) : Fetches c p (.error f) c
  | build {s : Schema} (absent : p.fingerprint ∉ c.entries.map (·.fingerprint))
      (read : Schema.ofIntrospection p = .ok s) :
      Fetches c p (.ok ⟨p.fingerprint, c.built, s⟩)
        ⟨lastOf (c.entries ++ [⟨p.fingerprint, c.built, s⟩]), c.built + 1⟩

theorem fetches (c : SchemaCache) (p : Value) : Fetches c p (c.fetch p).1 (c.fetch p).2 := by
  unfold fetch
  dsimp only
  split
  · rename_i e found
    have key : e.fingerprint = p.fingerprint := by simpa using List.find?_some found
    exact .hit (List.mem_of_find?_eq_some found) key
  · rename_i found
    have absent : p.fingerprint ∉ c.entries.map (·.fingerprint) := by
      intro there
      obtain ⟨e, he, key⟩ := List.mem_map.1 there
      have other := List.find?_eq_none.1 found e he
      rw [key, beq_self_eq_true] at other
      exact other rfl
    split
    · rename_i f refused
      exact .refusal absent refused
    · rename_i s read
      exact .build absent read

/-- A schema that is handed out is there, or its fingerprint is not and it is built. -/
theorem there_or_built {p : Value} {e : CachedSchema} (answer : (c.fetch p).1 = .ok e) :
    (e ∈ c.entries ∧ e.fingerprint = p.fingerprint) ∨
      (p.fingerprint ∉ c.entries.map (·.fingerprint) ∧ e.serial = c.built ∧
        Schema.ofIntrospection p = .ok e.schema) := by
  have way := fetches c p
  rw [answer] at way
  generalize (c.fetch p).2 = c' at way
  cases way with
  | hit there key => exact .inl ⟨there, key⟩
  | build absent read => exact .inr ⟨absent, rfl, read⟩

/-! ### What calls keep -/

/-- The fingerprints of the payloads fetched with success since the cache was cleared, after one
more call. -/
def keysAfter (c : SchemaCache) (keys : List String) : Call → List String
  | .fetch p => keys ++ (c.fetch p).1.toOption.toList.map fun _ => p.fingerprint
  | .clear => []

/-- The fingerprints of the payloads fetched with success since the cache was cleared, after some
calls. -/
def keysRun (c : SchemaCache) (keys : List String) : List Call → List String
  | [] => keys
  | call :: rest => (c.after call).keysRun (c.keysAfter keys call) rest

/-- What calls keep: the cache holds the schemas of the last fingerprints that were used, each made
from a payload with that fingerprint. -/
structure Kept (c : SchemaCache) (keys : List String) (seen : List Value) : Prop where
  fingerprints : c.entries.map (·.fingerprint) = lastOf keys.dedup
  made : ∀ e ∈ c.entries, ∃ p ∈ seen, p.fingerprint = e.fingerprint ∧
    Schema.ofIntrospection p = .ok e.schema
  serials : ∀ e ∈ c.entries, e.serial < c.built

theorem kept_empty : Kept empty [] [] :=
  ⟨rfl, fun _ h => (List.not_mem_nil h).elim, fun _ h => (List.not_mem_nil h).elim⟩

theorem Kept.length_le (h : Kept c keys seen) : c.entries.length ≤ capacity := by
  rw [← List.length_map (f := (·.fingerprint)), h.fingerprints]
  exact length_lastOf _

theorem Kept.distinct (h : Kept c keys seen) : (c.entries.map (·.fingerprint)).Nodup := by
  rw [h.fingerprints]
  exact (List.nodup_dedup keys).sublist (List.drop_sublist _ _)

/-- The fingerprints of the entries, one of them going to the last place. -/
theorem fingerprints_promote {e : CachedSchema} {key : String} (same : e.fingerprint = key)
    (entries : List CachedSchema) :
    (entries.filter (·.fingerprint != key) ++ [e]).map (·.fingerprint) =
      (entries.map (·.fingerprint)).filter (· != key) ++ [key] := by
  rw [List.map_append, List.map_singleton, same, List.filter_map]
  rfl

/-- One more payload that is seen changes nothing. -/
theorem Kept.sees (h : Kept c keys seen) (p : Value) : Kept c keys (seen ++ [p]) := by
  refine ⟨h.fingerprints, fun e he => ?_, h.serials⟩
  obtain ⟨q, hq, same⟩ := h.made e he
  exact ⟨q, List.mem_append_left _ hq, same⟩

/-- A schema that is there becomes the most recently used one. -/
theorem Kept.promotes (h : Kept c keys seen) {key : String} {e : CachedSchema}
    (there : e ∈ c.entries) (same : e.fingerprint = key) :
    Kept { c with entries := c.entries.filter (·.fingerprint != key) ++ [e] } (keys ++ [key])
      seen := by
  have member {x : CachedSchema} (hx : x ∈ c.entries.filter (·.fingerprint != key) ++ [e]) :
      x ∈ c.entries := by
    rcases List.mem_append.1 hx with hx | hx
    · exact List.mem_of_mem_filter hx
    · exact List.mem_singleton.1 hx ▸ there
  refine ⟨?_, fun x hx => h.made x (member hx), fun x hx => h.serials x (member hx)⟩
  have there' : key ∈ lastOf keys.dedup := by
    rw [← h.fingerprints, ← same]
    exact List.mem_map_of_mem there
  rw [fingerprints_promote same, h.fingerprints, dedup_concat,
    lastOf_promote (List.nodup_dedup keys) there']

/-- A schema that is built is the most recently used one, and the least recently used one may go. -/
theorem Kept.builds (h : Kept c keys seen) {p : Value} (hp : p ∈ seen) {s : Schema}
    (absent : p.fingerprint ∉ c.entries.map (·.fingerprint))
    (read : Schema.ofIntrospection p = .ok s) :
    Kept ⟨lastOf (c.entries ++ [⟨p.fingerprint, c.built, s⟩]), c.built + 1⟩
      (keys ++ [p.fingerprint]) seen := by
  have member {x : CachedSchema} (hx : x ∈ lastOf (c.entries ++ [⟨p.fingerprint, c.built, s⟩])) :
      x ∈ c.entries ∨ x = ⟨p.fingerprint, c.built, s⟩ := by
    rcases List.mem_append.1 (List.mem_of_mem_drop hx) with hx | hx
    · exact .inl hx
    · exact .inr (List.mem_singleton.1 hx)
  refine ⟨?_, fun x hx => ?_, fun x hx => ?_⟩
  · rw [h.fingerprints] at absent
    rw [map_lastOf, List.map_append, h.fingerprints, dedup_concat, lastOf_admit absent]
    rfl
  · rcases member hx with hx | rfl
    · exact h.made x hx
    · exact ⟨p, hp, rfl, read⟩
  · rcases member hx with hx | rfl
    · exact Nat.lt_succ_of_lt (h.serials x hx)
    · exact Nat.lt_succ_self c.built

theorem Kept.fetch (h : Kept c keys seen) (p : Value) :
    Kept (c.fetch p).2 (c.keysAfter keys (.fetch p)) (seen ++ [p]) := by
  have way := fetches c p
  rw [keysAfter]
  generalize (c.fetch p).1 = answer at *
  generalize (c.fetch p).2 = c' at *
  cases way with
  | hit there key => exact (h.sees p).promotes there key
  | refusal absent refused =>
    rw [Except.toOption, Option.toList_none, List.map_nil, List.append_nil]
    exact h.sees p
  | build absent read => exact (h.sees p).builds (by simp) absent read

theorem kept_clear (c : SchemaCache) (seen : List Value) : Kept c.clear [] seen :=
  ⟨rfl, fun _ h => (List.not_mem_nil h).elim, fun _ h => (List.not_mem_nil h).elim⟩

/-- Calls keep what a cache is. -/
theorem Kept.run (h : Kept c keys seen) (calls : List Call) :
    Kept (c.run calls) (c.keysRun keys calls) (seen ++ payloads calls) := by
  induction calls generalizing c keys seen with
  | nil =>
    rw [payloads, List.append_nil]
    exact h
  | cons call rest ih =>
    cases call with
    | fetch p =>
      have kept := ih (h.fetch p)
      rw [List.append_assoc] at kept
      exact kept
    | clear => exact ih (kept_clear c seen)

/-! ### The keys of a history -/

/-- The fingerprints of the payloads that some calls fetch with success. -/
def answeredKeys (c : SchemaCache) (calls : List Call) : List String :=
  (c.answered calls).map (·.1.fingerprint)

theorem answeredKeys_fetch (c : SchemaCache) (p : Value) (rest : List Call) :
    c.answeredKeys (.fetch p :: rest) =
      ((c.fetch p).1.toOption.toList.map fun _ => p.fingerprint) ++
        (c.fetch p).2.answeredKeys rest := by
  rw [answeredKeys, answered, List.map_append, List.map_map]
  rfl

/-- Without a clearing the keys of a history are all that were used. -/
theorem keysRun_of_not_clear {calls : List Call} (kept : .clear ∉ calls) :
    c.keysRun keys calls = keys ++ c.answeredKeys calls := by
  induction calls generalizing c keys with
  | nil => exact (List.append_nil keys).symm
  | cons call rest ih =>
    cases call with
    | fetch p =>
      rw [answeredKeys_fetch, ← List.append_assoc]
      exact ih fun cleared => kept (.tail _ cleared)
    | clear => exact absurd (List.mem_cons_self) kept

/-- The keys of a history were there before, or they were used. -/
theorem mem_keysRun {calls : List Call} {k : String} (h : k ∈ c.keysRun keys calls) :
    k ∈ keys ∨ k ∈ c.answeredKeys calls := by
  induction calls generalizing c keys with
  | nil => exact .inl h
  | cons call rest ih =>
    cases call with
    | fetch p =>
      rw [answeredKeys_fetch, List.mem_append, ← or_assoc, ← List.mem_append]
      exact ih h
    | clear =>
      have h : k ∈ c.clear.keysRun [] rest := h
      exact (ih h).elim (fun h => (List.not_mem_nil h).elim) .inr

/-- After a clearing only the keys are left that were used. -/
theorem mem_answeredKeys_of_clear {calls : List Call} (cleared : .clear ∈ calls) {k : String}
    (h : k ∈ c.keysRun keys calls) : k ∈ c.answeredKeys calls := by
  induction calls generalizing c keys with
  | nil => cases cleared
  | cons call rest ih =>
    cases call with
    | fetch p =>
      rw [answeredKeys_fetch]
      refine List.mem_append_right _ (ih ?_ h)
      rcases List.mem_cons.1 cleared with same | cleared
      · cases same
      · exact cleared
    | clear =>
      have h : k ∈ c.clear.keysRun [] rest := h
      exact (mem_keysRun h).elim (fun h => (List.not_mem_nil h).elim) id

/-! ### Schemas that were handed out -/

theorem built_le_fetch (c : SchemaCache) (p : Value) : c.built ≤ (c.fetch p).2.built := by
  have way := fetches c p
  generalize (c.fetch p).1 = answer at *
  generalize (c.fetch p).2 = c' at *
  cases way with
  | hit => exact Nat.le_refl _
  | refusal => exact Nat.le_refl _
  | build => exact Nat.le_succ _

theorem built_le_run (c : SchemaCache) (calls : List Call) : c.built ≤ (c.run calls).built := by
  induction calls generalizing c with
  | nil => exact Nat.le_refl _
  | cons call rest ih =>
    cases call with
    | fetch p => exact Nat.le_trans (built_le_fetch c p) (ih (c.fetch p).2)
    | clear => exact ih c.clear

/-- A schema that is handed out is in the cache then, and it is not one that will be built. -/
theorem mem_entries_of_fetch {p : Value} {e : CachedSchema} (answer : (c.fetch p).1 = .ok e) :
    e ∈ (c.fetch p).2.entries ∧ e.fingerprint = p.fingerprint := by
  have way := fetches c p
  rw [answer] at way
  generalize (c.fetch p).2 = c' at *
  cases way with
  | hit there key => exact ⟨by simp, key⟩
  | build absent read =>
    have few : ([] : List CachedSchema).length < capacity := by decide
    exact ⟨mem_lastOf_of_length_lt few, rfl⟩

theorem serial_lt_of_fetch (h : Kept c keys seen) {p : Value} {e : CachedSchema}
    (answer : (c.fetch p).1 = .ok e) : e.serial < (c.fetch p).2.built :=
  (h.fetch p).serials e (mem_entries_of_fetch answer).1

/-- All schemas that are handed out were built. -/
theorem serial_lt_of_answered (h : Kept c keys seen) {calls : List Call}
    {x : Value × CachedSchema} (hx : x ∈ c.answered calls) : x.2.serial < (c.run calls).built := by
  induction calls generalizing c keys seen with
  | nil => cases hx
  | cons call rest ih =>
    cases call with
    | fetch p =>
      rcases List.mem_append.1 hx with hx | hx
      · obtain ⟨e, he, rfl⟩ := List.mem_map.1 hx
        have answer : (c.fetch p).1 = .ok e := by
          cases answer : (c.fetch p).1 with
          | error f =>
            rw [answer] at he
            cases he
          | ok e' =>
            rw [answer] at he
            rw [List.mem_singleton.1 he]
        exact Nat.lt_of_lt_of_le (serial_lt_of_fetch h answer) (built_le_run _ rest)
      · exact ih (h.fetch p) hx
    | clear => exact ih (kept_clear c seen) hx

/-- A schema is the only one of its fingerprint in a cache. -/
def Only (c : SchemaCache) (e : CachedSchema) : Prop :=
  ∀ x ∈ c.entries, x.fingerprint = e.fingerprint → x = e

/-- A schema that is handed out is the only one of its fingerprint. -/
theorem only_of_fetch (h : Kept c keys seen) {p : Value} {e : CachedSchema}
    (answer : (c.fetch p).1 = .ok e) : (c.fetch p).2.Only e := fun _ hx same =>
  List.inj_on_of_nodup_map (h.fetch p).distinct hx (mem_entries_of_fetch answer).1 same

/-- It stays the only one as long as no other payload of its fingerprint is fetched. -/
theorem Only.run {e : CachedSchema} (only : c.Only e) {calls : List Call}
    (unused : e.fingerprint ∉ c.answeredKeys calls) : (c.run calls).Only e := by
  induction calls generalizing c with
  | nil => exact only
  | cons call rest ih =>
    cases call with
    | fetch p =>
      rw [answeredKeys_fetch, List.mem_append, not_or] at unused
      refine ih (c := (c.fetch p).2) ?_ unused.2
      have way := fetches c p
      have other := unused.1
      generalize (c.fetch p).1 = answer at *
      generalize (c.fetch p).2 = c' at *
      intro x hx same
      cases way with
      | hit there key =>
        rcases List.mem_append.1 hx with hx | hx
        · exact only x (List.mem_of_mem_filter hx) same
        · rw [List.mem_singleton.1 hx] at same ⊢
          exact only _ there same
      | refusal => exact only x hx same
      | build absent read =>
        rcases List.mem_append.1 (List.mem_of_mem_drop hx) with hx | hx
        · exact only x hx same
        · -- what is built has the fingerprint of the payload, which is another one
          rw [List.mem_singleton.1 hx] at same
          exact absurd (same ▸ List.mem_singleton_self _) other
    | clear => exact ih (c := c.clear) (fun _ h => (List.not_mem_nil h).elim) unused

end GraphRequest.SchemaCache

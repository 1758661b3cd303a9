import GraphRequest.Schema.Introspection
import GraphRequest.Value.Canonical
import GraphRequest.Digest.Sha256

/-!
# A cache of schemas

Schemas are kept under the fingerprint of the introspection answer they were read from, the most
recently used one last. At most `SchemaCache.capacity` schemas are kept; beyond that the least
recently used one goes.

* `length_trim_le`: no more schemas are kept than the capacity allows.
* `fetch_error`: a fetch that fails leaves the cache as it was.
-/

namespace GraphRequest

/-- The fingerprint of a value: the digest of its canonical text. -/
def Value.fingerprint (v : Value) : String :=
  String.ofList (Sha256.hexDigest v.canonical.toUTF8.toList)

/-- A schema in the cache, with the number of schemas that were built before it. -/
structure CachedSchema where
  fingerprint : String
  serial : Nat
  schema : Schema

/-- The cached schemas, least recently used one first, and how many were ever built. -/
structure SchemaCache where
  entries : List CachedSchema
  built : Nat

namespace SchemaCache

/-- The number of schemas that are kept. -/
def capacity : Nat := 16

/-- The cache before anything was built. -/
def empty : SchemaCache := ⟨[], 0⟩

/-- The last entries, as many as the capacity allows. -/
def trim (entries : List CachedSchema) : List CachedSchema :=
  entries.drop (entries.length - capacity)

/-- The schema of an introspection answer: the cached one, which becomes the most recently used, or
a new one. -/
def fetch (c : SchemaCache) (v : Value) : Except Failure CachedSchema × SchemaCache :=
  let key := v.fingerprint
  match c.entries.find? (·.fingerprint == key) with
  | some e => (.ok e, { c with entries := c.entries.filter (·.fingerprint != key) ++ [e] })
  | none =>
    match Schema.ofIntrospection v with
    | .error e => (.error e, c)
    | .ok s =>
      let e := ⟨key, c.built, s⟩
      (.ok e, ⟨trim (c.entries ++ [e]), c.built + 1⟩)

/-- The cache without its schemas. -/
def clear (c : SchemaCache) : SchemaCache := { c with entries := [] }

theorem length_trim_le (entries : List CachedSchema) : (trim entries).length ≤ capacity := by
  simp only [trim, List.length_drop]
  omega

theorem fetch_error {c : SchemaCache} {v : Value} {e : Failure}
    (h : (c.fetch v).1 = .error e) : (c.fetch v).2 = c := by
  simp only [fetch] at h ⊢
  split at h
  · cases h
  · split at h
    · simp_all
    · cases h

end SchemaCache

end GraphRequest

import Mathlib.Data.Set.Function
import GraphRequest.Proofs.Schema.Transparency

/-!
# What a fingerprint identifies

Two values have the same contents if they differ in nothing but the order of the keys of their
objects. The canonical text of JSON data, from which its fingerprint is made, tells exactly the
contents.

* `SameContents`: sameness of contents, by the forms of values.
* `arranged_eq_iff`: values with the same contents are the same when they are arranged.
* `canonical_identifies`: the canonical text tells the contents, and so does its digest among texts
  that the digest keeps apart.
-/

namespace GraphRequest.Value

/-- Whether two values differ in nothing but the order of the keys of their objects. -/
inductive SameContents : Value → Value → Prop
  | null : SameContents .null .null
  | bool (b : Bool) : SameContents (.bool b) (.bool b)
  | int (n : Int) : SameContents (.int n) (.int n)
  | float (d : Decimal) : SameContents (.float d) (.float d)
  | str (s : String) : SameContents (.str s) (.str s)
  | arr {items others : List Value} (length : items.length = others.length)
      (each : ∀ pair ∈ items.zip others, SameContents pair.1 pair.2) :
      SameContents (.arr items) (.arr others)
  | obj {fields others : Fields} (keys : (Keyed.keys fields).Perm (Keyed.keys others))
      (each : ∀ key v w, (key, v) ∈ fields → (key, w) ∈ others → SameContents v w) :
      SameContents (.obj fields) (.obj others)

/-- The bytes of the canonical text of a value, from which its fingerprint is made. -/
def canonicalBytes (v : Value) : List UInt8 := v.canonical.toUTF8.toList

/-! ### Arranged values -/

/-- Lists that are arranged alike have pairs of items that are arranged alike. -/
theorem arranged_zip {items others : List Value}
    (same : items.map arranged = others.map arranged) :
    ∀ pair ∈ items.zip others, pair.1.arranged = pair.2.arranged := by
  intro pair hpair
  obtain ⟨i, hi, rfl⟩ := List.mem_iff_getElem.1 hpair
  rw [List.getElem_zip]
  have there : (items.map arranged)[i]? = (others.map arranged)[i]? := by rw [same]
  have left : i < items.length := by
    rw [List.length_zip] at hi
    omega
  have right : i < others.length := by
    rw [List.length_zip] at hi
    omega
  rw [List.getElem?_map, List.getElem?_map, List.getElem?_eq_getElem left,
    List.getElem?_eq_getElem right] at there
  exact Option.some.inj there

/-- Lists of one length are arranged alike if their pairs of items are. -/
theorem map_arranged_of_zip {items others : List Value} (length : items.length = others.length)
    (each : ∀ pair ∈ items.zip others, pair.1.arranged = pair.2.arranged) :
    items.map arranged = others.map arranged := by
  induction items generalizing others with
  | nil =>
    cases others with
    | nil => rfl
    | cons w ws => cases length
  | cons v vs ih =>
    cases others with
    | nil => cases length
    | cons w ws =>
      have head : v.arranged = w.arranged := each (v, w) (.head _)
      have tail : vs.map arranged = ws.map arranged :=
        ih (Nat.succ.inj length) fun pair hpair => each pair (.tail _ hpair)
      rw [List.map_cons, List.map_cons, head, tail]

theorem pairs_nodup_of_keys {fields : Fields} (distinct : (Keyed.keys fields).Nodup) :
    (fields.map fun f => (f.1, f.2.arranged)).Nodup := by
  apply List.Nodup.of_map Prod.fst
  rw [← Keyed.keys, keys_map_arranged]
  exact distinct

/-- Objects with the same keys are arranged alike if what stands under each key is. -/
theorem arranged_of_each {fields others : Fields} (distinct : (Keyed.keys fields).Nodup)
    (keys : (Keyed.keys fields).Perm (Keyed.keys others))
    (each : ∀ key v w, (key, v) ∈ fields → (key, w) ∈ others → v.arranged = w.arranged) :
    (obj fields).arranged = (obj others).arranged := by
  have distinct' : (Keyed.keys others).Nodup := keys.nodup_iff.1 distinct
  have perm : (fields.map fun f => (f.1, f.2.arranged)).Perm
      (others.map fun f => (f.1, f.2.arranged)) := by
    rw [List.perm_ext_iff_of_nodup (pairs_nodup_of_keys distinct) (pairs_nodup_of_keys distinct')]
    rintro ⟨key, u⟩
    rw [List.mem_map, List.mem_map]
    constructor
    · rintro ⟨⟨k, v⟩, hv, same⟩
      obtain ⟨rfl, rfl⟩ := Prod.mk.inj same
      obtain ⟨⟨_, w⟩, hw, rfl⟩ := List.mem_map.1 (keys.mem_iff.1 (List.mem_map_of_mem hv))
      exact ⟨_, hw, congrArg _ (each _ v w hv hw).symm⟩
    · rintro ⟨⟨k, w⟩, hw, same⟩
      obtain ⟨rfl, rfl⟩ := Prod.mk.inj same
      obtain ⟨⟨_, v⟩, hv, rfl⟩ := List.mem_map.1 (keys.mem_iff.2 (List.mem_map_of_mem hw))
      exact ⟨_, hv, congrArg _ (each _ v w hv hw)⟩
  rw [arranged_obj, arranged_obj, arrangedFields, arrangedFields, sortFields_of_perm _ perm]
  rw [keys_map_arranged]
  exact distinct

/-- Objects that are arranged alike have the same keys. -/
theorem keys_perm_of_arranged {fields others : Fields}
    (same : arrangedFields fields = arrangedFields others) :
    (Keyed.keys fields).Perm (Keyed.keys others) := by
  have keys := keys_arrangedFields_perm fields
  rw [same] at keys
  exact keys.symm.trans (keys_arrangedFields_perm others)

/-- Objects that are arranged alike have values arranged alike under each key. -/
theorem each_of_arranged {fields others : Fields} (distinct : (Keyed.keys fields).Nodup)
    (distinct' : (Keyed.keys others).Nodup)
    (same : arrangedFields fields = arrangedFields others) {key : String} {v w : Value}
    (hv : (key, v) ∈ fields) (hw : (key, w) ∈ others) : v.arranged = w.arranged := by
  have found := lookup_arrangedFields distinct key
  rw [same, lookup_arrangedFields distinct', (Keyed.lookup_eq_some distinct).2 hv,
    (Keyed.lookup_eq_some distinct').2 hw] at found
  exact (Option.some.inj found).symm

/-! ### Contents -/

/-- Values with the same contents are the same when they are arranged. -/
theorem SameContents.arranged_eq {p q : Value} (same : SameContents p q)
    (hp : p.isJson = true) : p.arranged = q.arranged := by
  induction same with
  | arr length each ih =>
    rw [arranged_arr, arranged_arr]
    have items := map_arranged_of_zip length fun pair hpair =>
      ih pair hpair (isJson_arr.1 hp pair.1 (List.of_mem_zip hpair).1)
    rw [items]
  | obj keys each ih =>
    obtain ⟨distinct, inside⟩ := isJson_obj.1 hp
    exact arranged_of_each distinct keys fun key v w hv hw => ih key v w hv hw (inside _ hv)
  | _ => rfl

/-- JSON values that are the same when they are arranged have the same contents. -/
theorem sameContents_of_arranged {p q : Value} (hp : p.isJson = true) (hq : q.isJson = true)
    (same : p.arranged = q.arranged) : SameContents p q := by
  induction p using inductParts generalizing q with
  | null =>
    cases q with
    | null => exact .null
    | _ => simp [arranged] at same
  | bool b =>
    cases q with
    | bool b' =>
      cases same
      exact .bool b
    | _ => simp [arranged] at same
  | int n =>
    cases q with
    | int n' =>
      cases same
      exact .int n
    | _ => simp [arranged] at same
  | float d =>
    cases q with
    | float d' =>
      cases same
      exact .float d
    | _ => simp [arranged] at same
  | str s =>
    cases q with
    | str s' =>
      cases same
      exact .str s
    | _ => simp [arranged] at same
  | arr items ih =>
    cases q with
    | arr others =>
      rw [arranged_arr, arranged_arr] at same
      have alike := Value.arr.inj same
      have length : items.length = others.length := by simpa using congrArg List.length alike
      refine .arr length fun pair hpair => ?_
      obtain ⟨left, right⟩ := List.of_mem_zip hpair
      exact ih pair.1 left (isJson_arr.1 hp _ left) (isJson_arr.1 hq _ right)
        (arranged_zip alike pair hpair)
    | _ => simp [arranged] at same
  | obj fields ih =>
    cases q with
    | obj others =>
      obtain ⟨distinct, inside⟩ := isJson_obj.1 hp
      obtain ⟨distinct', inside'⟩ := isJson_obj.1 hq
      rw [arranged_obj, arranged_obj] at same
      have alike := Value.obj.inj same
      refine .obj (keys_perm_of_arranged alike) fun key v w hv hw => ?_
      exact ih (key, v) hv (inside _ hv) (inside' _ hw)
        (each_of_arranged distinct distinct' alike hv hw)
    | _ => simp [arranged] at same
  | columns names rows => cases hp

/-- Arranging tells the contents of JSON values. -/
theorem arranged_eq_iff {p q : Value} (hp : p.isJson = true) (hq : q.isJson = true) :
    p.arranged = q.arranged ↔ SameContents p q :=
  ⟨sameContents_of_arranged hp hq, fun same => same.arranged_eq hp⟩

/-! ### Texts and digests -/

/-- Reading off bytes from a position puts the bytes from there on behind those read before. -/
theorem toList_loop (bytes : ByteArray) (i : Nat) (before : List UInt8) :
    ByteArray.toList.loop bytes i before = before.reverse ++ bytes.data.toList.drop i := by
  by_cases inside : i < bytes.size
  · have next : bytes.data.toList.drop i = bytes.get! i :: bytes.data.toList.drop (i + 1) := by
      have there : i < bytes.data.toList.length := inside
      rw [List.drop_eq_getElem_cons there]
      refine congrArg (· :: _) ?_
      show bytes.data.toList[i] = bytes.data[i]!
      rw [getElem!_pos bytes.data i inside, Array.getElem_toList]
    rw [ByteArray.toList.loop, if_pos inside, toList_loop bytes (i + 1), List.reverse_cons,
      List.append_assoc, next]
    rfl
  · have none_left : bytes.data.toList.drop i = [] :=
      List.drop_eq_nil_of_le (Nat.le_of_not_lt inside)
    rw [ByteArray.toList.loop, if_neg inside, none_left, List.append_nil]
termination_by bytes.size - i

/-- Texts with the same bytes are the same. -/
theorem canonicalBytes_inj {p q : Value} :
    p.canonicalBytes = q.canonicalBytes ↔ p.canonical = q.canonical := by
  constructor
  · intro same
    show p.canonical = q.canonical
    have lists : p.canonical.toByteArray.data.toList = q.canonical.toByteArray.data.toList := by
      have loops : ByteArray.toList.loop p.canonical.toByteArray 0 [] =
        ByteArray.toList.loop q.canonical.toByteArray 0 [] := same
      rwa [toList_loop, toList_loop] at loops
    exact String.toByteArray_inj.1 (ByteArray.ext (Array.toList_inj.1 lists))
  · intro same
    rw [canonicalBytes, same]
    rfl

theorem fingerprint_eq_iff_digest {p q : Value} : p.fingerprint = q.fingerprint ↔
    Sha256.hexDigest p.canonicalBytes = Sha256.hexDigest q.canonicalBytes :=
  String.ofList_inj

/-- The canonical text of JSON data tells its contents, and so does its fingerprint among texts
that the digest keeps apart. -/
theorem canonical_identifies {p q : Value} (hp : p.isJson = true) (hq : q.isJson = true) :
    (p.canonical = q.canonical ↔ SameContents p q) ∧
    ∀ texts : Set (List UInt8), Set.InjOn Sha256.hexDigest texts → p.canonicalBytes ∈ texts →
      q.canonicalBytes ∈ texts → (p.fingerprint = q.fingerprint ↔ SameContents p q) := by
  have text : p.canonical = q.canonical ↔ SameContents p q :=
    (canonical_eq_iff hp hq).trans (arranged_eq_iff hp hq)
  refine ⟨text, fun texts apart memp memq => ?_⟩
  rw [fingerprint_eq_iff_digest, apart.eq_iff memp memq, canonicalBytes_inj]
  exact text

/-- An answer and the same answer in another order have one fingerprint, which is not that of the
null answer. -/
theorem canonical_identifies_entries :
    Set.InjOn Sha256.hexDigest {(obj Sample.entries).canonicalBytes, canonicalBytes .null} ∧
      (obj Sample.entries.reverse).fingerprint = (obj Sample.entries).fingerprint ∧
      SameContents (.obj Sample.entries.reverse) (.obj Sample.entries) ∧
      ¬ SameContents (.obj Sample.entries) .null := by
  have hp : (obj Sample.entries).isJson = true := by decide
  have hq : (obj Sample.entries.reverse).isJson = true := by decide
  have hn : Value.null.isJson = true := rfl
  have differ : Sha256.hexDigest (obj Sample.entries).canonicalBytes ≠
      Sha256.hexDigest (canonicalBytes .null) :=
    fun same => Sample.fingerprint_ne_null (fingerprint_eq_iff_digest.2 same)
  have apart : Set.InjOn Sha256.hexDigest
      {(obj Sample.entries).canonicalBytes, canonicalBytes .null} := by
    rintro _ (rfl | rfl) _ (rfl | rfl) same
    · rfl
    · exact absurd same differ
    · exact absurd same.symm differ
    · rfl
  have turned : SameContents (.obj Sample.entries.reverse) (.obj Sample.entries) :=
    (canonical_identifies hq hp).1.1 Sample.canonical_reverse
  have one : (obj Sample.entries.reverse).fingerprint = (obj Sample.entries).fingerprint := by
    refine ((canonical_identifies hq hp).2 _ apart ?_ (.inl rfl)).2 turned
    exact .inl (canonicalBytes_inj.2 Sample.canonical_reverse)
  have other : ¬ SameContents (.obj Sample.entries) .null := fun same =>
    Sample.fingerprint_ne_null
      (((canonical_identifies hp hn).2 _ apart (.inl rfl) (.inr rfl)).2 same)
  exact ⟨apart, one, turned, other⟩

end GraphRequest.Value

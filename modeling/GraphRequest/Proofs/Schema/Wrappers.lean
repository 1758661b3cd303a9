import GraphRequest.Schema.BaseType

/-!
# Wrappers of type references

A type reference is a named type inside a chain of wrappers: lists, and marks that exclude null. Six
chains are supported, those of the types `T`, `T!`, `[T]`, `[T!]`, `[T]!` and `[T!]!`. The base type
of a reference keeps the named type and says by its flags which of these chains it stands in. Two
marks on the items of a list are taken off as one, so that `[T!!]` and `[T!!]!` have a base type as
well, that of another reference.

* `TypeRef.wrappers`, `TypeRef.innermost?`: the chain of a reference, and what it stands around.
* `BaseType.wrappers`: the chain that the flags of a base type stand for.
* `TypeRef.Unwraps`: a reference has a base type just if its chain is supported, and its chain can
  be read off the base type.
* `unwraps_iff_unrepeated`: every reference unwraps but for those with two marks on the items of a
  list.
-/

namespace GraphRequest

/-! ### Chains -/

/-- A wrapper of a type reference. -/
inductive Wrapper
  | list
  | nonNull
deriving DecidableEq, Repr

/-- The kind of type that a wrapper is. -/
def Wrapper.kind : Wrapper → TypeKind
  | .list => .list
  | .nonNull => .nonNull

/-- The wrapper that a kind of type is. -/
def TypeKind.wrapper? : TypeKind → Option Wrapper
  | .list => some .list
  | .nonNull => some .nonNull
  | _ => none

theorem TypeKind.wrapper?_eq_none {kind : TypeKind} :
    kind.wrapper? = none ↔ kind.isWrapper = false := by
  cases kind <;> decide

theorem TypeKind.wrapper?_eq_some {kind : TypeKind} {w : Wrapper} :
    kind.wrapper? = some w ↔ kind = w.kind := by
  cases kind <;> cases w <;> decide

/-- The supported chains, from the outside in. -/
def supportedChains : List (List Wrapper) :=
  [[], [.nonNull], [.list], [.list, .nonNull], [.nonNull, .list], [.nonNull, .list, .nonNull]]

/-- The chains in which the items of the only list are marked twice. -/
def repeatedChains : List (List Wrapper) :=
  [[.list, .nonNull, .nonNull], [.nonNull, .list, .nonNull, .nonNull]]

namespace TypeRef

/-- The wrappers of a reference, from the outside in. -/
def wrappers : TypeRef → List Wrapper
  | ⟨kind, _, ofType⟩ =>
    match kind.wrapper? with
    | none => []
    | some w => w ::
      match ofType with
      | some t => t.wrappers
      | none => []

/-- The reference inside all wrappers. A chain that breaks off has none. -/
def innermost? : TypeRef → Option TypeRef
  | ⟨kind, name, ofType⟩ =>
    match kind.wrapper? with
    | none => some ⟨kind, name, ofType⟩
    | some _ =>
      match ofType with
      | some t => t.innermost?
      | none => none

/-- Whether there is a named type inside all wrappers. -/
def isEnded (t : TypeRef) : Bool := t.innermost?.any (·.name.isTruthy)

/-- Whether a reference is a named type in a supported chain. -/
def isSupported (t : TypeRef) : Bool := t.isEnded && supportedChains.contains t.wrappers

/-- Whether a reference is a list of a named type with two marks on its items. -/
def repeatsMark (t : TypeRef) : Bool := t.isEnded && repeatedChains.contains t.wrappers

/-- The wrappers of a reference that may be missing. -/
def wrappersOf (o : Option TypeRef) : List Wrapper := o.elim [] wrappers

theorem wrappers_wrap (w : Wrapper) (name : Value) (o : Option TypeRef) :
    wrappers ⟨w.kind, name, o⟩ = w :: wrappersOf o := by
  cases w <;> cases o <;> rfl

theorem innermost?_wrap (w : Wrapper) (name : Value) (o : Option TypeRef) :
    innermost? ⟨w.kind, name, o⟩ = o.bind innermost? := by
  cases w <;> cases o <;> rfl

theorem wrappers_plain {kind : TypeKind} (plain : kind.wrapper? = none) (name : Value)
    (o : Option TypeRef) : wrappers ⟨kind, name, o⟩ = [] := by
  cases kind with
  | list => cases plain
  | nonNull => cases plain
  | _ => cases o <;> rfl

theorem innermost?_plain {kind : TypeKind} (plain : kind.wrapper? = none) (name : Value)
    (o : Option TypeRef) : innermost? ⟨kind, name, o⟩ = some ⟨kind, name, o⟩ := by
  cases kind with
  | list => cases plain
  | nonNull => cases plain
  | _ => cases o <;> rfl

/-- A chain of wrappers stands around a named type. -/
inductive Wraps (u : TypeRef) : List Wrapper → Option TypeRef → Prop
  | here (plain : u.kind.wrapper? = none) : Wraps u [] (some u)
  | wrap {w : Wrapper} {name : Value} {ws : List Wrapper} {o : Option TypeRef}
      (inside : Wraps u ws o) : Wraps u (w :: ws) (some ⟨w.kind, name, o⟩)

theorem Wraps.plain {u : TypeRef} {ws : List Wrapper} {o : Option TypeRef} (h : Wraps u ws o) :
    u.kind.wrapper? = none := by
  induction h with
  | here plain => exact plain
  | wrap _ ih => exact ih

/-- The wrappers of a reference stand around what is inside of them. -/
theorem wraps_wrappers : ∀ {t u : TypeRef}, t.innermost? = some u → Wraps u t.wrappers (some t)
  | ⟨kind, name, ofType⟩, u, inside => by
    cases wraps : kind.wrapper? with
    | none =>
      rw [innermost?_plain wraps] at inside
      cases inside
      rw [wrappers_plain wraps]
      exact .here wraps
    | some w =>
      obtain rfl := TypeKind.wrapper?_eq_some.1 wraps
      rw [innermost?_wrap] at inside
      rw [wrappers_wrap]
      cases ofType with
      | none => cases inside
      | some t => exact .wrap (wraps_wrappers inside)

/-! ### Taking wrappers off -/

theorem peelNonNull_of_plain {u : TypeRef} (plain : u.kind.wrapper? = none) :
    peelNonNull (some u) = (false, some u) := by
  obtain ⟨kind, name, ofType⟩ := u
  cases kind with
  | nonNull => cases plain
  | _ => rfl

theorem peelList_of_plain {u : TypeRef} (plain : u.kind.wrapper? = none) :
    peelList (some u) = (false, some u) := by
  obtain ⟨kind, name, ofType⟩ := u
  cases kind with
  | list => cases plain
  | _ => rfl

/-- Taking off a mark takes it off the chain, if there is one, and leaves what is inside. -/
theorem wrappersOf_peelNonNull {o o' : Option TypeRef} {mark : Bool}
    (h : peelNonNull o = (mark, o')) :
    wrappersOf o = (if mark then [Wrapper.nonNull] else []) ++ wrappersOf o' ∧
      o.bind innermost? = o'.bind innermost? := by
  unfold peelNonNull at h
  split at h
  · rename_i name _
    cases h
    exact ⟨wrappers_wrap .nonNull name o', innermost?_wrap .nonNull name o'⟩
  · cases h
    exact ⟨rfl, rfl⟩

theorem wrappersOf_peelList {o o' : Option TypeRef} {list : Bool} (h : peelList o = (list, o')) :
    wrappersOf o = (if list then [Wrapper.list] else []) ++ wrappersOf o' ∧
      o.bind innermost? = o'.bind innermost? := by
  unfold peelList at h
  split at h
  · rename_i name _
    cases h
    exact ⟨wrappers_wrap .list name o', innermost?_wrap .list name o'⟩
  · cases h
    exact ⟨rfl, rfl⟩

/-- Up to two marks are taken off the items of a list. -/
theorem wrappersOf_peelItem {o o' : Option TypeRef} {mark : Bool} (h : peelItem o = (mark, o')) :
    (wrappersOf o = (if mark then [Wrapper.nonNull] else []) ++ wrappersOf o' ∨
      mark = true ∧ wrappersOf o = [Wrapper.nonNull, .nonNull] ++ wrappersOf o') ∧
      o.bind innermost? = o'.bind innermost? := by
  cases first : peelNonNull o with
  | mk outer o₁ =>
    cases second : peelNonNull o₁ with
    | mk inner o₂ =>
      unfold peelItem at h
      rw [first] at h
      dsimp only at h
      rw [second] at h
      cases h
      obtain ⟨chain, inside⟩ := wrappersOf_peelNonNull first
      obtain ⟨chain', inside'⟩ := wrappersOf_peelNonNull second
      refine ⟨?_, inside.trans inside'⟩
      rw [chain, chain']
      cases outer with
      | false => exact .inl rfl
      | true =>
        cases inner with
        | false => exact .inl rfl
        | true => exact .inr ⟨rfl, rfl⟩

end TypeRef

/-! ### Base types -/

/-- The wrappers that the flags of a base type stand for. -/
def BaseType.wrappers (b : BaseType) : List Wrapper :=
  (if b.isNonNull then [Wrapper.nonNull] else []) ++
    (if b.isList then Wrapper.list :: (if b.isItemNonNull then [Wrapper.nonNull] else []) else [])

/-- A base type is that of a named type: it has its name and its kind, and marks the items of a list
only. -/
structure BaseType.Names (b : BaseType) (u : TypeRef) : Prop where
  name : b.name = u.name
  kind : b.kind = u.kind
  flat : b.isItemNonNull = true → b.isList = true

namespace TypeRef

variable {t : TypeRef} {b : BaseType}

/-- A reference has a base type just if a named type is left once the wrappers were taken off. -/
theorem base_eq_ok : t.base = .ok b ↔ ∃ o₁ o₂ ofType,
    peelNonNull (some t) = (b.isNonNull, o₁) ∧ peelList o₁ = (b.isList, o₂) ∧
      (if b.isList then peelItem o₂ else (false, o₂)) =
        (b.isItemNonNull, some ⟨b.kind, b.name, ofType⟩) ∧
      b.kind.wrapper? = none ∧ b.name.isTruthy = true := by
  constructor
  · intro h
    unfold base at h
    dsimp only at h
    split at h
    · rename_i kind name ofType innermost
      split at h
      · cases h
      · rename_i accepted
        rw [Bool.or_eq_true, not_or, Bool.not_eq_true, Bool.not_eq_true, Bool.not_eq_false']
          at accepted
        cases h
        exact ⟨_, _, ofType, rfl, rfl, Prod.ext rfl innermost,
          TypeKind.wrapper?_eq_none.2 accepted.1, accepted.2⟩
    · cases h
  · rintro ⟨o₁, o₂, ofType, outer, list, items, plain, named⟩
    unfold base
    simp only [outer, list, items, TypeKind.wrapper?_eq_none.1 plain, named]
    rfl

/-- A base type has the wrappers of its reference, but for a second mark on the items of a list. -/
theorem wrappers_of_base (h : t.base = .ok b) :
    ∃ u, t.innermost? = some u ∧ u.name.isTruthy = true ∧ b.Names u ∧
      (t.wrappers = b.wrappers ∨
        b.isItemNonNull = true ∧ t.wrappers = b.wrappers ++ [Wrapper.nonNull]) := by
  obtain ⟨o₁, o₂, ofType, outer, list, items, plain, named⟩ := base_eq_ok.1 h
  obtain ⟨name, kind, isList, isNonNull, isItemNonNull⟩ := b
  obtain ⟨chain, inside⟩ := wrappersOf_peelNonNull outer
  obtain ⟨chain', inside'⟩ := wrappersOf_peelList list
  have whole : t.wrappers = (if isNonNull then [Wrapper.nonNull] else []) ++
      ((if isList then [Wrapper.list] else []) ++ wrappersOf o₂) := by
    rw [← chain', ← chain]
    rfl
  have innermost : t.innermost? = o₂.bind innermost? := inside.trans inside'
  have nothing : wrappersOf (some ⟨kind, name, ofType⟩) = [] := wrappers_plain plain name ofType
  have last : (some (⟨kind, name, ofType⟩ : TypeRef)).bind innermost? =
      some ⟨kind, name, ofType⟩ := innermost?_plain plain name ofType
  refine ⟨⟨kind, name, ofType⟩, ?_⟩
  rw [whole, innermost]
  cases isList with
  | false =>
    cases items
    rw [nothing]
    exact ⟨last, named, ⟨rfl, rfl, nofun⟩, .inl rfl⟩
  | true =>
    obtain ⟨chain'', inside''⟩ := wrappersOf_peelItem items
    rw [nothing, List.append_nil, List.append_nil] at chain''
    refine ⟨inside''.trans last, named, ⟨rfl, rfl, fun _ => rfl⟩, ?_⟩
    obtain once | ⟨rfl, twice⟩ := chain''
    · rw [once]
      exact .inl rfl
    · rw [twice]
      exact .inr ⟨rfl, by cases isNonNull <;> rfl⟩

/-- A reference without a base type is reported. -/
theorem noBaseName_of_base {fault : Failure} (h : t.base = .error fault) :
    fault = .schema (.noBaseName t) := by
  unfold base at h
  dsimp only at h
  split at h
  · split at h
    · cases h
      rfl
    · cases h
  · cases h
    rfl

/-- A named type in a supported chain has a base type, and so has one with two marks on the items of
a list. -/
theorem exists_base (ended : t.isEnded = true)
    (chain : t.wrappers ∈ supportedChains ++ repeatedChains) : ∃ b, t.base = .ok b := by
  obtain ⟨⟨kind, name, ofType⟩, inside, named⟩ := (Option.any_eq_true _ _).1 ended
  have wraps := wraps_wrappers inside
  have plain := wraps.plain
  have unmarked := peelNonNull_of_plain plain
  have single := peelList_of_plain plain
  have item : peelItem (some ⟨kind, name, ofType⟩) = (false, some ⟨kind, name, ofType⟩) := by
    simp only [peelItem, unmarked, Bool.or_self]
  have marked (outer : Value) :
      peelItem (some ⟨.nonNull, outer, some ⟨kind, name, ofType⟩⟩) =
        (true, some ⟨kind, name, ofType⟩) := by
    show (true || (peelNonNull (some _)).1, (peelNonNull (some _)).2) = _
    rw [unmarked]
    rfl
  have peeled {isNonNull isList isItemNonNull : Bool} {o₁ o₂ : Option TypeRef}
      (outer : peelNonNull (some t) = (isNonNull, o₁)) (list : peelList o₁ = (isList, o₂))
      (items : (if isList then peelItem o₂ else (false, o₂)) =
        (isItemNonNull, some ⟨kind, name, ofType⟩)) : ∃ b, t.base = .ok b :=
    ⟨⟨name, kind, isList, isNonNull, isItemNonNull⟩,
      base_eq_ok.2 ⟨o₁, o₂, ofType, outer, list, items, plain, named⟩⟩
  simp only [supportedChains, repeatedChains, List.cons_append, List.nil_append, List.mem_cons,
    List.not_mem_nil, or_false] at chain
  rcases chain with h | h | h | h | h | h | h | h <;> rw [h] at wraps <;>
    repeat cases wraps with | _ wraps
  · exact peeled unmarked single rfl
  · exact peeled rfl single rfl
  · exact peeled rfl rfl item
  · rename_i outer
    exact peeled rfl rfl (marked outer)
  · exact peeled rfl rfl item
  · rename_i outer
    exact peeled rfl rfl (marked outer)
  · exact peeled rfl rfl rfl
  · exact peeled rfl rfl rfl

/-! ### References that unwrap -/

/-- A reference has a base type just if it is a named type in a supported chain. The base type is
that of the named type, and its flags stand for the chain. Every other reference is reported. -/
structure Unwraps (t : TypeRef) : Prop where
  accepted : t.isSupported = true → ∃ b, t.base = .ok b
  described : ∀ b, t.base = .ok b →
    t.wrappers = b.wrappers ∧ ∃ u, t.innermost? = some u ∧ b.Names u
  refused : t.isSupported = false → t.base = .error (.schema (.noBaseName t))

/-- The flags of a base type stand for a supported chain. -/
theorem wrappers_mem_supportedChains (b : BaseType) : b.wrappers ∈ supportedChains := by
  unfold BaseType.wrappers
  cases b.isNonNull <;> cases b.isList <;> cases b.isItemNonNull <;> decide

/-- A reference with a base type ends in a named type. -/
theorem isEnded_of_base (h : t.base = .ok b) : t.isEnded = true := by
  obtain ⟨u, inside, named, _⟩ := wrappers_of_base h
  rw [isEnded, inside]
  exact named

theorem repeatsMark_iff :
    t.repeatsMark = true ↔ t.isEnded = true ∧ t.wrappers ∈ repeatedChains := by
  rw [repeatsMark, Bool.and_eq_true, List.contains_iff_mem]

theorem isSupported_iff :
    t.isSupported = true ↔ t.isEnded = true ∧ t.wrappers ∈ supportedChains := by
  rw [isSupported, Bool.and_eq_true, List.contains_iff_mem]

/-- Two marks on the items of a list are not supported. -/
theorem not_mem_supportedChains {ws : List Wrapper} (h : ws ∈ repeatedChains) :
    ws ∉ supportedChains := by
  revert ws
  decide

/-- With a second mark on the items of a list, the chain of a base type is a repeated one. -/
theorem append_mem_repeatedChains (marked : b.isItemNonNull = true) (list : b.isList = true) :
    b.wrappers ++ [Wrapper.nonNull] ∈ repeatedChains := by
  unfold BaseType.wrappers
  rw [marked, list]
  cases b.isNonNull <;> decide

/-- A reference with two marks on the items of a list has the base type of another one, that with a
single mark. -/
theorem exists_base_of_repeatsMark (h : t.repeatsMark = true) : ∃ b u, t.base = .ok b ∧
    t.innermost? = some u ∧ b.Names u ∧ t.wrappers = b.wrappers ++ [Wrapper.nonNull] := by
  obtain ⟨ended, chain⟩ := repeatsMark_iff.1 h
  obtain ⟨b, based⟩ := exists_base ended (List.mem_append_right _ chain)
  obtain ⟨u, inside, _, names, same | ⟨_, more⟩⟩ := wrappers_of_base based
  · exact absurd (same ▸ wrappers_mem_supportedChains b) (not_mem_supportedChains chain)
  · exact ⟨b, u, based, inside, names, more⟩

/-- Unless a reference has two marks on the items of a list, its base type describes it. -/
theorem describes_of_base (unrepeated : t.repeatsMark = false) (h : t.base = .ok b) :
    t.wrappers = b.wrappers ∧ ∃ u, t.innermost? = some u ∧ b.Names u := by
  obtain ⟨u, inside, _, names, same | ⟨marked, more⟩⟩ := wrappers_of_base h
  · exact ⟨same, u, inside, names⟩
  · have chain := append_mem_repeatedChains marked (names.flat marked)
    rw [repeatsMark_iff.2 ⟨isEnded_of_base h, more ▸ chain⟩] at unrepeated
    cases unrepeated

/-- Every reference unwraps but for a list of a named type with two marks on its items. Such a
reference has the base type of another one, that with a single mark. -/
theorem unwraps_iff_unrepeated (t : TypeRef) :
    (t.Unwraps ↔ t.repeatsMark = false) ∧
      (t.repeatsMark = true → ∃ b u, t.base = .ok b ∧ t.innermost? = some u ∧ b.Names u ∧
        t.wrappers = b.wrappers ++ [.nonNull]) := by
  refine ⟨⟨fun unwraps => ?_, fun unrepeated => ?_⟩, exists_base_of_repeatsMark⟩
  · cases repeated : t.repeatsMark with
    | false => rfl
    | true =>
      obtain ⟨b, u, based, _, _, more⟩ := exists_base_of_repeatsMark repeated
      have same := (unwraps.described b based).1
      rw [more] at same
      exact absurd same (by simp)
  · refine ⟨fun supported => ?_, fun b based => describes_of_base unrepeated based, fun other => ?_⟩
    · obtain ⟨ended, chain⟩ := isSupported_iff.1 supported
      exact exists_base ended (List.mem_append_left _ chain)
    · cases based : t.base with
      | ok b =>
        have chain := (describes_of_base unrepeated based).1 ▸ wrappers_mem_supportedChains b
        rw [isSupported_iff.2 ⟨isEnded_of_base based, chain⟩] at other
        cases other
      | error fault => rw [noBaseName_of_base based]

/-- A list of integers with two marks on its items has a base type, although its chain is not
supported. -/
theorem accepted_repeated_mark :
    ¬ (list (nonNull (nonNull (named .scalar "Int")))).Unwraps := by
  intro unwraps
  have refused := unwraps.refused (by decide)
  cases refused

end TypeRef

end GraphRequest

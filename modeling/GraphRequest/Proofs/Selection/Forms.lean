import GraphRequest.Proofs.Selection.Inserted

/-!
# Short and long forms of a nested selection

What is wanted below a field may be given in a short form, the entries themselves, or in a long one,
an object with nothing but these entries in it. The long form looks up the type that the field
returns before it compiles the entries, and below an aggregate it merges them. Neither is noticed: a
type that cannot be looked up fails either form in the same way, and entries with different keys are
left alone by merging.

* `compileAll_of_unnamed`: on a type that cannot be looked up no selection is completed.
* `merged_of_distinct`: merging entries with different keys changes nothing.
* `compile_forms`: both forms compile alike, and the same words are read alike in all three ways of
  giving them.
-/

namespace GraphRequest

open Step

namespace Schema

variable {s : Schema} {type : Value} {fault : Failure}

/-! ### Types that cannot be looked up -/

theorem field_of_unnamed (unnamed : s.typeNamed type = .error fault) (name : String) :
    s.field type (.str name) = .error fault := by
  unfold typeNamed at unnamed
  unfold field
  split at unnamed
  · cases unnamed
  · rw [unnamed]
    rfl

theorem findField_of_unnamed (unnamed : s.typeNamed type = .error fault) (name : String)
    (path : List String) : s.findField type name path = Step.of (.error fault) := by
  rw [findField, field_of_unnamed unnamed]
  rfl

theorem fieldItem_of_unnamed (unnamed : s.typeNamed type = .error fault)
    (aliasName : Option String) (name : String) (arguments : List BoundArgument)
    (items : List Item) (aggregate : Bool) :
    s.fieldItem aliasName name arguments items type aggregate = Step.of (.error fault) := by
  rw [fieldItem, body, selectable, unnamed]
  rfl

/-- An entry on a type that cannot be looked up is raw text or fails. -/
theorem compile_of_unnamed (unnamed : s.typeNamed type = .error fault) (e : Entry)
    (path : List String) : (∃ o, e.compile s type path = pure o) ∨
      e.compile s type path = Step.of (.error fault) := by
  cases e with
  | raw text => exact .inl ⟨Entry.rawItem text, by rw [Entry.compile]⟩
  | _ =>
    refine .inr ?_
    simp only [Entry.compile, findField_of_unnamed unnamed]
    rfl

/-- Whatever entries are compiled on a type that cannot be looked up, the selection fails if it is
not completed without the type. The induction is on the entries: those that are raw text gather
nothing, and the first other one fails. -/
theorem compileAll_of_unnamed {α : Type} (unnamed : s.typeNamed type = .error fault)
    (es : List Entry) (path : List String) (complete : List Item → Step α)
    (fails : ∀ items, complete items = Step.of (.error fault)) :
    (s.compileAll es type path >>= complete) = Step.of (.error fault) := by
  induction es generalizing complete with
  | nil =>
    show (pure [] >>= complete) = _
    rw [pure_bind]
    exact fails []
  | cons e es ih =>
    show ((e.compile s type path >>= fun item => s.compileAll es type path >>= fun items =>
      pure (item.toList ++ items)) >>= complete) = _
    obtain ⟨o, taken⟩ | failed := compile_of_unnamed unnamed e path
    · simp only [taken, pure_bind, bind_assoc]
      exact ih (fun items => complete (o.toList ++ items)) fun items => fails _
    · rw [failed]
      rfl

end Schema

namespace Entry

/-! ### Merging -/

/-- Merging entries with different keys changes nothing. -/
theorem merged_of_distinct {es : List Entry} (distinct : (es.map key).Nodup) : merged es = es := by
  have keys : Keyed.keys (es.map fun e => (e.key, e)) = es.map key := by
    rw [Keyed.keys, List.map_map]
    rfl
  rw [merged, Keyed.merge_of_nodup (keys ▸ distinct), List.map_map]
  exact List.map_id' es

/-- The entries of a long form without further keys. -/
theorem nestedEntries_of_merges {name : String} {children : List Entry}
    (merges : Naming.isAggregate name = false ∨ (children.map key).Nodup)
    (isArgument : String → Bool) :
    nestedEntries name isArgument (some children) [] = .ok children := by
  show Except.ok (if Naming.isAggregate name then merged (children ++ []) else children ++ []) = _
  rw [List.append_nil]
  split
  · rename_i aggregate
    rw [merged_of_distinct (merges.resolve_left (by simp [aggregate]))]
  · rfl

/-! ### The forms -/

/-- Behind the lookup of its field, the long form is the short one with the lookup of the type that
the field returns in front. -/
theorem compile_long_eq (s : Schema) {name : String} {children : List Entry}
    (merges : Naming.isAggregate name = false ∨ (children.map key).Nodup) (parent : Value)
    (path : List String) :
    (nested name none [] (some children) []).compile s parent path =
      (s.findField parent name path >>= fun
        | none => pure none
        | some (_, returned) => do
          let _ ← Step.of (s.typeNamed returned)
          let items ← s.compileAll children returned (path ++ [name])
          s.fieldItem none name [] items returned (Naming.isAggregate name)) := by
  rw [compile]
  refine congrArg (s.findField parent name path >>= ·) (funext fun o => ?_)
  cases o with
  | none => rfl
  | some found =>
    refine congrArg (Step.of (s.typeNamed found.2) >>= ·) (funext fun t => ?_)
    have unnamed : Failure.ofRequest (extraCompilations s (fun key =>
        !Naming.isAggregate name && Schema.isArgumentKey found.1 t key) []) = .ok [] := rfl
    obtain ⟨all, below, same⟩ := nestedEntries_of_extraCompilations s name (some children) unnamed
    cases (nestedEntries_of_merges merges _).symm.trans below
    have read : (Step.of (.ok []) : Step (List (String × Compilation))) = pure [] := rfl
    have unbound (isArgument : String → Bool) :
        found.1.bindNested (path ++ [name]) ([] ++ Schema.extraArguments isArgument []) =
          pure [] := rfl
    dsimp only
    rw [unnamed, read, pure_bind, unbound, pure_bind, same]
    rfl

/-- The long form compiles as the short one. -/
theorem compile_long (s : Schema) {name : String} {children : List Entry}
    (merges : Naming.isAggregate name = false ∨ (children.map key).Nodup) :
    (nested name none [] (some children) []).compile s =
      (subselection name children).compile s := by
  funext parent path
  rw [compile_long_eq s merges, compile, map_compilations]
  refine congrArg (s.findField parent name path >>= ·) (funext fun o => ?_)
  cases o with
  | none => rfl
  | some found =>
    dsimp only
    cases named : s.typeNamed found.2 with
    | ok t => rfl
    | error fault =>
      -- The long form fails before it compiles its entries, the short one behind them.
      have short := Schema.compileAll_of_unnamed named children (path ++ [name])
        (fun items => s.fieldItem none name [] items found.2 (Naming.isAggregate name))
        fun items => Schema.fieldItem_of_unnamed named none name [] items _
      exact short.symm

/-- A field that is wanted is one with nothing wanted below it. -/
theorem compile_toggle_true (s : Schema) (name : String) :
    (toggle name true).compile s = (subselection name []).compile s := by
  funext parent path
  rw [compile, compile]
  refine congrArg (s.findField parent name path >>= ·) (funext fun o => ?_)
  cases o <;> rfl

/-- The words of a text as items of a list are read as the text is. -/
theorem ofItems_words (text : String) :
    ofItems ((Text.words text).map .str) = .ok (ofWords text) := by
  have each : ∀ w ∈ Text.words text, Text.isBlankText w = false ∧ Text.strip w = w := by
    intro w hw
    obtain ⟨cs, hcs, rfl⟩ := List.mem_map.1 hw
    obtain ⟨some_char, solid⟩ := Text.words_not_blank text.toList cs hcs
    constructor
    · obtain ⟨c, cs', rfl⟩ := List.exists_cons_of_ne_nil some_char
      rw [Text.isBlankText, String.toList_ofList, List.all_cons, solid c (.head _)]
      rfl
    · rw [Text.strip, String.toList_ofList, Text.stripChars_of_not_blank solid]
  unfold ofWords
  generalize Text.words text = words at each
  induction words with
  | nil => rfl
  | cons w ws ih =>
    obtain ⟨visible, stripped⟩ := each w (.head _)
    simp only [List.map_cons, ofItems, visible, Bool.false_eq_true, if_false, stripped,
      ih fun w' hw' => each w' (.tail _ hw')]
    rfl

/-- Both forms of a nested selection compile alike on every type, with the same selection, the same
bindings and the same failure, if the entries are not below an aggregate or have different keys;
without entries they compile as the field alone. A text of words, the list of its words and an
object with the text under `returning` are read as the same entries. -/
theorem compile_forms (s : Schema) :
    (∀ (name : String) (children : List Entry),
      Naming.isAggregate name = false ∨ (children.map key).Nodup →
      (nested name none [] (some children) []).compile s =
        (subselection name children).compile s) ∧
    (∀ name : String, (subselection name []).compile s = (toggle name true).compile s ∧
      (nested name none [] (some []) []).compile s = (toggle name true).compile s) ∧
    ∀ given text : String, Text.isBlankText given = false →
      ∃ children, ofPair given (.str text) = .ok (.subselection (Text.strip given) children) ∧
        ofPair given (.arr ((Text.words text).map .str)) =
          .ok (.subselection (Text.strip given) children) ∧
        ofPair given (.obj [("returning", .str text)]) =
          .ok (.nested (Text.strip given) none [] (some children) []) := by
  refine ⟨fun name children => compile_long s, fun name => ?_, fun given text visible => ?_⟩
  · have short := compile_toggle_true s name
    have long : (nested name none [] (some []) []).compile s = (subselection name []).compile s :=
      compile_long s (.inr List.Pairwise.nil)
    exact ⟨short.symm, long.trans short.symm⟩
  · have named : ¬ Text.isBlankText given = true := Bool.eq_false_iff.1 visible
    refine ⟨ofWords text, ?_, ?_, ?_⟩
    · rw [ofPair, if_neg named]
    · rw [ofPair, if_neg named]
      simp only [ofItems_words]
      rfl
    · rw [ofPair, if_neg named]
      rfl

end Entry

namespace Sample

/-- What is wanted of the number of users: the number itself, and the name of the type. -/
def counting : List Entry := [.subselection "aggregate" [.raw "count"], .raw "__typename"]

/-- The short form of such a selection compiles. -/
theorem exists_compile_counting : ∃ p : Option Item × Bindings,
    ((Entry.subselection "users_aggregate" counting).compile schema (.str "Query") []).result
      (Bindings.start 1) = .ok p ∧
    p.1.map Item.text = some
      "users_aggregate \x7b\n  aggregate \x7b\n    count\n  \x7d\n  __typename\n\x7d" :=
  exists_of_toOption_map (by decide +kernel)

end Sample

namespace Entry

/-- The long form of a selection on the number of users compiles to the text of the short one. -/
theorem compile_forms_counting : Naming.isAggregate "users_aggregate" = true ∧
    (Sample.counting.map key).Nodup ∧ Text.isBlankText "posts" = false ∧
    (∃ o b', Runs ((nested "users_aggregate" none [] (some Sample.counting) []).compile
      Sample.schema (.str "Query") []) (Bindings.start 1) o b' ∧ o.map Item.text = some
        "users_aggregate \x7b\n  aggregate \x7b\n    count\n  \x7d\n  __typename\n\x7d") ∧
    ∃ children, ofPair "posts" (.str "id title") = .ok (.subselection "posts" children) ∧
      ofPair "posts" (.obj [("returning", .str "id title")]) =
        .ok (.nested "posts" none [] (some children) []) := by
  obtain ⟨long, _, read⟩ := compile_forms Sample.schema
  have distinct : (Sample.counting.map key).Nodup := by decide
  obtain ⟨children, short, _, nested⟩ := read "posts" "id title" (by decide)
  have stripped : Text.strip "posts" = "posts" := by decide
  rw [stripped] at short nested
  refine ⟨by decide, distinct, by decide, ?_, children, short, nested⟩
  obtain ⟨⟨o, b'⟩, run, text⟩ := Sample.exists_compile_counting
  refine ⟨o, b', ?_, text⟩
  rw [long "users_aggregate" Sample.counting (.inr distinct)]
  exact run

end Entry

end GraphRequest

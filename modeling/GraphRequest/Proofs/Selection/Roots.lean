import GraphRequest.Selection.Envelope
import GraphRequest.Proofs.Selection.Outcomes

/-!
# What compiling the root selection does

A list of wanted fields compiles entry by entry. Merging entries into selections keeps the
selections of other fields and appends what the entries alone compile to, so the root selection is
the default selections that stay, the wanted fields, and the aggregate of the request behind them.

* `mergeInto_eq`: merging is compiling, behind the selections that stay.
* `runs_compileRoot`: the parts of a root selection.
* `runs_envelope`: when a selection is wrapped, and on which type its rows are.
-/

namespace GraphRequest

open Step

/-- The entries of the wanted fields of a request. -/
def Request.wantedEntries (r : Request) : List Entry := (r.wanted.map Returning.entries).getD []

/-- Whether the wanted fields of a request take the place of the default selection. -/
def Request.replacesDefaults (r : Request) : Bool :=
  match r.wanted with
  | some (.list _) => true
  | _ => false

namespace Schema

variable {s : Schema} {path : List String} {b b' : Bindings}

/-! ### Lists of entries -/

theorem compileAll_cons (s : Schema) (e : Entry) (es : List Entry) (parent : Value)
    (path : List String) : s.compileAll (e :: es) parent path = (do
      let item ← e.compile s parent path
      let items ← s.compileAll es parent path
      return item.toList ++ items) := rfl

theorem compileAll_append (s : Schema) (es es' : List Entry) (parent : Value)
    (path : List String) : s.compileAll (es ++ es') parent path = (do
      let items ← s.compileAll es parent path
      let more ← s.compileAll es' parent path
      return items ++ more) := by
  induction es with
  | nil =>
    show s.compileAll es' parent path = (pure [] >>= fun items => _)
    simp only [pure_bind, List.nil_append, bind_pure]
  | cons e es ih =>
    rw [List.cons_append, compileAll_cons, compileAll_cons, ih]
    simp only [bind_assoc, pure_bind, List.append_assoc]

theorem runs_compileAll_cons {e : Entry} {es : List Entry} {parent : Value} {items : List Item} :
    Runs (s.compileAll (e :: es) parent path) b items b' ↔
      ∃ o rest b₁, Runs (e.compile s parent path) b o b₁ ∧
        Runs (s.compileAll es parent path) b₁ rest b' ∧ items = o.toList ++ rest := by
  constructor
  · intro h
    obtain ⟨o, b₁, ho, h₁⟩ := runs_bind.1 h
    obtain ⟨rest, b₂, hr, h₂⟩ := runs_bind.1 h₁
    obtain ⟨rfl, rfl⟩ := runs_pure.1 h₂
    exact ⟨o, rest, b₁, ho, hr, rfl⟩
  · rintro ⟨o, rest, b₁, ho, hr, rfl⟩
    exact runs_bind.2 ⟨o, b₁, ho, runs_bind.2 ⟨rest, b', hr, runs_pure.2 ⟨rfl, rfl⟩⟩⟩

/-- What holds of the selection of each entry, from bindings with an invariant on, holds of every
selection of a compiled list. -/
theorem forall_of_runs_compileAll {I : Bindings → Prop} {P : Item → Prop} {es : List Entry}
    {parent : Value} {items : List Item}
    (keeps : ∀ e ∈ es, Keeps I (e.compile s parent path))
    (each : ∀ e ∈ es, ∀ b i b', Runs (e.compile s parent path) b (some i) b' → I b → P i)
    (h : Runs (s.compileAll es parent path) b items b') (hb : I b) : ∀ i ∈ items, P i := by
  induction es generalizing b items with
  | nil =>
    obtain ⟨rfl, rfl⟩ := Entry.runs_compileAll_nil.1 h
    intro i hi
    cases hi
  | cons e es ih =>
    obtain ⟨o, rest, b₁, ho, hr, rfl⟩ := runs_compileAll_cons.1 h
    intro i hi
    rcases List.mem_append.1 hi with hi | hi
    · rw [Option.mem_toList] at hi
      cases hi
      exact each e (.head _) b i b₁ ho hb
    · exact ih (fun e' he' => keeps e' (.tail _ he')) (fun e' he' => each e' (.tail _ he')) hr
        (keeps e (.head _) b o b₁ ho hb) i hi

/-! ### Merging -/

/-- The selections that stay beside some entries: those whose text begins with the field of none of
them. -/
def beside (es : List Entry) (items : List Item) : List Item :=
  items.filter fun i => es.all fun e => i.leadingName != e.name?

@[simp] theorem beside_nil (items : List Item) : beside [] items = items := by
  simp [beside]

theorem mem_of_mem_beside {es : List Entry} {items : List Item} {i : Item}
    (h : i ∈ beside es items) : i ∈ items := (List.mem_filter.1 h).1

theorem beside_without (e : Entry) (es : List Entry) (items : List Item) :
    beside es (without items e.name?) = beside (e :: es) items := by
  simp only [beside, without, List.filter_filter, List.all_cons, Bool.and_comm]

/-- Merging compiles the entries as they are compiled alone: what it drops of the given selections
on the way depends on the names of the entries only. -/
theorem mergeFrom_eq (s : Schema) (type : Value) (path : List String) (items : List Item)
    (es : List Entry) : s.mergeFrom type path items es = (do
      let more ← s.compileAll es type path
      return (beside es items, more)) := by
  induction es generalizing items with
  | nil =>
    rw [beside_nil]
    rfl
  | cons e es ih =>
    simp only [mergeFrom, compileAll_cons, ih, bind_assoc, pure_bind, beside_without]

/-- Merging is compiling, behind the selections that stay. -/
theorem mergeInto_eq (s : Schema) (items : List Item) (es : List Entry) (type : Value)
    (path : List String) : s.mergeInto items es type path = (do
      let more ← s.compileAll es type path
      return beside es items ++ more) := by
  simp only [mergeInto, mergeFrom_eq, bind_assoc, pure_bind]

theorem runs_mergeInto {type : Value} {items out : List Item} {es : List Entry}
    (h : Runs (s.mergeInto items es type path) b out b') :
    ∃ more, Runs (s.compileAll es type path) b more b' ∧ out = beside es items ++ more := by
  rw [mergeInto_eq] at h
  obtain ⟨more, b₁, compiles, h₁⟩ := runs_bind.1 h
  obtain ⟨rfl, rfl⟩ := runs_pure.1 h₁
  exact ⟨more, compiles, rfl⟩

/-! ### The root -/

/-- The wanted fields of a request compile behind the default selections that stay, and those are
none when a list of wanted fields takes their place. -/
theorem runs_compileWanted_defaults {r : Request} {type : Value} {aggregate : Bool}
    {items : List Item} (h : Runs (s.compileWanted r type aggregate path) b items b') :
    ∃ defaults more, (r.replacesDefaults = true → defaults = []) ∧
      (r.replacesDefaults = false → s.rootDefaults type aggregate = .ok defaults) ∧
      Runs (s.compileAll r.wantedEntries type path) b more b' ∧
      items = beside r.wantedEntries defaults ++ more := by
  unfold compileWanted at h
  unfold Request.replacesDefaults
  split at h
  · rename_i es hw
    have he : r.wantedEntries = es := by simp [Request.wantedEntries, hw, Returning.entries]
    rw [he, hw]
    exact ⟨[], items, fun _ => rfl, nofun, h, rfl⟩
  · rename_i es hw
    have he : r.wantedEntries = es := by simp [Request.wantedEntries, hw, Returning.entries]
    obtain ⟨defaults, b₁, hd, h₁⟩ := runs_bind.1 h
    obtain ⟨made, rfl⟩ := runs_of.1 hd
    obtain ⟨more, compiles, rfl⟩ := runs_mergeInto h₁
    rw [he, hw]
    exact ⟨defaults, more, nofun, fun _ => made, compiles, rfl⟩
  · rename_i hw
    have he : r.wantedEntries = [] := by simp [Request.wantedEntries, hw]
    obtain ⟨made, rfl⟩ := runs_of.1 h
    have kept : items = beside [] items ++ [] := by rw [beside_nil, List.append_nil]
    rw [he, hw]
    exact ⟨items, [], nofun, fun _ => made, Entry.runs_compileAll_nil.2 ⟨rfl, rfl⟩, kept⟩

/-- The wanted fields of a request compile behind the default selections that stay. -/
theorem runs_compileWanted {r : Request} {type : Value} {aggregate : Bool} {items : List Item}
    (h : Runs (s.compileWanted r type aggregate path) b items b') :
    ∃ defaults more, (defaults = [] ∨ s.rootDefaults type aggregate = .ok defaults) ∧
      Runs (s.compileAll r.wantedEntries type path) b more b' ∧
      items = beside r.wantedEntries defaults ++ more := by
  obtain ⟨defaults, more, replaced, made, compiles, same⟩ := runs_compileWanted_defaults h
  refine ⟨defaults, more, ?_, compiles, same⟩
  cases hr : r.replacesDefaults with
  | true => exact .inl (replaced hr)
  | false => exact .inr (made hr)

/-- The parts of the selection at the root. -/
inductive RootSelection (s : Schema) (r : Request) (type : Value) (aggregate : Bool)
    (path : List String) (b : Bindings) : List Item → Bindings → Prop
  | leaf {b' : Bindings} (unselectable : s.selectable type = .ok none)
      (left : b' = b ∨ ∃ d : Diagnostic, d.code = .unknownField ∧ d.path = path ∧ b' = b.report d) :
      RootSelection s r type aggregate path b [] b'
  | wanted {t : TypeDef} {items : List Item} {b' : Bindings}
      (selectable : s.selectable type = .ok (some t))
      (unmerged : aggregate = false ∨ aggregateEntry r = .ok none)
      (compiles : Runs (s.compileWanted r type aggregate path) b items b') :
      RootSelection s r type aggregate path b items b'
  | merged {t : TypeDef} {items more : List Item} {e : Entry} {b₁ b' : Bindings}
      (selectable : s.selectable type = .ok (some t)) (aggregated : aggregate = true)
      (entry : aggregateEntry r = .ok (some e))
      (compiles : Runs (s.compileWanted r type aggregate path) b items b₁)
      (adds : Runs (s.compileAll [e] type path) b₁ more b') :
      RootSelection s r type aggregate path b (beside [e] items ++ more) b'

theorem runs_compileRoot {r : Request} {type : Value} {aggregate : Bool} {items : List Item}
    (h : Runs (s.compileRoot r type aggregate path) b items b') :
    RootSelection s r type aggregate path b items b' := by
  obtain ⟨o, b₁, ho, h₁⟩ := runs_bind.1 h
  obtain ⟨selectable, rfl⟩ := runs_of.1 ho
  cases o with
  | none =>
    simp only at h₁
    split at h₁
    · obtain ⟨_, b₂, hr, h₂⟩ := runs_bind.1 h₁
      obtain ⟨rfl, rfl⟩ := runs_pure.1 h₂
      exact .leaf selectable (.inr ⟨_, rfl, rfl, runs_report.1 hr⟩)
    · obtain ⟨rfl, rfl⟩ := runs_pure.1 h₁
      exact .leaf selectable (.inl rfl)
  | some t =>
    obtain ⟨ws, b₂, hw, h₂⟩ := runs_bind.1 h₁
    cases aggregate with
    | false =>
      obtain ⟨rfl, rfl⟩ := runs_pure.1 h₂
      exact .wanted selectable (.inl rfl) hw
    | true =>
      obtain ⟨o, b₃, ho, h₃⟩ := runs_bind.1 h₂
      obtain ⟨entry, rfl⟩ := runs_of.1 ho
      cases o with
      | none =>
        obtain ⟨rfl, rfl⟩ := runs_pure.1 h₃
        exact .wanted selectable (.inr entry) hw
      | some e =>
        obtain ⟨more, adds, rfl⟩ := runs_mergeInto h₃
        exact .merged selectable rfl entry hw adds

/-! ### The envelope -/

/-- A root field has an envelope when it returns a payload that counts the rows and holds them. A
field without one leaves the bindings as they are, up to a report. -/
theorem runs_envelope {a : Action} {f : FieldDef} {o : Option Envelope}
    (h : Runs (s.envelope (some a) f) b o b') :
    (o = none ∧ (b' = b ∨ ∃ d : Diagnostic, d.code = .missingEnvelope ∧ b' = b.report d)) ∨
    ∃ base t rows row, f.base = .ok base ∧ s.typeNamed base.name = .ok (some t) ∧
      rowsFieldOf t = some rows ∧ rows.base = .ok row ∧ o = some ⟨base.name, row.name⟩ ∧
      b' = b := by
  unfold envelope at h
  split at h
  · obtain ⟨rfl, rfl⟩ := runs_pure.1 h
    exact .inl ⟨rfl, .inl rfl⟩
  · obtain ⟨name, b₁, hn, h₁⟩ := runs_bind.1 h
    obtain ⟨_, rfl⟩ := runs_ofShape.1 hn
    split at h₁
    · obtain ⟨rfl, rfl⟩ := runs_pure.1 h₁
      exact .inl ⟨rfl, .inl rfl⟩
    · obtain ⟨base, b₂, hb, h₂⟩ := runs_bind.1 h₁
      obtain ⟨returned, rfl⟩ := runs_of.1 hb
      obtain ⟨payload, b₃, hp, h₃⟩ := runs_bind.1 h₂
      obtain ⟨typed, rfl⟩ := runs_of.1 hp
      split at h₃
      · obtain ⟨_, b₄, hr, h₄⟩ := runs_bind.1 h₃
        obtain ⟨rfl, rfl⟩ := runs_pure.1 h₄
        exact .inl ⟨rfl, .inr ⟨_, rfl, runs_report.1 hr⟩⟩
      · rename_i rows hrows
        obtain ⟨row, b₄, hrow, h₄⟩ := runs_bind.1 h₃
        obtain ⟨of_rows, rfl⟩ := runs_of.1 hrow
        obtain ⟨rfl, rfl⟩ := runs_pure.1 h₄
        cases payload with
        | none => simp at hrows
        | some t => exact .inr ⟨base, t, rows, row, returned, typed, hrows, of_rows, rfl, rfl⟩

end Schema

end GraphRequest

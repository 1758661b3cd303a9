import GraphRequest.Proofs.Delivery.Spacing

/-!
# The latest value gets through

A pacer may pass over values, but it never passes over the latest one: a value that is delivered is
the latest at that time, and the latest value is delivered or waits for the timer. The values may
carry their places in the order of their coming, so no value is delivered twice or out of turn.

* `Pacing.Turn`: what a happening does to the value that waits and to the deliveries.
* `Pacing.Among`: deliveries come from the values in their order, whatever happens.
* `Pacing.Current`: the first and the latest value get through, unless the pacer is cancelled.
* `Pacing.latest_of_run`: both, for any happenings at any times.
-/

namespace GraphRequest

namespace Happening

variable {α κ : Type}

/-- The value that comes, if one does. -/
def value? : Happening α κ → Option α
  | .push v => some v
  | _ => none

/-- Whether the pacer is cancelled. -/
def isCancel : Happening α κ → Bool
  | .cancel => true
  | _ => false

end Happening

namespace Pacer

variable {α κ : Type} {p : Pacer α κ} {now : Rat}

/-- Nothing waits for a timer that is not set. -/
theorem Consistent.pending_eq_none (h : p.Consistent) (unset : p.due = none) :
    p.pending = none := by
  have waits := h.waits
  rw [unset] at waits
  simpa using waits.symm

/-- A pacer that delivered nothing lets a value through. -/
theorem Consistent.isOpen (h : p.Consistent) (first : p.lastDelivery = none) :
    p.isOpen now = true := by
  have unset : p.due = none := by
    by_contra set
    obtain ⟨t, ht⟩ := Option.ne_none_iff_exists'.1 set
    obtain ⟨last, hl, _⟩ := h.due t ht
    rw [first] at hl
    cases hl
  rw [Pacer.isOpen, isRested, unset, first]
  rfl

end Pacer

namespace Pacing

variable {α κ : Type} {g g' : Pacing α κ} {values : List α} {now : Rat} {x : Happening α κ}

/-! ### What one happening does -/

/-- What a happening does to the value that waits and to the deliveries. -/
inductive Turn (g : Pacing α κ) (now : Rat) (x : Happening α κ) (g' : Pacing α κ) : Prop
  /-- No value comes, and none is delivered. -/
  | rests (none' : x.value? = none) (same : g'.deliveries = g.deliveries)
      (waits : g'.pacer.pending = g.pacer.pending)
      (runs : g'.pacer.cancelled = g.pacer.cancelled)
  /-- The pacer is cancelled. -/
  | stopped (cancels : x.isCancel = true) (same : g'.deliveries = g.deliveries)
      (waits : g'.pacer.pending = none) (halted : g'.pacer.cancelled = true)
  /-- A value comes to a pacer that is cancelled. -/
  | dropped (v : α) (comes : x.value? = some v) (halted : g.pacer.cancelled = true)
      (same : g' = g)
  /-- A value goes through at once. -/
  | released (v : α) (comes : x.value? = some v) (running : g.pacer.cancelled = false)
      (delivered : g'.deliveries = g.deliveries ++ [(now, v)])
      (waits : g'.pacer.pending = none) (runs : g'.pacer.cancelled = false)
  /-- A value has to wait. -/
  | kept (v : α) (comes : x.value? = some v) (running : g.pacer.cancelled = false)
      (busy : g.pacer.lastDelivery ≠ none) (same : g'.deliveries = g.deliveries)
      (waits : g'.pacer.pending = some v) (runs : g'.pacer.cancelled = false)
  /-- The value that waits is delivered. -/
  | expired (v : α) (none' : x.value? = none) (running : g.pacer.cancelled = false)
      (waited : g.pacer.pending = some v)
      (delivered : g'.deliveries = g.deliveries ++ [(now, v)])
      (waits : g'.pacer.pending = none) (runs : g'.pacer.cancelled = false)

theorem push_of_halted (halted : g.pacer.cancelled = true) (now : Rat) (v : α) :
    g.push now v = g := by
  have unset : timerSet g.pacer g.pacer = [] := by
    unfold timerSet
    cases g.pacer.due <;> rfl
  simp [push, Pacer.push_of_cancelled halted, unset, deliver]

theorem turn_push (h : g.Spaced) (now : Rat) (v : α) : g.Turn now (.push v) (g.push now v) := by
  have deliveries : (g.push now v).deliveries =
      g.deliveries ++ (g.pacer.push now v).2.toList.map (now, ·) := deliveries_deliver _ _ _
  have pacer : (g.push now v).pacer = (g.pacer.push now v).1 := rfl
  cases halted : g.pacer.cancelled with
  | true => exact .dropped v rfl halted (push_of_halted halted now v)
  | false =>
    cases free : g.pacer.isOpen now with
    | true =>
      have idle : g.pacer.pending = none := by
        apply h.consistent.pending_eq_none
        simp only [Pacer.isOpen, Bool.and_eq_true, Option.isNone_iff_eq_none] at free
        exact free.1
      rw [Pacer.push_delivers halted free] at deliveries pacer
      refine .released v rfl halted deliveries ?_ ?_
      · rw [pacer]
        exact idle
      · rw [pacer]
        exact halted
    | false =>
      obtain ⟨waits, _, held⟩ := Pacer.push_pending halted free v
      have busy : g.pacer.lastDelivery ≠ none := by
        intro first
        rw [h.consistent.isOpen first] at free
        cases free
      obtain ⟨_, _, _, frame⟩ := g.pacer.push_frame now v
      rw [held] at deliveries
      refine .kept v rfl halted busy (by simpa using deliveries) ?_ ?_
      · rw [pacer]
        exact waits
      · rw [pacer, frame]
        exact halted

theorem turn_drain (g : Pacing α κ) (now : Rat) (k : κ) :
    g.Turn now (.drain k) (g.drain now k) := by
  obtain ⟨waiting, frame⟩ := g.pacer.drain_frame k
  have pacer : (g.drain now k).pacer = (g.pacer.drain k).1 := rfl
  refine .rests rfl (deliveries_call _ _ _) ?_ ?_
  · rw [pacer, frame]
  · rw [pacer, frame]

/-- A timer that runs out has the value that waits delivered. -/
theorem Spaced.deliveries_expire (h : g.Spaced) {due : Rat} (set : due ∈ g.timers) (now : Rat) :
    ∃ v, g.pacer.pending = some v ∧ g.pacer.cancelled = false ∧
      (g.pacer.expire now).1 =
        { g.pacer with due := none, pending := none, lastDelivery := some now } ∧
      (g.expire now due).deliveries = g.deliveries ++ [(now, v)] := by
  have mine : g.pacer.due = some due := by
    rw [h.timers, Option.mem_toList] at set
    exact set
  obtain ⟨v, waited, runs, expires⟩ := h.consistent.expire_eq now mine
  have deliveries : (g.expire now due).deliveries =
      g.deliveries ++ (g.pacer.expire now).2.toList.map (now, ·) :=
    (deliveries_call _ _ _).trans (deliveries_deliver _ _ _)
  rw [expires] at deliveries ⊢
  exact ⟨v, waited, runs, rfl, deliveries⟩

theorem turn_expire (h : g.Spaced) {due : Rat} (set : due ∈ g.timers) (now : Rat) :
    g.Turn now (.timer due) (g.expire now due) := by
  obtain ⟨v, waited, runs, expires, deliveries⟩ := h.deliveries_expire set now
  have pacer : (g.expire now due).pacer = (g.pacer.expire now).1.settle.1 := rfl
  rw [expires] at pacer
  refine .expired v rfl runs waited deliveries ?_ ?_
  · rw [pacer]
    rfl
  · rw [pacer]
    exact runs

theorem turn_step (h : g.Spaced) (now : Rat) (x : Happening α κ) :
    g.Turn now x (g.step now x) := by
  cases x with
  | push v => exact turn_push h now v
  | drain k => exact turn_drain g now k
  | cancel => exact .stopped rfl rfl rfl rfl
  | timer due =>
    show g.Turn now (.timer due) (if _ then _ else _)
    split
    · rename_i fires
      exact turn_expire h fires.1 now
    · exact .rests rfl rfl rfl rfl

/-! ### Deliveries come from the values -/

/-- The values that come among happenings, in their order. -/
def pushed (happenings : List (Rat × Happening α κ)) : List α :=
  happenings.filterMap fun x => x.2.value?

/-- The values that were delivered, in the order of their deliveries. -/
def delivered (g : Pacing α κ) : List α := g.deliveries.map Prod.snd

/-- Deliveries come from the values, in their order, and a value that waits is the latest one and is
not delivered yet. -/
structure Among (values : List α) (g : Pacing α κ) : Prop where
  spaced : g.Spaced
  among : g.delivered.Sublist values
  waits : ∀ v ∈ g.pacer.pending, ∃ earlier, values = earlier ++ [v] ∧ g.delivered.Sublist earlier

theorem among_fresh (interval : Rat) : (fresh interval : Pacing α κ).Among [] where
  spaced := spaced_fresh interval
  among := .slnil
  waits := by simp [fresh, Pacer.fresh]

theorem Among.step (h : g.Among values) (now : Rat) (x : Happening α κ) :
    (g.step now x).Among (values ++ x.value?.toList) := by
  have turn := turn_step h.spaced now x
  have spaced : (g.step now x).Spaced := h.spaced.step x
  generalize g.step now x = g' at turn spaced
  have later (w : List α) : g.delivered.Sublist (values ++ w) :=
    h.among.trans (List.sublist_append_left _ _)
  have idle {p : Pacer α κ} {P : α → Prop} (none' : p.pending = none) : ∀ v ∈ p.pending, P v := by
    simp [none']
  cases turn with
  | rests none' same waits runs =>
    rw [none', Option.toList_none, List.append_nil]
    refine ⟨spaced, ?_, ?_⟩
    · rw [delivered, same]
      exact h.among
    · rw [delivered, same, waits]
      exact h.waits
  | stopped cancels same waits =>
    refine ⟨spaced, ?_, idle waits⟩
    rw [delivered, same]
    exact later _
  | dropped v comes halted same =>
    have stopped := h.spaced.consistent.pending_eq_none (h.spaced.consistent.stopped halted).1
    rw [same]
    exact ⟨h.spaced, later _, idle stopped⟩
  | released v comes running delivered' waits =>
    refine ⟨spaced, ?_, idle waits⟩
    rw [delivered, delivered', comes, List.map_append]
    exact h.among.append_right [v]
  | kept v comes running busy same waits =>
    rw [comes]
    refine ⟨spaced, ?_, ?_⟩
    · rw [delivered, same]
      exact later _
    · rw [delivered, same, waits]
      rintro _ ⟨⟩
      exact ⟨values, rfl, h.among⟩
  | expired v none' running waited delivered' waits =>
    refine ⟨spaced, ?_, idle waits⟩
    obtain ⟨earlier, rfl, before⟩ := h.waits v waited
    rw [delivered, delivered', none', List.map_append, Option.toList_none, List.append_nil]
    exact before.append_right [v]

/-- A value that is delivered is the latest one at that time. -/
theorem Among.delivers (h : g.Among values) (now : Rat) (x : Happening α κ) :
    ∃ out : Option α, (g.step now x).deliveries = g.deliveries ++ out.toList.map (now, ·) ∧
      ∀ v ∈ out, (values ++ x.value?.toList).getLast? = some v := by
  have nothing {g' : Pacing α κ} (same : g'.deliveries = g.deliveries) :
      ∃ out : Option α, g'.deliveries = g.deliveries ++ out.toList.map (now, ·) ∧
        ∀ v ∈ out, (values ++ x.value?.toList).getLast? = some v :=
    ⟨none, by simpa using same, by simp⟩
  cases turn_step h.spaced now x with
  | rests none' same => exact nothing same
  | stopped cancels same => exact nothing same
  | dropped v comes halted same => exact nothing (congrArg deliveries same)
  | kept v comes running busy same => exact nothing same
  | released v comes running delivered' =>
    refine ⟨some v, delivered', ?_⟩
    rintro _ ⟨⟩
    rw [comes]
    exact List.getLast?_concat
  | expired v none' running waited delivered' =>
    obtain ⟨earlier, rfl, _⟩ := h.waits v waited
    refine ⟨some v, delivered', ?_⟩
    rintro _ ⟨⟩
    rw [none', Option.toList_none, List.append_nil]
    exact List.getLast?_concat

theorem pushed_append (happenings more : List (Rat × Happening α κ)) :
    pushed (happenings ++ more) = pushed happenings ++ pushed more := List.filterMap_append

theorem pushed_singleton (now : Rat) (x : Happening α κ) :
    pushed [(now, x)] = x.value?.toList := by
  cases x <;> rfl

theorem run_concat (g : Pacing α κ) (happenings : List (Rat × Happening α κ)) (now : Rat)
    (x : Happening α κ) : g.run (happenings ++ [(now, x)]) = (g.run happenings).step now x :=
  List.foldl_append

theorem among_run (interval : Rat) (happenings : List (Rat × Happening α κ)) :
    ((fresh interval).run happenings).Among (pushed happenings) := by
  induction happenings using List.reverseRecOn with
  | nil => exact among_fresh interval
  | append_singleton happenings x ih =>
    rw [run_concat, pushed_append, pushed_singleton]
    exact ih.step x.1 x.2

/-! ### The latest value -/

/-- A pacer that is not cancelled: the first value is delivered first, and the latest one last
unless a value waits. -/
structure Current (values : List α) (g : Pacing α κ) : Prop extends g.Among values where
  runs : g.pacer.cancelled = false
  first : g.delivered.head? = values.head?
  last : g.pacer.pending = none → g.delivered.getLast? = values.getLast?

theorem current_fresh (interval : Rat) : (fresh interval : Pacing α κ).Current [] where
  toAmong := among_fresh interval
  runs := rfl
  first := rfl
  last _ := rfl

/-- A pacer that delivered something was given something. -/
theorem Current.head?_append (h : g.Current values) (busy : g.pacer.lastDelivery ≠ none)
    (more : List α) : (values ++ more).head? = values.head? := by
  have given : g.deliveries ≠ [] := by
    intro none'
    rw [h.spaced.last, none'] at busy
    exact busy rfl
  obtain ⟨x, rest, split⟩ := List.exists_cons_of_ne_nil given
  rw [List.head?_append, ← h.first, delivered, split]
  rfl

theorem Current.step (h : g.Current values) (now : Rat) {x : Happening α κ}
    (uncancelled : x.isCancel = false) : (g.step now x).Current (values ++ x.value?.toList) := by
  have among := h.toAmong.step now x
  have turn := turn_step h.spaced now x
  generalize g.step now x = g' at among turn
  have grows {v : α} (delivered' : g'.deliveries = g.deliveries ++ [(now, v)]) :
      g'.delivered = g.delivered ++ [v] := by
    rw [delivered, delivered', List.map_append]
    rfl
  cases turn with
  | rests none' same waits runs =>
    rw [none', Option.toList_none, List.append_nil] at among ⊢
    refine ⟨among, runs.trans h.runs, ?_, ?_⟩
    · rw [delivered, same]
      exact h.first
    · rw [delivered, same, waits]
      exact h.last
  | stopped cancels =>
    rw [uncancelled] at cancels
    cases cancels
  | dropped v comes halted =>
    rw [h.runs] at halted
    cases halted
  | released v comes running delivered' waits runs =>
    rw [comes] at among ⊢
    refine ⟨among, runs, ?_, fun _ => ?_⟩
    · rw [grows delivered', List.head?_append, List.head?_append, h.first]
      rfl
    · rw [grows delivered', List.getLast?_concat]
      exact List.getLast?_concat.symm
  | kept v comes running busy same waits runs =>
    refine ⟨among, runs, ?_, fun idle => ?_⟩
    · rw [delivered, same, h.head?_append busy]
      exact h.first
    · rw [waits] at idle
      cases idle
  | expired v none' running waited delivered' waits runs =>
    obtain ⟨earlier, rfl, _⟩ := h.waits v waited
    rw [none', Option.toList_none, List.append_nil] at among ⊢
    refine ⟨among, runs, ?_, fun _ => ?_⟩
    · rw [grows delivered', List.head?_append, h.first]
      exact Option.or_of_isSome (by simp)
    · rw [grows delivered', List.getLast?_concat, List.getLast?_concat]

theorem current_run (interval : Rat) {happenings : List (Rat × Happening α κ)}
    (uncancelled : ∀ x ∈ happenings, x.2.isCancel = false) :
    ((fresh interval).run happenings).Current (pushed happenings) := by
  induction happenings using List.reverseRecOn with
  | nil => exact current_fresh interval
  | append_singleton happenings x ih =>
    rw [run_concat, pushed_append, pushed_singleton]
    apply Current.step
    · exact ih fun y hy => uncancelled y (List.mem_append_left _ hy)
    · exact uncancelled x (by simp)

/-- The latest of the values is delivered, or it waits for the one timer that is outstanding, and is
delivered when that timer runs out. -/
inductive UpToDate (values : List α) (g : Pacing α κ) : Prop
  | idle (unset : g.timers = []) (latest : g.delivered.getLast? = values.getLast?)
  | waits (due : Rat) (v : α) (set : g.timers = [due]) (latest : values.getLast? = some v)
      (waits : g.pacer.pending = some v)
      (expires : ∀ now, due ≤ now →
        (g.step now (.timer due)).deliveries = g.deliveries ++ [(now, v)])

theorem Current.upToDate (h : g.Current values) : g.UpToDate values := by
  cases set : g.pacer.due with
  | none =>
    refine .idle ?_ (h.last (h.spaced.consistent.pending_eq_none set))
    rw [h.spaced.timers, set]
    rfl
  | some due =>
    have timers : g.timers = [due] := by
      rw [h.spaced.timers, set]
      rfl
    have mine : due ∈ g.timers := by simp [timers]
    obtain ⟨v, waits, _⟩ := h.spaced.deliveries_expire mine 0
    obtain ⟨earlier, rfl, _⟩ := h.waits v waits
    refine .waits due v timers List.getLast?_concat waits fun now reached => ?_
    obtain ⟨w, waits', _, _, deliveries⟩ := h.spaced.deliveries_expire mine now
    cases waits.symm.trans waits'
    rw [Pacing.step, if_pos ⟨mine, reached⟩]
    exact deliveries

/-! ### Cancelled pacers -/

theorem deliveries_step_of_halted (h : g.Spaced) (halted : g.pacer.cancelled = true) (now : Rat)
    (x : Happening α κ) : (g.step now x).pacer.cancelled = true ∧
      (g.step now x).deliveries = g.deliveries := by
  have contradiction' (running : g.pacer.cancelled = false) : False := by
    rw [halted] at running
    cases running
  cases turn_step h now x with
  | rests none' same waits runs => exact ⟨runs.trans halted, same⟩
  | stopped cancels same waits halted' => exact ⟨halted', same⟩
  | dropped v comes _ same =>
    rw [same]
    exact ⟨halted, rfl⟩
  | released v comes running => exact (contradiction' running).elim
  | kept v comes running => exact (contradiction' running).elim
  | expired v none' running => exact (contradiction' running).elim

/-- A cancelled pacer delivers nothing any more. -/
theorem deliveries_run_of_halted (h : g.Spaced) (halted : g.pacer.cancelled = true)
    (happenings : List (Rat × Happening α κ)) : (g.run happenings).deliveries = g.deliveries := by
  induction happenings generalizing g with
  | nil => rfl
  | cons x rest ih =>
    obtain ⟨halted', same⟩ := deliveries_step_of_halted h halted x.1 x.2
    exact (ih (h.step x.2) halted').trans same

/-- Whatever happens to a fresh pacer, the deliveries come from the values in their order, and a
value that is delivered is the latest one at that time. Unless the pacer is cancelled, the latest
value is delivered or waits for the timer. After a cancellation nothing is delivered. -/
theorem latest_of_run (interval : Rat) (before after : List (Rat × Happening α κ)) (now : Rat)
    (x : Happening α κ) :
    let g : Pacing α κ := (fresh interval).run before
    g.delivered.Sublist (pushed before) ∧
      (∃ out : Option α, (g.step now x).deliveries = g.deliveries ++ out.toList.map (now, ·) ∧
        ∀ v ∈ out, (pushed (before ++ [(now, x)])).getLast? = some v) ∧
      ((∀ y ∈ before, y.2.isCancel = false) → g.UpToDate (pushed before)) ∧
      ((g.step now .cancel).run after).deliveries = g.deliveries := by
  intro g
  have among : g.Among (pushed before) := among_run interval before
  refine ⟨among.among, ?_, fun uncancelled => (current_run interval uncancelled).upToDate, ?_⟩
  · rw [pushed_append, pushed_singleton]
    exact among.delivers now x
  · exact deliveries_run_of_halted (among.spaced.step .cancel) rfl after

/-- Of two values that come while a third is fresh, the later one waits. -/
theorem latest_of_run_waiting :
    let happenings : List (Rat × Happening String Unit) :=
      [(0, .push "a"), (100, .push "b"), (100, .push "c")]
    (∀ y ∈ happenings, y.2.isCancel = false) ∧
      ((fresh 1000).run happenings).UpToDate ["a", "b", "c"] := by
  have uncancelled : ∀ y ∈ ([(0, .push "a"), (100, .push "b"), (100, .push "c")] :
      List (Rat × Happening String Unit)), y.2.isCancel = false := by
    simp [Happening.isCancel]
  exact ⟨uncancelled, (latest_of_run 1000 _ [] 1000 .cancel).2.2.1 uncancelled⟩

end Pacing

end GraphRequest

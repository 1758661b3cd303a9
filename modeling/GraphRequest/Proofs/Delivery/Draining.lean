import GraphRequest.Delivery.Recipient
import GraphRequest.Proofs.Delivery.Latest

/-!
# A drained pacer calls back once

A callback that drains a pacer is called once, and not before all that came earlier got through: at
once if nothing waits, and right behind the value that waits otherwise. The values that come in
between take the place of that value, not of the callback. A cancellation in between drops the
callback, also one by the recipient inside the very delivery that the callback waits for.

* `Pacing.Alike`: a recipient changes nothing but whether the pacer is cancelled behind a happening,
  and whether a callback is called.
* `Pacing.Hears`: what a happening does to the callback that waits and to those that were called.
* `Pacing.stepTo_of_spares`: what neither cancels nor lets the timer run out leaves a callback
  waiting.
* `Pacing.drained_of_run`: the fate of a callback, whatever happens before and after.
-/

namespace GraphRequest

variable {α κ : Type}

/-- The callback that is to be called once no value waits, if one is. -/
def Happening.callback? : Happening α κ → Option κ
  | .drain k => some k
  | _ => none

/-- The callback that is called, if one is. -/
def Notice.callback? : Notice α κ → Option κ
  | .called k => some k
  | .delivered _ => none

namespace Pacer

variable {p : Pacer α κ} {now due : Rat}

/-- While a timer is set, a value that comes takes the place of the one that waits. -/
theorem push_of_due (running : p.cancelled = false) (set : p.due = some due) (v : α) :
    p.push now v = ({ p with pending := some v }, none) := by
  have closed : p.isOpen now = false := by
    rw [isOpen, set]
    rfl
  rw [push, if_neg (by simp [running]), if_neg (by simp [closed]), set, Option.getD_some, ← set]

theorem drain_of_due (running : p.cancelled = false) (set : p.due = some due) (k : κ) :
    p.drain k = ({ p with waiting := some k }, none) := by
  rw [drain, if_neg (by simp [running]), set]

theorem drain_of_idle (running : p.cancelled = false) (idle : p.due = none) (k : κ) :
    p.drain k = (p, some k) := by
  rw [drain, if_neg (by simp [running]), idle]

end Pacer

namespace Pacing

variable {c : Recipient α κ} {g g' : Pacing α κ} {values : List α} {now due : Rat}
  {x : Happening α κ}

/-! ### Values before a recipient -/

/-- Two pacings that differ at most in the callbacks that were called. -/
structure Alike (g g' : Pacing α κ) : Prop where
  pacer : g'.pacer = g.pacer
  timers : g'.timers = g.timers
  deliveries : g'.deliveries = g.deliveries

theorem alike_self (g : Pacing α κ) : g.Alike g := ⟨rfl, rfl, rfl⟩

theorem Spaced.alike (h : g.Spaced) (same : g.Alike g') : g'.Spaced := by
  obtain ⟨pacer, timers, deliveries⟩ := same
  exact ⟨pacer ▸ h.consistent, by rw [pacer, timers]; exact h.timers,
    by rw [pacer, deliveries]; exact h.last, by rw [pacer, deliveries]; exact h.spaced⟩

theorem Among.alike (h : g.Among values) (same : g.Alike g') : g'.Among values where
  spaced := h.spaced.alike same
  among := by rw [delivered, same.deliveries]; exact h.among
  waits := by rw [delivered, same.pacer, same.deliveries]; exact h.waits

theorem Current.alike (h : g.Current values) (same : g.Alike g') : g'.Current values where
  toAmong := h.toAmong.alike same
  runs := by rw [same.pacer]; exact h.runs
  first := by rw [delivered, same.deliveries]; exact h.first
  last := by rw [delivered, same.pacer, same.deliveries]; exact h.last

/-- A recipient takes what is delivered, and perhaps cancels then. -/
theorem deliverTo_cases (c : Recipient α κ) (g : Pacing α κ) (now : Rat) (v : Option α) :
    g.deliverTo c now v = g.deliver now v ∨ g.deliverTo c now v = (g.deliver now v).cancel := by
  unfold deliverTo
  dsimp only
  split
  · exact .inr rfl
  · exact .inl rfl

/-- With a recipient a happening does the same, or the same with a cancellation behind it, but for
the callbacks that are called. -/
theorem alike_stepTo (c : Recipient α κ) (g : Pacing α κ) (now : Rat) (x : Happening α κ) :
    (g.step now x).Alike (g.stepTo c now x) ∨ (g.step now x).cancel.Alike (g.stepTo c now x) := by
  cases x with
  | push v =>
    show (g.push now v).Alike (g.pushTo c now v) ∨ (g.push now v).cancel.Alike (g.pushTo c now v)
    unfold pushTo
    dsimp only
    obtain takes | cancels := deliverTo_cases c { g with
      pacer := (g.pacer.push now v).1
      timers := g.timers ++ timerSet g.pacer (g.pacer.push now v).1 } now (g.pacer.push now v).2
    · rw [takes]
      exact .inl (alike_self _)
    · rw [cancels]
      exact .inr (alike_self _)
  | drain k => exact .inl (alike_self _)
  | cancel => exact .inl (alike_self _)
  | timer due =>
    show (if _ then _ else _ : Pacing α κ).Alike (if _ then _ else _) ∨
      (if _ then _ else _ : Pacing α κ).cancel.Alike (if _ then _ else _)
    split
    · unfold expireTo
      dsimp only
      obtain takes | cancels := deliverTo_cases c { g with
        pacer := (g.pacer.expire now).1
        timers := g.timers.erase due } now (g.pacer.expire now).2
      · rw [takes]
        exact .inl (alike_self _)
      · rw [cancels]
        refine .inr ⟨rfl, rfl, ?_⟩
        exact (deliveries_call _ _ _).trans (deliveries_call _ _ _).symm
    · exact .inl (alike_self _)

/-- What a pacing with a recipient keeps: it is up to date unless it is cancelled, and a callback
waits only while a timer is set. -/
structure Attended (values : List α) (g : Pacing α κ) : Prop where
  among : g.Among values
  current : g.pacer.cancelled = false → g.Current values
  patient : g.pacer.due = none → g.pacer.waiting = none

/-! ### What one happening does to callbacks -/

/-- The callbacks that were called, in the order of their calls. -/
def called (g : Pacing α κ) : List κ := g.record.filterMap fun n => n.2.callback?

/-- The callbacks that are to be called among happenings, in their order. -/
def callbacks (happenings : List (Rat × Happening α κ)) : List κ :=
  happenings.filterMap fun x => x.2.callback?

theorem callbacks_cons (x : Rat × Happening α κ) (rest : List (Rat × Happening α κ)) :
    callbacks (x :: rest) = x.2.callback?.toList ++ callbacks rest := by
  obtain ⟨now, h⟩ := x
  cases h <;> rfl

theorem called_deliver (g : Pacing α κ) (now : Rat) (v : Option α) :
    (g.deliver now v).called = g.called := by
  cases v <;> simp [called, deliver, Notice.callback?]

theorem called_call (g : Pacing α κ) (now : Rat) (k : Option κ) :
    (g.call now k).called = g.called ++ k.toList := by
  cases k <;> simp [called, call, Notice.callback?]

/-- What a happening does to the callback that waits and to those that were called. -/
inductive Hears (g : Pacing α κ) (x : Happening α κ) (g' : Pacing α κ) : Prop
  /-- No callback comes, and none is called. -/
  | rests (none' : x.callback? = none) (same : g'.called = g.called)
      (waits : g'.pacer.waiting = g.pacer.waiting)
      (runs : g'.pacer.cancelled = g.pacer.cancelled)
      (busy : g.pacer.due ≠ none → g'.pacer.due ≠ none)
  /-- The pacer is cancelled. -/
  | stopped (none' : x.callback? = none) (same : g'.called = g.called)
      (waits : g'.pacer.waiting = none) (halted : g'.pacer.cancelled = true)
  /-- A callback comes to a pacer that is cancelled. -/
  | refused (k : κ) (comes : x.callback? = some k) (halted : g.pacer.cancelled = true)
      (same : g' = g)
  /-- A callback is called at once. -/
  | answered (k : κ) (comes : x.callback? = some k) (running : g.pacer.cancelled = false)
      (idle : g.pacer.due = none) (same : g'.pacer = g.pacer)
      (calls : g'.called = g.called ++ [k])
  /-- A callback has to wait. -/
  | kept (k : κ) (comes : x.callback? = some k) (running : g.pacer.cancelled = false)
      (busy : g.pacer.due ≠ none) (same : g'.called = g.called)
      (waits : g'.pacer.waiting = some k) (set : g'.pacer.due = g.pacer.due)
  /-- The timer runs out, and the callback that waits is called. -/
  | settled (none' : x.callback? = none) (running : g.pacer.cancelled = false)
      (calls : g'.called = g.called ++ g.pacer.waiting.toList)
      (waits : g'.pacer.waiting = none)

theorem hears_push (c : Recipient α κ) (g : Pacing α κ) (now : Rat) (v : α) :
    g.Hears (.push v) (g.pushTo c now v) := by
  obtain ⟨_, _, _, frame⟩ := g.pacer.push_frame now v
  have busy : g.pacer.due ≠ none → (g.pacer.push now v).1.due ≠ none := by
    intro set
    obtain ⟨due, hdue⟩ := Option.ne_none_iff_exists'.1 set
    cases halted : g.pacer.cancelled with
    | true =>
      rw [Pacer.push_of_cancelled halted]
      exact set
    | false =>
      rw [Pacer.push_of_due halted hdue]
      exact set
  unfold pushTo
  dsimp only
  obtain takes | cancels := deliverTo_cases c { g with
    pacer := (g.pacer.push now v).1
    timers := g.timers ++ timerSet g.pacer (g.pacer.push now v).1 } now (g.pacer.push now v).2
  · rw [takes]
    refine .rests rfl (called_deliver _ _ _) ?_ ?_ busy
    · show (g.pacer.push now v).1.waiting = _
      rw [frame]
    · show (g.pacer.push now v).1.cancelled = _
      rw [frame]
  · rw [cancels]
    exact .stopped rfl (called_deliver _ _ _) rfl rfl

theorem hears_drain (g : Pacing α κ) (now : Rat) (k : κ) : g.Hears (.drain k) (g.drain now k) := by
  cases halted : g.pacer.cancelled with
  | true =>
    refine .refused k rfl halted ?_
    rw [drain, Pacer.drain_of_cancelled halted]
    simp [call]
  | false =>
    have calls : (g.drain now k).called = g.called ++ (g.pacer.drain k).2.toList :=
      called_call _ _ _
    have pacer : (g.drain now k).pacer = (g.pacer.drain k).1 := rfl
    cases set : g.pacer.due with
    | none =>
      rw [Pacer.drain_of_idle halted set] at calls pacer
      exact .answered k rfl halted set pacer calls
    | some t =>
      rw [Pacer.drain_of_due halted set] at calls pacer
      refine .kept k rfl halted (by simp [set]) (calls.trans (List.append_nil _)) ?_ ?_
      · rw [pacer]
      · rw [pacer]

theorem hears_expire (h : g.Spaced) (set : due ∈ g.timers) (c : Recipient α κ) (now : Rat) :
    g.Hears (.timer due) (g.expireTo c now due) := by
  have mine : g.pacer.due = some due := by
    rw [h.timers, Option.mem_toList] at set
    exact set
  obtain ⟨v, _, running, expires⟩ := h.consistent.expire_eq now mine
  unfold expireTo
  rw [expires]
  dsimp only
  obtain takes | cancels := deliverTo_cases c { g with
    pacer := { g.pacer with due := none, pending := none, lastDelivery := some now }
    timers := g.timers.erase due } now (some v)
  · rw [takes]
    refine .settled rfl running ?_ rfl
    rw [called_call]
    refine congrArg₂ (· ++ ·) (called_deliver _ _ _) ?_
    show (if g.pacer.cancelled then none else g.pacer.waiting).toList = _
    rw [running]
    rfl
  · rw [cancels]
    refine .stopped rfl ?_ rfl rfl
    rw [called_call]
    exact (List.append_nil _).trans (called_deliver _ _ _)

theorem hears_stepTo (h : g.Spaced) (c : Recipient α κ) (now : Rat) (x : Happening α κ) :
    g.Hears x (g.stepTo c now x) := by
  cases x with
  | push v => exact hears_push c g now v
  | drain k => exact hears_drain g now k
  | cancel => exact .stopped rfl rfl rfl rfl
  | timer due =>
    show g.Hears (.timer due) (if _ then _ else _)
    split
    · rename_i fires
      exact hears_expire h fires.1 c now
    · exact .rests rfl rfl rfl rfl id

/-! ### Runs -/

theorem attended_fresh (interval : Rat) : (fresh interval : Pacing α κ).Attended [] where
  among := among_fresh interval
  current _ := current_fresh interval
  patient _ := rfl

theorem Attended.stepTo (h : g.Attended values) (c : Recipient α κ) (now : Rat)
    (x : Happening α κ) : (g.stepTo c now x).Attended (values ++ x.value?.toList) where
  among := by
    obtain same | same := alike_stepTo c g now x
    · exact (h.among.step now x).alike same
    · have cancelled := (h.among.step now x).step now .cancel
      rw [show (Happening.cancel : Happening α κ).value? = none from rfl, Option.toList_none,
        List.append_nil] at cancelled
      exact cancelled.alike same
  current := by
    intro runs
    obtain same | same := alike_stepTo c g now x
    · rw [same.pacer] at runs
      have before : g.pacer.cancelled = false := by
        rw [← Bool.not_eq_true]
        intro halted
        rw [(deliveries_step_of_halted h.among.spaced halted now x).1] at runs
        cases runs
      have uncancelled : x.isCancel = false := by
        cases x with
        | cancel => cases runs
        | _ => rfl
      exact ((h.current before).step now uncancelled).alike same
    · rw [same.pacer] at runs
      cases runs
  patient := by
    have hears := hears_stepTo h.among.spaced c now x
    generalize g.stepTo c now x = g' at hears
    intro unset
    cases hears with
    | rests none' same waits runs busy =>
      rw [waits]
      exact h.patient (by_contra fun set => busy set unset)
    | stopped none' same waits => exact waits
    | refused k comes halted same => exact same ▸ h.patient (same ▸ unset)
    | answered k comes running idle same => rw [same]; exact h.patient idle
    | kept k comes running busy same waits set => exact absurd (set.symm.trans unset) busy
    | settled none' running calls waits => exact waits

theorem runTo_concat (c : Recipient α κ) (g : Pacing α κ) (happenings : List (Rat × Happening α κ))
    (now : Rat) (x : Happening α κ) :
    g.runTo c (happenings ++ [(now, x)]) = (g.runTo c happenings).stepTo c now x :=
  List.foldl_append

theorem Attended.runTo (h : g.Attended values) (c : Recipient α κ)
    (happenings : List (Rat × Happening α κ)) :
    (g.runTo c happenings).Attended (values ++ pushed happenings) := by
  induction happenings using List.reverseRecOn with
  | nil =>
    rw [pushed, List.filterMap_nil, List.append_nil]
    exact h
  | append_singleton happenings x ih =>
    rw [runTo_concat, pushed_append, pushed_singleton, ← List.append_assoc]
    exact ih.stepTo c x.1 x.2

theorem attended_run (interval : Rat) (c : Recipient α κ)
    (happenings : List (Rat × Happening α κ)) :
    ((fresh interval).runTo c happenings).Attended (pushed happenings) :=
  (attended_fresh interval).runTo c happenings

/-! ### Callbacks are called in their order -/

/-- What a happening calls, with the callback that waits then, comes from the callback that waited
before and the one that comes. -/
theorem Attended.exists_called (h : g.Attended values) (c : Recipient α κ) (now : Rat)
    (x : Happening α κ) : ∃ more, (g.stepTo c now x).called = g.called ++ more ∧
      (more ++ (g.stepTo c now x).pacer.waiting.toList).Sublist
        (g.pacer.waiting.toList ++ x.callback?.toList) := by
  have hears := hears_stepTo h.among.spaced c now x
  generalize g.stepTo c now x = g' at hears
  cases hears with
  | rests none' same waits =>
    refine ⟨[], by simpa using same, ?_⟩
    rw [waits, List.nil_append]
    exact List.sublist_append_left _ _
  | stopped none' same waits =>
    refine ⟨[], by simpa using same, ?_⟩
    rw [waits]
    exact List.nil_sublist _
  | refused k comes halted same =>
    rw [same]
    exact ⟨[], (List.append_nil _).symm, List.sublist_append_left _ _⟩
  | answered k comes running idle same calls =>
    refine ⟨[k], calls, ?_⟩
    rw [same, h.patient idle, comes]
    exact List.Sublist.refl _
  | kept k comes running busy same waits =>
    refine ⟨[], by simpa using same, ?_⟩
    rw [waits, comes, List.nil_append]
    exact List.sublist_append_right _ _
  | settled none' running calls waits =>
    refine ⟨_, calls, ?_⟩
    rw [waits, none']

/-- Whatever happens, the callbacks that are called come from the one that waits and from those that
come later, each at most once and in this order. -/
theorem Attended.exists_called_run (h : g.Attended values) (c : Recipient α κ)
    (rest : List (Rat × Happening α κ)) : ∃ more, (g.runTo c rest).called = g.called ++ more ∧
      more.Sublist (g.pacer.waiting.toList ++ callbacks rest) := by
  induction rest generalizing g values with
  | nil => exact ⟨[], (List.append_nil _).symm, List.nil_sublist _⟩
  | cons x rest ih =>
    obtain ⟨first, calls, among⟩ := h.exists_called c x.1 x.2
    obtain ⟨more, calls', among'⟩ := ih (h.stepTo c x.1 x.2)
    refine ⟨first ++ more, ?_, ?_⟩
    · show ((g.stepTo c x.1 x.2).runTo c rest).called = _
      rw [calls', calls, List.append_assoc]
    · calc (first ++ more).Sublist
            (first ++ ((g.stepTo c x.1 x.2).pacer.waiting.toList ++ callbacks rest)) :=
          among'.append_left first
        _ = (first ++ (g.stepTo c x.1 x.2).pacer.waiting.toList) ++ callbacks rest :=
          (List.append_assoc _ _ _).symm
        List.Sublist _ ((g.pacer.waiting.toList ++ x.2.callback?.toList) ++ callbacks rest) :=
          among.append_right _
        _ = g.pacer.waiting.toList ++ callbacks (x :: rest) := by
          rw [callbacks_cons, List.append_assoc]

/-! ### While a callback waits -/

/-- Whether a happening at its time neither cancels, nor drains, nor lets the timer for a time run
out. -/
def Spares (due : Rat) (x : Rat × Happening α κ) : Prop :=
  match x.2 with
  | .push _ => True
  | .timer t => t = due → x.1 < due
  | _ => False

/-- While a timer is set, a happening that spares it changes at most which value waits. -/
theorem stepTo_of_spares (h : g.Spaced) (set : g.pacer.due = some due) (c : Recipient α κ)
    {x : Rat × Happening α κ} (spares : Spares due x) :
    ∃ pending, g.stepTo c x.1 x.2 = { g with pacer := { g.pacer with pending } } := by
  obtain ⟨now, x⟩ := x
  obtain ⟨w, waited, running, _⟩ := h.consistent.expire_eq now set
  cases x with
  | push v =>
    have unset (p : Pacer α κ) : timerSet g.pacer p = [] := by
      rw [timerSet, set]
      rfl
    refine ⟨some v, ?_⟩
    show g.pushTo c now v = _
    rw [pushTo, Pacer.push_of_due running set, unset]
    simp [deliverTo, deliver]
  | timer t =>
    have early : ¬ (t ∈ g.timers ∧ t ≤ now) := by
      rintro ⟨mine, reached⟩
      rw [h.timers, set] at mine
      have same : t = due := by simpa using mine
      exact absurd (same ▸ reached) (not_le.2 (spares same))
    exact ⟨g.pacer.pending, if_neg early⟩
  | drain k => exact spares.elim
  | cancel => exact spares.elim

/-- While a timer is set, happenings that spare it record nothing, and a callback stays waiting. -/
theorem runTo_of_spares (h : g.Spaced) (set : g.pacer.due = some due) (c : Recipient α κ)
    {happenings : List (Rat × Happening α κ)} (spares : ∀ x ∈ happenings, Spares due x) :
    ∃ pending, g.runTo c happenings = { g with pacer := { g.pacer with pending } } := by
  induction happenings generalizing g with
  | nil => exact ⟨g.pacer.pending, rfl⟩
  | cons x rest ih =>
    obtain ⟨pending, same⟩ := stepTo_of_spares h set c (spares x (.head _))
    have spaced : (g.stepTo c x.1 x.2).Spaced := by
      obtain alike | alike := alike_stepTo c g x.1 x.2
      · exact (h.step x.2).alike alike
      · exact (h.step x.2).cancel.alike alike
    have still : (g.stepTo c x.1 x.2).pacer.due = some due := by
      rw [same]
      exact set
    obtain ⟨later, run⟩ := ih spaced still fun y hy => spares y (.tail _ hy)
    refine ⟨later, ?_⟩
    show (g.stepTo c x.1 x.2).runTo c rest = _
    rw [run, same]

/-! ### The fate of a callback -/

/-- No callback is called any more, whatever happens. -/
def Silent (c : Recipient α κ) (g : Pacing α κ) : Prop :=
  ∀ rest, (g.runTo c rest).called = g.called

/-- No callback is left to be called, whatever happens: those that are called come later, each is
called at most once, and in their order. -/
def Settled (c : Recipient α κ) (g : Pacing α κ) : Prop :=
  ∀ rest, ∃ more, more.Sublist (callbacks rest) ∧ (g.runTo c rest).called = g.called ++ more

/-- Each of some values is delivered, or superseded by a later one that is delivered. -/
def Covered (values delivered : List α) : Prop :=
  ∀ earlier v later, values = earlier ++ v :: later → ∃ w ∈ v :: later, w ∈ delivered

theorem covered_of_getLast? {values delivered : List α}
    (last : delivered.getLast? = values.getLast?) : Covered values delivered := by
  rintro earlier v later rfl
  have ends : (earlier ++ v :: later).getLast? =
      some ((v :: later).getLast (List.cons_ne_nil _ _)) := by
    rw [List.getLast?_append_of_ne_nil _ (List.cons_ne_nil _ _),
      List.getLast?_eq_some_getLast (List.cons_ne_nil _ _)]
  exact ⟨_, List.getLast_mem _, List.mem_of_getLast? (last.trans ends)⟩

theorem Attended.silent (h : g.Attended values) (halted : g.pacer.cancelled = true) :
    g.Silent c := by
  intro rest
  induction rest generalizing g values with
  | nil => rfl
  | cons x rest ih =>
    have next := h.stepTo c x.1 x.2
    have hears := hears_stepTo h.among.spaced c x.1 x.2
    have stays : (g.stepTo c x.1 x.2).pacer.cancelled = true ∧
        (g.stepTo c x.1 x.2).called = g.called := by
      generalize g.stepTo c x.1 x.2 = g' at hears
      cases hears with
      | rests none' same waits runs => exact ⟨runs.trans halted, same⟩
      | stopped none' same waits halted' => exact ⟨halted', same⟩
      | refused k comes _ same =>
        rw [same]
        exact ⟨halted, rfl⟩
      | answered k comes running => cases halted.symm.trans running
      | kept k comes running => cases halted.symm.trans running
      | settled none' running => cases halted.symm.trans running
    show ((g.stepTo c x.1 x.2).runTo c rest).called = _
    rw [ih next stays.1, stays.2]

theorem Attended.settled (h : g.Attended values) (none' : g.pacer.waiting = none) :
    g.Settled c := by
  intro rest
  obtain ⟨more, calls, among⟩ := h.exists_called_run c rest
  rw [none'] at among
  exact ⟨more, among, calls⟩

/-- A callback that comes when nothing waits is called at once. -/
theorem drain_of_idle (running : g.pacer.cancelled = false) (idle : g.pacer.due = none)
    (now : Rat) (k : κ) :
    g.drain now k = { g with record := g.record ++ [(now, .called k)] } := by
  rw [drain, Pacer.drain_of_idle running idle]
  rfl

/-- A callback that comes when a value waits, waits with it. -/
theorem drain_of_due (running : g.pacer.cancelled = false) (set : g.pacer.due = some due)
    (now : Rat) (k : κ) :
    g.drain now k = { g with pacer := { g.pacer with waiting := some k } } := by
  rw [drain, Pacer.drain_of_due running set]
  simp [call]

/-- When the timer runs out, the value that waits is delivered. Right behind it the callback that
waits is called, unless the recipient cancels inside the delivery. -/
theorem stepTo_timer (h : g.Spaced) (set : g.pacer.due = some due) (reached : due ≤ now) {k : κ}
    (waiting : g.pacer.waiting = some k) (c : Recipient α κ) :
    ∃ v, g.pacer.pending = some v ∧
      (g.stepTo c now (.timer due)).pacer.cancelled = c (g.record ++ [(now, Notice.delivered v)]) ∧
      (g.stepTo c now (.timer due)).pacer.due = none ∧
      (g.stepTo c now (.timer due)).pacer.waiting = none ∧
      (g.stepTo c now (.timer due)).record = g.record ++ (now, Notice.delivered v) ::
        (if c (g.record ++ [(now, Notice.delivered v)]) then [] else [(now, Notice.called k)]) := by
  obtain ⟨v, waited, running, expires⟩ := h.consistent.expire_eq now set
  have mine : due ∈ g.timers := by
    rw [h.timers, set]
    exact .head _
  refine ⟨v, waited, ?_⟩
  rw [stepTo, if_pos ⟨mine, reached⟩, expireTo, expires]
  dsimp only
  rw [deliverTo_some]
  cases cancels : c (g.record ++ [(now, Notice.delivered v)]) with
  | true => exact ⟨rfl, rfl, rfl, List.append_nil _⟩
  | false =>
    refine ⟨running, rfl, rfl, ?_⟩
    show (g.record ++ [(now, Notice.delivered v)]) ++ (if g.pacer.cancelled then none
      else g.pacer.waiting).toList.map (fun k => (now, Notice.called k)) = _
    rw [running, waiting, List.append_assoc]
    rfl

/-- A pacer that is up to date and has no timer set has delivered the latest value. -/
theorem Attended.covered (h : g.Attended values) (running : g.pacer.cancelled = false)
    (idle : g.pacer.due = none) : Covered values g.delivered :=
  covered_of_getLast? ((h.current running).last
    (h.among.spaced.consistent.pending_eq_none idle))

/-- A callback that comes when nothing waits is called, all values being through, and never
again. -/
theorem Attended.drain_of_idle (h : g.Attended values) (running : g.pacer.cancelled = false)
    (idle : g.pacer.due = none) (c : Recipient α κ) (now : Rat) (k : κ) :
    (g.drain now k).record = g.record ++ [(now, Notice.called k)] ∧
      Covered values (g.drain now k).delivered ∧ (g.drain now k).Settled c := by
  have next : (g.stepTo c now (.drain k)).Attended values := by
    simpa [Happening.value?] using h.stepTo c now (.drain k)
  have next : (g.drain now k).Attended values := next
  rw [Pacing.drain_of_idle running idle] at next ⊢
  exact ⟨rfl, next.covered running idle, next.settled (h.patient idle)⟩

/-- When the timer runs out, the latest value is delivered. If the recipient takes it, the callback
that waits is called right behind it, all values being through, and never again. If the recipient
cancels, the callback is never called. -/
theorem Attended.timer (h : g.Attended values) (set : g.pacer.due = some due) (reached : due ≤ now)
    {k : κ} (waiting : g.pacer.waiting = some k) (c : Recipient α κ) :
    ∃ v, values.getLast? = some v ∧
      (c (g.record ++ [(now, Notice.delivered v)]) = true →
        (g.stepTo c now (.timer due)).record = g.record ++ [(now, Notice.delivered v)] ∧
          (g.stepTo c now (.timer due)).Silent c) ∧
      (c (g.record ++ [(now, Notice.delivered v)]) = false →
        (g.stepTo c now (.timer due)).record =
            g.record ++ [(now, Notice.delivered v), (now, Notice.called k)] ∧
          Covered values (g.stepTo c now (.timer due)).delivered ∧
          (g.stepTo c now (.timer due)).Settled c) := by
  obtain ⟨v, waited, cancelled, idle, called, fires⟩ :=
    stepTo_timer h.among.spaced set reached waiting c
  have last : (g.stepTo c now (.timer due)).Attended values := by
    simpa [Happening.value?] using h.stepTo c now (.timer due)
  obtain ⟨earlier, latest, _⟩ := h.among.waits v waited
  refine ⟨v, by rw [latest, List.getLast?_concat], fun cancels => ?_, fun takes => ?_⟩
  · rw [cancels] at cancelled fires
    exact ⟨fires, last.silent cancelled⟩
  · rw [takes] at cancelled fires
    exact ⟨fires, last.covered cancelled idle, last.settled called⟩

/-- Whatever happened to a fresh pacer before a callback drains it: if the pacer is cancelled, the
callback is never called. If nothing waits, it is called at once, when all values that came are
delivered or superseded, and never again. If a value waits, the callback waits with it, whatever
values come meanwhile. A cancellation then drops it. If the timer runs out first, the latest value
is delivered and the callback called right behind it and never again, when all values that came are
delivered or superseded; but if the recipient cancels inside this delivery, it is never called. -/
theorem drained_of_run (interval : Rat) (c : Recipient α κ) (before : List (Rat × Happening α κ))
    (now : Rat) (k : κ) :
    let g : Pacing α κ := (fresh interval).runTo c before
    let drained := g.stepTo c now (.drain k)
    (g.pacer.cancelled = true → drained = g ∧ drained.Silent c) ∧
    (g.pacer.cancelled = false → g.pacer.hasPending = false →
      drained.record = g.record ++ [(now, .called k)] ∧
        Covered (pushed before) drained.delivered ∧ drained.Settled c) ∧
    (g.pacer.hasPending = true → ∃ due, g.timers = [due] ∧ drained.record = g.record ∧
      ∀ meanwhile, (∀ x ∈ meanwhile, Spares due x) →
        let waits := drained.runTo c meanwhile
        waits.record = g.record ∧
        (∀ t, (waits.stepTo c t .cancel).record = g.record ∧ (waits.stepTo c t .cancel).Silent c) ∧
        ∀ t, due ≤ t → ∃ v, (pushed (before ++ meanwhile)).getLast? = some v ∧
          let fired := waits.stepTo c t (.timer due)
          (c (g.record ++ [(t, .delivered v)]) = true →
            fired.record = g.record ++ [(t, .delivered v)] ∧ fired.Silent c) ∧
          (c (g.record ++ [(t, .delivered v)]) = false →
            fired.record = g.record ++ [(t, .delivered v), (t, .called k)] ∧
              Covered (pushed (before ++ meanwhile)) fired.delivered ∧ fired.Settled c)) := by
  intro g drained
  have attended : g.Attended (pushed before) := attended_run interval c before
  have next : drained.Attended (pushed before) := by
    simpa [Happening.value?] using attended.stepTo c now (.drain k)
  have timed : g.pacer.hasPending = g.pacer.due.isSome :=
    attended.among.spaced.consistent.waits.symm
  refine ⟨fun halted => ?_, fun running idle => ?_, fun busy => ?_⟩
  · have same : drained = g := by
      show g.drain now k = g
      rw [drain, Pacer.drain_of_cancelled halted]
      simp [call]
    exact ⟨same, next.silent (same ▸ halted)⟩
  · have unset : g.pacer.due = none := by simpa [timed] using idle
    exact attended.drain_of_idle running unset c now k
  · obtain ⟨due, set⟩ := Option.isSome_iff_exists.1 (timed.symm.trans busy)
    obtain ⟨_, _, running, _⟩ := attended.among.spaced.consistent.expire_eq now set
    have same : drained = { g with pacer := { g.pacer with waiting := some k } } :=
      drain_of_due running set now k
    have still : drained.pacer.due = some due := by
      rw [same]
      exact set
    refine ⟨due, by rw [attended.among.spaced.timers, set]; rfl, by rw [same], ?_⟩
    intro meanwhile spares waits
    obtain ⟨pending, run⟩ := runTo_of_spares next.among.spaced still c spares
    have run : waits = { drained with pacer := { drained.pacer with pending } } := run
    have later : waits.Attended (pushed (before ++ meanwhile)) := by
      rw [pushed_append]
      exact next.runTo c meanwhile
    have record : waits.record = g.record := by rw [run, same]
    have set' : waits.pacer.due = some due := by
      rw [run]
      exact still
    have waiting : waits.pacer.waiting = some k := by rw [run, same]
    refine ⟨record, fun t => ⟨record, (later.stepTo c t .cancel).silent rfl⟩, fun t reached => ?_⟩
    rw [← record]
    exact later.timer set' reached waiting c

/-- A value waits when the callback comes, another one takes its place, and the callback is called
right behind that one. -/
theorem drained_of_run_late :
    let c : Recipient String String := fun _ => false
    let g := (fresh 1000).runTo c [(0, .push "a"), (100, .push "b")]
    let waits := (g.stepTo c 150 (.drain "done")).runTo c [(200, .push "c")]
    g.pacer.hasPending = true ∧
      (∀ x ∈ [((200 : Rat), (.push "c" : Happening String String))], Spares 1000 x) ∧
      (waits.stepTo c 1000 (.timer 1000)).record =
        g.record ++ [(1000, .delivered "c"), (1000, .called "done")] := by
  intro c g waits
  have busy : g.pacer.hasPending = true := by decide +kernel
  have spares : ∀ x ∈ [((200 : Rat), (.push "c" : Happening String String))], Spares 1000 x := by
    simp [Spares]
  obtain ⟨due, timers, _, run⟩ :=
    (drained_of_run 1000 c [(0, .push "a"), (100, .push "b")] 150 "done").2.2 busy
  have outstanding : g.timers = [1000] := by decide +kernel
  cases List.singleton_inj.1 (timers.symm.trans outstanding)
  obtain ⟨v, latest, _, called⟩ := (run _ spares).2.2 1000 (le_refl _)
  cases latest
  exact ⟨busy, spares, (called rfl).1⟩

/-- A recipient that cancels inside the last delivery keeps the callback from being called. -/
example : ((fresh 1000 : Pacing String String).runTo (fun record => record.length == 2)
    [(0, .push "a"), (100, .push "b"), (150, .drain "done"), (1000, .timer 1000)]).called = [] := by
  decide +kernel

end Pacing

end GraphRequest

import Mathlib.Algebra.Order.Ring.Rat
import Mathlib.Data.List.Chain
import Mathlib.Tactic.Linarith
import GraphRequest.Delivery.Pacing

/-!
# Deliveries are spaced

A pacer has a timer just when a value waits, and the timer is set for one interval after the last
delivery. Every operation keeps this, so what a pacer lets through is spaced by its interval,
whatever happens to it, and a scheduler never holds more than one timer for it.

* `Pacer.Consistent`: the state of a pacer between operations, with one lemma for each operation.
* `Pacing.spaced_of_run`: a pacing after any happenings. The clock may even go back.
-/

namespace GraphRequest

namespace Pacer

variable {α κ : Type} {p : Pacer α κ} {now : Rat}

/-- A pacer has a timer just when a value waits. The timer is set for one interval after the last
delivery. A cancelled pacer has nothing that waits. -/
structure Consistent (p : Pacer α κ) : Prop where
  waits : p.due.isSome = p.pending.isSome
  due : ∀ t ∈ p.due, ∃ last ∈ p.lastDelivery, t = last + p.interval
  stopped : p.cancelled = true → p.due = none ∧ p.waiting = none

theorem consistent_fresh (interval : Rat) : (fresh interval : Pacer α κ).Consistent where
  waits := rfl
  due := by simp [fresh]
  stopped := by simp [fresh]

/-! ### Values -/

/-- A pacer that is not rested delivered something less than an interval ago. -/
theorem exists_lastDelivery (h : p.isRested now = false) :
    ∃ last, p.lastDelivery = some last ∧ now < last + p.interval := by
  unfold isRested at h
  split at h
  · cases h
  · rename_i last hl
    have early : ¬ p.interval ≤ now - last := by simpa using h
    exact ⟨last, hl, by linarith⟩

/-- A value that has to wait waits for one interval after the last delivery. -/
theorem nextTime_of_not_rested (h : p.isRested now = false) :
    ∃ last ∈ p.lastDelivery, p.nextTime now = last + p.interval := by
  obtain ⟨last, hl, early⟩ := exists_lastDelivery h
  refine ⟨last, hl, ?_⟩
  rw [nextTime, hl]
  exact if_pos early.le

theorem isRested_of_due_none (hd : p.due = none) (ho : p.isOpen now = false) :
    p.isRested now = false := by
  rw [isOpen, hd] at ho
  simpa using ho

theorem Consistent.push (h : p.Consistent) (v : α) : (p.push now v).1.Consistent := by
  unfold Pacer.push
  split
  · exact h
  · rename_i hc
    split
    · rename_i ho
      have idle : p.due = none := by
        simp only [isOpen, Bool.and_eq_true, Option.isNone_iff_eq_none] at ho
        exact ho.1
      exact ⟨h.waits, by simp [idle], fun c => absurd c hc⟩
    · rename_i ho
      have next (hd : p.due = none) : ∃ last ∈ p.lastDelivery, p.nextTime now = last + p.interval :=
        nextTime_of_not_rested (isRested_of_due_none hd (by simpa using ho))
      refine ⟨rfl, ?_, fun c => absurd c hc⟩
      rintro t ⟨⟩
      cases hd : p.due with
      | some t => exact h.due t hd
      | none => exact next hd

/-- What an operation lets through at a time: nothing, or a value that comes at least an interval
after the last delivery. -/
inductive Releases (p : Pacer α κ) (now : Rat) (after : Pacer α κ) : Option α → Prop
  | held (same : after.lastDelivery = p.lastDelivery) : Releases p now after none
  | released (v : α) (last : after.lastDelivery = some now)
      (apart : ∀ last ∈ p.lastDelivery, last + p.interval ≤ now) : Releases p now after (some v)

theorem le_of_isOpen (h : p.isOpen now = true) :
    ∀ last ∈ p.lastDelivery, last + p.interval ≤ now := by
  intro last hl
  simp only [isOpen, isRested, Option.mem_def.1 hl, Bool.and_eq_true, decide_eq_true_eq] at h
  linarith [h.2]

theorem releases_push (p : Pacer α κ) (now : Rat) (v : α) :
    Releases p now (p.push now v).1 (p.push now v).2 := by
  unfold Pacer.push
  split
  · exact .held rfl
  · split
    · rename_i ho
      exact .released v rfl (le_of_isOpen ho)
    · exact .held rfl

/-- A value that comes changes at most the last delivery and what waits for a timer. -/
theorem push_frame (p : Pacer α κ) (now : Rat) (v : α) :
    ∃ lastDelivery pending due, (p.push now v).1 = { p with lastDelivery, pending, due } := by
  unfold Pacer.push
  split
  · exact ⟨_, _, _, rfl⟩
  · split
    · exact ⟨_, _, _, rfl⟩
    · exact ⟨_, _, _, rfl⟩

theorem interval_push (p : Pacer α κ) (now : Rat) (v : α) :
    (p.push now v).1.interval = p.interval := by
  obtain ⟨_, _, _, same⟩ := p.push_frame now v
  rw [same]

/-! ### Timers -/

theorem Consistent.settle (h : p.Consistent) : p.settle.1.Consistent :=
  ⟨h.waits, h.due, fun c => ⟨(h.stopped c).1, rfl⟩⟩

/-- When its timer runs out, a pacer has no timer and nothing waits. -/
theorem Consistent.expire (h : p.Consistent) : (p.expire now).1.Consistent := by
  unfold Pacer.expire
  split
  · rename_i hc
    have none' : p.pending = none := by
      have := h.waits
      rw [(h.stopped hc).1] at this
      simpa using this.symm
    exact ⟨by simp [none'], by simp, fun c => ⟨rfl, (h.stopped c).2⟩⟩
  · rename_i hc
    split
    · rename_i hp
      exact ⟨by simp [hp], by simp, fun c => absurd c hc⟩
    · exact ⟨rfl, by simp, fun c => absurd c hc⟩

/-- A timer that is set has its value delivered when it runs out. -/
theorem Consistent.expire_eq (h : p.Consistent) (now : Rat) {t : Rat} (ht : p.due = some t) :
    ∃ v, p.pending = some v ∧ p.cancelled = false ∧
      p.expire now =
        ({ p with due := none, pending := none, lastDelivery := some now }, some v) := by
  have running : p.cancelled = false := by
    by_contra hc
    have := (h.stopped (by simpa using hc)).1
    rw [ht] at this
    cases this
  have waits := h.waits
  rw [ht] at waits
  obtain ⟨v, hv⟩ := Option.isSome_iff_exists.1 waits.symm
  refine ⟨v, hv, running, ?_⟩
  rw [Pacer.expire, hv, running]
  rfl

/-- A timer that does not run out early releases its value an interval after the last delivery. -/
theorem Consistent.releases_expire (h : p.Consistent) {t : Rat} (ht : p.due = some t)
    (reached : t ≤ now) : Releases p now (p.expire now).1 (p.expire now).2 := by
  obtain ⟨v, _, _, expires⟩ := h.expire_eq now ht
  rw [expires]
  refine .released v rfl ?_
  intro last hl
  obtain ⟨last', hl', rfl⟩ := h.due t ht
  rw [Option.mem_unique hl hl']
  exact reached

/-- A timer that runs out changes at most the last delivery and what waits for it. -/
theorem expire_frame (p : Pacer α κ) (now : Rat) :
    ∃ lastDelivery pending, (p.expire now).1 = { p with lastDelivery, pending, due := none } := by
  unfold Pacer.expire
  split
  · exact ⟨_, _, rfl⟩
  · split
    · exact ⟨_, _, rfl⟩
    · exact ⟨_, _, rfl⟩

theorem interval_expire (p : Pacer α κ) (now : Rat) :
    (p.expire now).1.interval = p.interval := by
  obtain ⟨_, _, same⟩ := p.expire_frame now
  rw [same]

theorem due_expire (p : Pacer α κ) (now : Rat) : (p.expire now).1.due = none := by
  obtain ⟨_, _, same⟩ := p.expire_frame now
  rw [same]

/-! ### Other operations -/

theorem Consistent.drain (h : p.Consistent) (k : κ) : (p.drain k).1.Consistent := by
  unfold Pacer.drain
  split
  · exact h
  · rename_i hc
    split
    · exact h
    · exact ⟨h.waits, h.due, fun c => absurd c hc⟩

/-- Draining changes at most which callback waits. -/
theorem drain_frame (p : Pacer α κ) (k : κ) : ∃ waiting, (p.drain k).1 = { p with waiting } := by
  unfold Pacer.drain
  split
  · exact ⟨p.waiting, rfl⟩
  · split
    · exact ⟨p.waiting, rfl⟩
    · exact ⟨some k, rfl⟩

theorem consistent_cancel (p : Pacer α κ) : p.cancel.Consistent :=
  ⟨rfl, by simp [cancel], fun _ => ⟨rfl, rfl⟩⟩

end Pacer

namespace Pacing

variable {α κ : Type} {g : Pacing α κ} {now : Rat}

/-! ### Deliveries -/

theorem deliveries_deliver (g : Pacing α κ) (now : Rat) (v : Option α) :
    (g.deliver now v).deliveries = g.deliveries ++ v.toList.map (now, ·) := by
  cases v <;> simp [deliveries, deliver, Notice.value?]

theorem deliveries_call (g : Pacing α κ) (now : Rat) (callback : Option κ) :
    (g.call now callback).deliveries = g.deliveries := by
  cases callback <;> simp [deliveries, call, Notice.value?]

/-- A pacing whose deliveries are spaced, with at most one timer. -/
structure Spaced (g : Pacing α κ) : Prop where
  consistent : g.pacer.Consistent
  timers : g.timers = g.pacer.due.toList
  last : g.pacer.lastDelivery = g.deliveries.getLast?.map Prod.fst
  spaced : g.deliveries.IsChain fun x y => x.1 + g.pacer.interval ≤ y.1

theorem spaced_fresh (interval : Rat) : (fresh interval : Pacing α κ).Spaced where
  consistent := Pacer.consistent_fresh interval
  timers := rfl
  last := rfl
  spaced := .nil

/-- What a pacer releases keeps the deliveries spaced. -/
theorem Spaced.deliver (h : g.Spaced) {p : Pacer α κ} {timers : List Rat} {out : Option α}
    (consistent : p.Consistent) (interval : p.interval = g.pacer.interval)
    (set : timers = p.due.toList) (releases : g.pacer.Releases now p out) :
    (Pacing.deliver { g with pacer := p, timers } now out).Spaced := by
  refine ⟨consistent, set, ?_, ?_⟩
  · rw [deliveries_deliver]
    cases releases with
    | held same =>
      show p.lastDelivery = (g.deliveries ++ []).getLast?.map Prod.fst
      rw [same, h.last, List.append_nil]
    | released v last apart =>
      show p.lastDelivery = (g.deliveries ++ [(now, v)]).getLast?.map Prod.fst
      rw [last, List.getLast?_concat]
      rfl
  · rw [deliveries_deliver]
    show (g.deliveries ++ _).IsChain fun x y => x.1 + p.interval ≤ y.1
    rw [interval]
    cases releases with
    | held => simpa using h.spaced
    | released v last apart =>
      apply List.isChain_append.2
      refine ⟨h.spaced, List.isChain_singleton _, ?_⟩
      intro x hx y hy
      cases hy
      apply apart x.1
      rw [h.last, Option.mem_def.1 hx]
      rfl

theorem Spaced.call (h : g.Spaced) (callback : Option κ) : (g.call now callback).Spaced where
  consistent := h.consistent
  timers := h.timers
  last := by
    rw [deliveries_call]
    exact h.last
  spaced := by
    rw [deliveries_call]
    exact h.spaced

theorem Spaced.settle (h : g.Spaced) : Spaced { g with pacer := g.pacer.settle.1 } :=
  ⟨h.consistent.settle, h.timers, h.last, h.spaced⟩

/-! ### Happenings -/

/-- A pacer sets a timer only when it has none. -/
theorem timers_push (h : g.Spaced) (v : α) :
    g.timers ++ timerSet g.pacer (g.pacer.push now v).1 = (g.pacer.push now v).1.due.toList := by
  rw [h.timers, timerSet]
  cases hd : g.pacer.due with
  | none => rfl
  | some t =>
    have kept : (g.pacer.push now v).1.due = some t := by
      unfold Pacer.push
      split
      · exact hd
      · split
        · exact hd
        · simp [hd]
    simp [kept]

theorem Spaced.push (h : g.Spaced) (v : α) : (g.push now v).Spaced :=
  h.deliver (h.consistent.push v) (Pacer.interval_push _ _ _) (timers_push h v)
    (Pacer.releases_push _ _ _)

theorem Spaced.drain (h : g.Spaced) (k : κ) : (g.drain now k).Spaced := by
  obtain ⟨waiting, same⟩ := g.pacer.drain_frame k
  apply Spaced.call
  refine ⟨h.consistent.drain k, ?_, ?_, ?_⟩
  · rw [same]
    exact h.timers
  · rw [same]
    exact h.last
  · rw [same]
    exact h.spaced

theorem Spaced.cancel (h : g.Spaced) : g.cancel.Spaced where
  consistent := Pacer.consistent_cancel _
  timers := by
    show g.pacer.due.elim g.timers g.timers.erase = []
    rw [h.timers]
    cases g.pacer.due <;> simp
  last := h.last
  spaced := h.spaced

theorem Spaced.expire (h : g.Spaced) {due : Rat} (set : due ∈ g.timers) (reached : due ≤ now) :
    (g.expire now due).Spaced := by
  have mine : g.pacer.due = some due := by
    rw [h.timers, Option.mem_toList] at set
    exact set
  have releases := h.consistent.releases_expire mine reached
  have taken : g.timers.erase due = (g.pacer.expire now).1.due.toList := by
    rw [Pacer.due_expire, h.timers, mine]
    simp
  have delivered := h.deliver h.consistent.expire (Pacer.interval_expire _ now) taken releases
  exact delivered.settle.call _

/-- Whatever happens, deliveries stay spaced. -/
theorem Spaced.step (h : g.Spaced) (x : Happening α κ) : (g.step now x).Spaced := by
  cases x with
  | push v => exact h.push v
  | drain k => exact h.drain k
  | cancel => exact h.cancel
  | timer due =>
    show (if _ then _ else _ : Pacing α κ).Spaced
    split
    · rename_i fires
      exact h.expire fires.1 fires.2
    · exact h

theorem Spaced.run (h : g.Spaced) (happenings : List (Rat × Happening α κ)) :
    (g.run happenings).Spaced := by
  induction happenings generalizing g with
  | nil => exact h
  | cons x rest ih => exact ih (h.step x.2)

theorem interval_step (g : Pacing α κ) (now : Rat) (x : Happening α κ) :
    (g.step now x).pacer.interval = g.pacer.interval := by
  cases x with
  | push v => exact Pacer.interval_push _ _ _
  | drain k =>
    obtain ⟨waiting, same⟩ := g.pacer.drain_frame k
    show (g.pacer.drain k).1.interval = _
    rw [same]
  | cancel => rfl
  | timer due =>
    show (if _ then _ else _ : Pacing α κ).pacer.interval = _
    split
    · exact Pacer.interval_expire _ _
    · rfl

theorem interval_run (g : Pacing α κ) (happenings : List (Rat × Happening α κ)) :
    (g.run happenings).pacer.interval = g.pacer.interval := by
  induction happenings generalizing g with
  | nil => rfl
  | cons x rest ih => exact (ih _).trans (interval_step g x.1 x.2)

/-- Whatever happens to a fresh pacer, two deliveries in a row are an interval apart, and at most
one timer is outstanding: one just when a value waits, set for an interval after the last delivery.
Times need not even grow. -/
theorem spaced_of_run (interval : Rat) (happenings : List (Rat × Happening α κ)) :
    let g : Pacing α κ := (fresh interval).run happenings
    g.deliveries.IsChain (fun x y => x.1 + interval ≤ y.1) ∧ g.timers.length ≤ 1 ∧
      (g.timers ≠ [] ↔ g.pacer.hasPending = true) ∧
      ∀ due ∈ g.timers, ∃ x, g.deliveries.getLast? = some x ∧ due = x.1 + interval := by
  intro g
  have h : g.Spaced := (spaced_fresh interval).run happenings
  have kept : g.pacer.interval = interval := interval_run (fresh interval) happenings
  refine ⟨?_, ?_, ?_, ?_⟩
  · rw [← kept]
    exact h.spaced
  · rw [h.timers]
    exact Option.length_toList_le
  · rw [h.timers, Pacer.hasPending, ← h.consistent.waits]
    cases g.pacer.due <;> simp
  · intro due hd
    rw [h.timers, Option.mem_toList] at hd
    obtain ⟨last, hl, rfl⟩ := h.consistent.due due hd
    rw [h.last, Option.mem_map] at hl
    obtain ⟨x, hx, rfl⟩ := hl
    exact ⟨x, hx, by rw [kept]⟩

/-- Of the values that come within an interval, the last one is delivered at its end. -/
example : ((fresh 1000 : Pacing String Unit).run [(0, .push "a"), (100, .push "b"),
    (250, .push "c"), (1000, .timer 1000)]).deliveries = [(0, "a"), (1000, "c")] := by
  decide +kernel

end Pacing

end GraphRequest

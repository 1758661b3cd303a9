import GraphRequest.Proofs.Delivery.Callbacks
import GraphRequest.Proofs.Delivery.Spacing

/-!
# How the parts of a delivery go together

A delivery has a state, a task and a pacer, which are changed at different places. Every move leaves
them in step: a pacer stops just when the delivery is over, an end is announced just when there is
one, and nothing waits for a pacer while the task goes on.

* `Coherent`: how the parts go together.
* `Coherent.move`: moves keep it, so it holds after every run.
-/

namespace GraphRequest

namespace Delivery

/-- How the state, the task and the pacer of a delivery go together. -/
structure Coherent (d : Delivery) : Prop where
  /-- Before the start there is neither a task nor a pacer. -/
  idle : d.lifecycle = .idle → d.task = .absent ∧ d.pacer = none
  /-- Once there is a task, an end is announced just when there is one. -/
  closed : d.task ≠ .absent → d.closed = some d.lifecycle.isFinal
  /-- Only a task at work is asked to stop, and only when the delivery is over. -/
  stopping : d.stopping = true → d.lifecycle.isFinal = true ∧ d.task.isRunning = true
  /-- A pacer stops when the delivery is over. -/
  pacer : ∀ p ∈ d.pacer, p.Consistent ∧ p.cancelled = d.lifecycle.isFinal
  /-- The end waits for the pacer only once the task has finished. -/
  waits : d.task ≠ .finished → ∀ p ∈ d.pacer, p.waiting = none
  /-- Pushed results are paced. -/
  paced : d.mode = some .push → d.pacer.isSome = true
  /-- Only pushed results come from a stream. -/
  listens : d.task.pushes = true → d.mode = some .push

variable {c : Consumer} {s : Subscription} {d d' : Delivery} {now : Rat}

theorem coherent_idle : idle.Coherent where
  idle _ := ⟨rfl, rfl⟩
  closed h := absurd rfl h
  stopping h := by cases h
  pacer := by simp [Delivery.idle]
  waits _ := by simp [Delivery.idle]
  paced h := by cases h
  listens h := by cases h

/-- A delivery that is not idle any more. -/
theorem Coherent.of_running (h : Coherent d) (running : d.task.isRunning = true) :
    d.lifecycle ≠ .idle ∧ d.task ≠ .absent ∧ d.task ≠ .finished := by
  obtain ⟨present, unfinished⟩ := Task.isRunning_iff.1 running
  exact ⟨fun idle => present (h.idle idle).1, present, unfinished⟩

theorem Coherent.started (h : Coherent d) (idle : d.lifecycle = .idle) (query : CompiledQuery) :
    Coherent (started s d query) where
  idle fresh := by cases fresh
  closed _ := rfl
  stopping asked := by
    have ceased := (h.stopping asked).1
    rw [idle] at ceased
    cases ceased
  pacer := by
    intro p hp
    simp only [Delivery.started, (h.idle idle).2, Option.mem_def] at hp
    split at hp
    · cases hp
      exact ⟨Pacer.consistent_fresh _, rfl⟩
    · cases hp
  waits _ := by
    intro p hp
    simp only [Delivery.started, (h.idle idle).2, Option.mem_def] at hp
    split at hp
    · cases hp
      rfl
    · cases hp
  paced pushed := by
    have pushed : modeOf s = .push := Option.some.inj pushed
    simp [Delivery.started, pushed]
  listens pushes := by cases pushes

/-- The end of a delivery that is not over stops its pacer and is announced. -/
theorem Coherent.shutDown (h : Coherent d) {l : Lifecycle} (final : l.isFinal = true)
    {stopping : Bool} (asked : stopping = true → d.task.isRunning = true) :
    Coherent { d.shutDown l with stopping } where
  idle fresh := by
    have fresh : l = .idle := fresh
    rw [fresh] at final
    cases final
  closed present := by
    show d.closed.map _ = some l.isFinal
    rw [h.closed present, final]
    rfl
  stopping on := ⟨final, asked on⟩
  pacer := by
    intro p hp
    obtain ⟨p', _, rfl⟩ := Option.mem_map.1 hp
    exact ⟨Pacer.consistent_cancel p', final.symm⟩
  waits _ := by
    intro p hp
    obtain ⟨p', _, rfl⟩ := Option.mem_map.1 hp
    rfl
  paced pushed := by
    show (d.pacer.map _).isSome = true
    rw [Option.isSome_map]
    exact h.paced pushed
  listens := h.listens

theorem Coherent.cancel (h : Coherent d) : Coherent d.cancel := by
  unfold Delivery.cancel
  split
  · exact h
  · refine h.shutDown rfl ?_
    intro asked
    rcases Bool.or_eq_true _ _ ▸ asked with before | running
    · exact (h.stopping before).2
    · exact running

theorem Coherent.record (h : Coherent d) (now : Rat) (e : Event) : Coherent (d.record now e) :=
  ⟨h.idle, h.closed, h.stopping, h.pacer, h.waits, h.paced, h.listens⟩

/-- A delivery that ends by itself. -/
theorem Coherent.close (h : Coherent d) {l : Lifecycle} (final : l.isFinal = true) (now : Rat)
    (callback : Option Bool) (e : Event) :
    Coherent ((d.shutDown l).callBack now callback e) := by
  have closed : Coherent { d.shutDown l with stopping := d.stopping } :=
    h.shutDown final fun asked => (h.stopping asked).2
  rw [callBack_of_final (d := d.shutDown l) final]
  split
  · exact closed.record now e
  · exact closed

/-- The pacer of a delivery goes on. -/
theorem Coherent.setPacer (h : Coherent d) {p p' : Pacer Value Unit} (has : d.pacer = some p)
    (consistent : p'.Consistent) (cancelled : p'.cancelled = p.cancelled)
    (waits : d.task ≠ .finished → p.waiting = none → p'.waiting = none) :
    Coherent { d with pacer := some p' } where
  idle fresh := by
    have none' := (h.idle fresh).2
    rw [has] at none'
    cases none'
  closed := h.closed
  stopping := h.stopping
  pacer := by
    rintro _ ⟨⟩
    exact ⟨consistent, cancelled.trans (h.pacer p has).2⟩
  waits unfinished := by
    rintro _ ⟨⟩
    exact waits unfinished (h.waits unfinished p has)
  paced _ := rfl
  listens := h.listens

theorem Coherent.finishTask (h : Coherent d)
    (running : d.task.isRunning = true ∨ d.stopping = true) : Coherent d.finishTask := by
  have running : d.task.isRunning = true := running.elim id fun asked => (h.stopping asked).2
  obtain ⟨started, present, _⟩ := h.of_running running
  refine ⟨fun fresh => absurd fresh started, fun _ => h.closed present, ?_, h.pacer, ?_, h.paced,
    ?_⟩
  · intro asked
    cases asked
  · exact fun unfinished => absurd rfl unfinished
  · intro pushes
    cases pushes

theorem Coherent.go (h : Coherent d) {t : Task} (running : d.task.isRunning = true)
    (goes : t.isRunning = true) (pushes : t.pushes = true → d.mode = some .push) (fetches : Nat) :
    Coherent { d with task := t, fetches } := by
  obtain ⟨started, present, unfinished⟩ := h.of_running running
  exact ⟨fun fresh => absurd fresh started, fun _ => h.closed present,
    fun asked => ⟨(h.stopping asked).1, goes⟩, h.pacer, fun _ => h.waits unfinished, h.paced,
    pushes⟩

theorem Coherent.move (h : Coherent d) (move : Move c d d') : Coherent d' := by
  cases move with
  | start s query idle => exact h.started idle query
  | cancel => exact h.cancel
  | hand now v active =>
    have handed : Coherent (d.handed now v) :=
      ⟨h.idle, h.closed, h.stopping, h.pacer, h.waits, h.paced, h.listens⟩
    split
    · exact handed.cancel
    · exact handed
  | fail now fault active => exact h.close rfl now _ _
  | complete now active => exact h.close rfl now _ _
  | note now e unseen => exact h.record now e
  | push now v has =>
    obtain ⟨_, _, _, same⟩ := Pacer.push_frame _ now v
    refine h.setPacer has ((h.pacer _ has).1.push v) (by rw [same]) fun _ waits => ?_
    rw [same]
    exact waits
  | expire now has =>
    obtain ⟨_, _, same⟩ := Pacer.expire_frame _ now
    refine h.setPacer has (h.pacer _ has).1.expire (by rw [same]) fun _ waits => ?_
    rw [same]
    exact waits
  | settle has => exact h.setPacer has (h.pacer _ has).1.settle rfl fun _ _ => rfl
  | drain has ended =>
    refine h.setPacer has ((h.pacer _ has).1.drain ()) ?_ fun unfinished => absurd ended unfinished
    obtain ⟨waiting, same⟩ := Pacer.drain_frame _ ()
    rw [same]
  | go running goes pushes polls => exact h.go running goes pushes _
  | remember v => exact ⟨h.idle, h.closed, h.stopping, h.pacer, h.waits, h.paced, h.listens⟩
  | finish running => exact h.finishTask running

/-! ### Active deliveries -/

/-- The pacer of an active delivery lets values through. -/
theorem Coherent.running (h : Coherent d) (active : d.isActive = true) {p : Pacer Value Unit}
    (has : d.pacer = some p) : p.cancelled = false := by
  rw [(h.pacer p has).2, isActive_iff.1 active]
  rfl

/-- The task of an active delivery is not asked to stop. -/
theorem Coherent.not_stopping (h : Coherent d) (active : d.isActive = true) :
    d.stopping = false := by
  rw [Bool.eq_false_iff]
  intro asked
  have ceased := (h.stopping asked).1
  rw [isActive_iff.1 active] at ceased
  cases ceased

end Delivery

namespace Session

/-- The parts of a delivery go together after any run. -/
theorem coherent_steps (s : Subscription) (signals : List (Rat × Signal)) :
    ((idle s).steps signals).delivery.Coherent :=
  Delivery.Moves.preserves (fun _ _ move h => h.move move) ((idle s).moves_steps signals)
    Delivery.coherent_idle

end Session

end GraphRequest

import Mathlib.Data.List.Induction
import GraphRequest.Proofs.Delivery.Slips

/-!
# How a delivery comes to its end

Once the task of a delivery has finished and no timer is set, nothing happens to the delivery any
more, except that its owner may cancel it. By then it should be over, and its end announced, or
whoever waits for the end waits forever.

* `Sound`: the runs that make no slip.
* `ended_iff`: a run comes to its end just when it is cancelled or makes no slip.
-/

namespace GraphRequest

namespace Session

/-- Whether a signal strands the delivery of a session. -/
def Slips (c : Session) (x : Signal) : Prop := c.delivery.Strands c.subscription x

/-- Whether no signal of a run strands its delivery. -/
def Sound (s : Subscription) (signals : List (Rat × Signal)) : Prop :=
  ∀ before x after, signals = before ++ x :: after → ¬ ((idle s).steps before).Slips x.2

variable {s : Subscription} {signals : List (Rat × Signal)}

theorem sound_concat (x : Rat × Signal) : Sound s (signals ++ [x]) ↔
    Sound s signals ∧ ¬ ((idle s).steps signals).Slips x.2 := by
  constructor
  · intro sound
    refine ⟨fun before y after split => ?_, sound signals x [] rfl⟩
    exact sound before y (after ++ [x]) (by rw [split, List.append_assoc, List.cons_append])
  · rintro ⟨sound, last⟩ before y after split
    rcases Delivery.split_concat split with ⟨rfl, rfl, _⟩ | ⟨rest, _, earlier⟩
    · exact last
    · exact sound before y rest earlier

/-- A run strands its delivery just if it makes a slip and is not cancelled. -/
theorem stranded_iff (s : Subscription) (signals : List (Rat × Signal)) :
    ((idle s).steps signals).delivery.Stranded ↔
      ((idle s).steps signals).delivery.lifecycle ≠ .cancelled ∧ ¬ Sound s signals := by
  have uncancelled {d : Delivery} (stranded : d.Stranded) : d.lifecycle ≠ .cancelled := by
    rw [Delivery.isActive_iff.1 stranded.active]
    decide
  induction signals using List.reverseRecOn with
  | nil =>
    refine iff_of_false (Delivery.not_stranded_of_not_active rfl) fun h => h.2 ?_
    intro before x after split
    simp at split
  | append_singleton signals x ih =>
    rw [steps_append, sound_concat]
    have h := coherent_steps s signals
    generalize (idle s).steps signals = c at ih h ⊢
    show (c.delivery.step c.subscription x.1 x.2).Stranded ↔
      (c.delivery.step c.subscription x.1 x.2).lifecycle ≠ .cancelled ∧ _
    constructor
    · intro stranded
      refine ⟨uncancelled stranded, fun sound => ?_⟩
      rcases Delivery.stranded_of_step h stranded with before | slip
      · exact (ih.1 before).2 sound.1
      · exact sound.2 slip
    · rintro ⟨uncancelled', slips⟩
      by_cases slip : c.Slips x.2
      · exact slip.stranded h x.1
      have unsound : ¬ Sound s signals := fun sound => slips ⟨sound, slip⟩
      have before : c.delivery.lifecycle ≠ .cancelled := by
        intro cancelled
        have ceased : c.delivery.lifecycle.isFinal = true := by rw [cancelled]; rfl
        have moves := Delivery.moves_step c.subscription c.delivery x.1 x.2
        have same := (Delivery.quiet_of_moves ceased moves).1
        exact uncancelled' (same.trans cancelled)
      have stranded := ih.2 ⟨before, unsound⟩
      exact (stranded.step h c.subscription x.1 x.2).resolve_right uncancelled'

/-- Once the task of a delivery has finished and no timer is set, the delivery is over and its end
is announced just if it is cancelled or none of its signals was a slip. -/
theorem ended_iff (s : Subscription) (signals : List (Rat × Signal))
    (finished : ((idle s).steps signals).delivery.task = .finished)
    (unset : ∀ p ∈ ((idle s).steps signals).delivery.pacer, p.due = none) :
    (((idle s).steps signals).delivery.lifecycle.isFinal = true ∧
        ((idle s).steps signals).delivery.closed = some true) ↔
      ((idle s).steps signals).delivery.lifecycle = .cancelled ∨ Sound s signals := by
  have h := coherent_steps s signals
  have strands := stranded_iff s signals
  generalize ((idle s).steps signals).delivery = d at *
  have present : d.task ≠ .absent := by simp [finished]
  have closed := h.closed present
  by_cases ceased : d.lifecycle.isFinal = true
  · have unstranded := Delivery.not_stranded_of_not_active (Delivery.isActive_of_final ceased)
    rw [ceased] at closed
    refine iff_of_true ⟨ceased, closed⟩ ?_
    by_contra neither
    rw [not_or] at neither
    exact unstranded (strands.2 neither)
  · refine iff_of_false (fun ended => ceased ended.1) ?_
    have stranded : d.Stranded := by
      refine ⟨?_, finished, ?_⟩
      · have started : d.lifecycle ≠ .idle := fun idle => present (h.idle idle).1
        cases l : d.lifecycle <;> simp_all [Delivery.isActive, Lifecycle.isFinal]
      · rintro ⟨p, has, due, _⟩
        rw [unset p has] at due
        cases due
    obtain ⟨uncancelled, unsound⟩ := strands.1 stranded
    rintro (cancelled | sound)
    · exact uncancelled cancelled
    · exact unsound sound

theorem completed_pushed :
    let d := ((idle (Sample.subscription true fun _ => ⟨false, none⟩)).steps Sample.pushed).delivery
    d.task = .finished ∧ (∀ p ∈ d.pacer, p.due = none) ∧ d.lifecycle = .completed ∧
      d.closed = some true := by
  decide +kernel

/-- A delivery that is pushed two results completes when the second one is handed over, and makes no
slip before. -/
theorem ended_iff_pushed :
    let s := Sample.subscription true fun _ => ⟨false, none⟩
    let d := ((idle s).steps Sample.pushed).delivery
    d.task = .finished ∧ (∀ p ∈ d.pacer, p.due = none) ∧ d.lifecycle = .completed ∧
      d.closed = some true ∧ Sound s Sample.pushed := by
  obtain ⟨finished, unset, completed, closed⟩ := completed_pushed
  refine ⟨finished, unset, completed, closed, ?_⟩
  have ended := (ended_iff _ Sample.pushed finished unset).1 ⟨by rw [completed]; rfl, closed⟩
  rcases ended with cancelled | sound
  · rw [completed] at cancelled
    cases cancelled
  · exact sound

/-- Whether a delivery has neither a task nor a timer, and is neither over nor closed. -/
def isLeftOpen (c : Session) : Bool :=
  c.delivery.task == .finished && c.delivery.pacer.all (fun p => p.due.isNone) &&
    !c.delivery.lifecycle.isFinal && c.delivery.closed == some false

/-- A delivery is left open when its consumer fails on a value that was fetched, when its consumer
fails on the value that the end waits for, and when its stream cannot be closed. -/
theorem left_open_by_failures :
    let fails (k n : Nat) : Reaction := ⟨false, if n = k then some (.connection "failed") else none⟩
    let polled := [(0, .start), (0, .run), (0, .outcome Sample.nobody)]
    let unclosed :=
      { Sample.subscription true (fails 0) with closeFault := some (.connection "failed") }
    ((idle (Sample.subscription false (fails 1))).steps polled).isLeftOpen = true ∧
      ((idle (Sample.subscription true (fails 2))).steps Sample.pushed).isLeftOpen = true ∧
      ((idle unclosed).steps Sample.pushed).isLeftOpen = true := by
  decide +kernel

end Session

end GraphRequest

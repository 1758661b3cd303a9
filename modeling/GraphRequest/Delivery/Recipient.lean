import GraphRequest.Delivery.Pacing

/-!
# A recipient that cancels

The values that a pacer lets through go to a recipient, which may cancel the pacer inside a
delivery. A callback that waits for that delivery is then dropped: the recipient comes before it.

A recipient decides by all that was recorded, the delivery at hand last. The record grows with each
delivery, so that whatever is decided during a run is the decision of some recipient.

* `Pacing.stepTo`, `Pacing.runTo`: happenings to a pacer that delivers to a recipient.
* `stepTo_of_never`: a recipient that never cancels may be left out.
-/

namespace GraphRequest

/-- Whether a recipient cancels the pacer inside a delivery, by the record that ends with it. -/
abbrev Recipient (α κ : Type) := List (Rat × Notice α κ) → Bool

namespace Pacing

variable {α κ : Type}

/-- Delivers a value, if there is one, to a recipient. -/
def deliverTo (c : Recipient α κ) (g : Pacing α κ) (now : Rat) (v : Option α) : Pacing α κ :=
  let after := g.deliver now v
  if v.isSome && c after.record then after.cancel else after

/-- A value comes. -/
def pushTo (c : Recipient α κ) (g : Pacing α κ) (now : Rat) (v : α) : Pacing α κ :=
  let next := g.pacer.push now v
  deliverTo c { g with pacer := next.1, timers := g.timers ++ timerSet g.pacer next.1 } now next.2

/-- A timer runs out: the value that waits is delivered, and then the callback that still waits is
called. -/
def expireTo (c : Recipient α κ) (g : Pacing α κ) (now due : Rat) : Pacing α κ :=
  let next := g.pacer.expire now
  let after := deliverTo c { g with pacer := next.1, timers := g.timers.erase due } now next.2
  let settled := after.pacer.settle
  call { after with pacer := settled.1 } now settled.2

/-- What a happening at a time does. -/
def stepTo (c : Recipient α κ) (g : Pacing α κ) (now : Rat) (h : Happening α κ) : Pacing α κ :=
  match h with
  | .push v => g.pushTo c now v
  | .drain k => g.drain now k
  | .cancel => g.cancel
  | .timer due => if due ∈ g.timers ∧ due ≤ now then g.expireTo c now due else g

/-- What happenings at their times do, one after the other. -/
def runTo (c : Recipient α κ) (g : Pacing α κ) (happenings : List (Rat × Happening α κ)) :
    Pacing α κ :=
  happenings.foldl (fun g x => g.stepTo c x.1 x.2) g

theorem deliverTo_none (c : Recipient α κ) (g : Pacing α κ) (now : Rat) :
    g.deliverTo c now none = g.deliver now none := rfl

theorem deliverTo_some (c : Recipient α κ) (g : Pacing α κ) (now : Rat) (v : α) :
    g.deliverTo c now (some v) =
      if c (g.record ++ [(now, Notice.delivered v)]) then (g.deliver now (some v)).cancel
      else g.deliver now (some v) := rfl

theorem stepTo_of_never (g : Pacing α κ) (now : Rat) (x : Happening α κ) :
    g.stepTo (fun _ => false) now x = g.step now x := by
  have deliver (g : Pacing α κ) (v : Option α) :
      g.deliverTo (fun _ => false) now v = g.deliver now v := by
    simp [deliverTo]
  cases x with
  | push v => exact deliver _ _
  | drain k => rfl
  | cancel => rfl
  | timer due =>
    show (if _ then expireTo _ g now due else g) = if _ then g.expire now due else g
    simp only [expireTo, expire, deliver]

end Pacing

end GraphRequest

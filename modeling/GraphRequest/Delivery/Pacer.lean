import GraphRequest.Failure

/-!
# Pacing deliveries

A pacer lets values through at most once per interval. A value that comes when the last delivery is
at least an interval ago goes through at once. Any other value waits for a timer, in place of a
value that waits already, so that the latest value is never lost. Times are exact.

An operation of a pacer does not deliver anything: it returns the value that is to be delivered now,
or the callback that is to be called now, beside the next state. When the timer runs out, `expire`
comes first, then the delivery of its value, and `settle` after that delivery.

* `push_of_cancelled`, `expire_of_cancelled`: a cancelled pacer lets nothing through.
* `push_pending`, `push_delivers`: a value that is not delivered at once waits.
-/

namespace GraphRequest

/-- The state of a pacer for values of type `α` and callbacks of type `κ`. -/
structure Pacer (α κ : Type) where
  /-- The least time between two deliveries. -/
  interval : Rat
  /-- The time of the last delivery. -/
  lastDelivery : Option Rat
  /-- The value that waits. -/
  pending : Option α
  /-- The time at which the timer runs out, if it is set. -/
  due : Option Rat
  /-- The callback that waits until the pending value is delivered. -/
  waiting : Option κ
  cancelled : Bool
deriving Repr

namespace Pacer

variable {α κ : Type}

/-- A pacer before any value. -/
def fresh (interval : Rat) : Pacer α κ := ⟨interval, none, none, none, none, false⟩

/-- A pacer for an interval given as a value; the interval must be a number that is not negative. -/
def ofInterval (interval : Value) : Except Failure (Pacer α κ) :=
  match interval.number? with
  | none => .error (.shape .wrongKind)
  | some n => if n < 0 then .error (.misuse (.negativeInterval interval)) else .ok (fresh n)

/-- Whether a value is waiting. -/
def hasPending (p : Pacer α κ) : Bool := p.pending.isSome

/-- Whether the last delivery is at least an interval ago. -/
def isRested (p : Pacer α κ) (now : Rat) : Bool :=
  match p.lastDelivery with
  | none => true
  | some last => decide (p.interval ≤ now - last)

/-- Whether a value goes through at once. -/
def isOpen (p : Pacer α κ) (now : Rat) : Bool := p.due.isNone && p.isRested now

/-- When a value that comes now may be delivered. -/
def nextTime (p : Pacer α κ) (now : Rat) : Rat :=
  match p.lastDelivery with
  | none => now
  | some last => if now ≤ last + p.interval then last + p.interval else now

/-- A value comes. It is to be delivered now, or it waits. -/
def push (p : Pacer α κ) (now : Rat) (v : α) : Pacer α κ × Option α :=
  if p.cancelled then (p, none)
  else if p.isOpen now then ({ p with lastDelivery := some now }, some v)
  else ({ p with pending := some v, due := some (p.due.getD (p.nextTime now)) }, none)

/-- The timer runs out: the value that waits is to be delivered now. -/
def expire (p : Pacer α κ) (now : Rat) : Pacer α κ × Option α :=
  if p.cancelled then ({ p with due := none }, none)
  else match p.pending with
    | none => ({ p with due := none }, none)
    | some v => ({ p with due := none, pending := none, lastDelivery := some now }, some v)

/-- The delivery after the timer ran out is over: the callback that waits is to be called now. -/
def settle (p : Pacer α κ) : Pacer α κ × Option κ :=
  ({ p with waiting := none }, if p.cancelled then none else p.waiting)

/-- A callback wants to be called once no value waits: now, or after the pending value. -/
def drain (p : Pacer α κ) (callback : κ) : Pacer α κ × Option κ :=
  if p.cancelled then (p, none)
  else match p.due with
    | none => (p, some callback)
    | some _ => ({ p with waiting := some callback }, none)

/-- Drops the value and the callback that wait, and stops for good. -/
def cancel (p : Pacer α κ) : Pacer α κ :=
  { p with cancelled := true, due := none, pending := none, waiting := none }

/-! ### Laws of single operations -/

theorem push_of_cancelled {p : Pacer α κ} (h : p.cancelled = true) (now : Rat) (v : α) :
    p.push now v = (p, none) := by
  simp [push, h]

theorem expire_of_cancelled {p : Pacer α κ} (h : p.cancelled = true) (now : Rat) :
    (p.expire now).2 = none := by
  simp [expire, h]

theorem settle_of_cancelled {p : Pacer α κ} (h : p.cancelled = true) : p.settle.2 = none := by
  simp [settle, h]

theorem drain_of_cancelled {p : Pacer α κ} (h : p.cancelled = true) (k : κ) :
    p.drain k = (p, none) := by
  simp [drain, h]

theorem push_delivers {p : Pacer α κ} {now : Rat} (hc : p.cancelled = false)
    (ho : p.isOpen now = true) (v : α) :
    p.push now v = ({ p with lastDelivery := some now }, some v) := by
  simp [push, hc, ho]

theorem push_pending {p : Pacer α κ} {now : Rat} (hc : p.cancelled = false)
    (ho : p.isOpen now = false) (v : α) :
    (p.push now v).1.pending = some v ∧ (p.push now v).1.due.isSome = true ∧
      (p.push now v).2 = none := by
  simp [push, hc, ho]

@[simp] theorem cancelled_cancel (p : Pacer α κ) : p.cancel.cancelled = true := rfl

@[simp] theorem cancel_cancel (p : Pacer α κ) : p.cancel.cancel = p.cancel := rfl

end Pacer

end GraphRequest

import GraphRequest.Delivery.Pacer

/-!
# A pacer on a clock

A pacer has its timers set by a scheduler, which knows nothing of the pacer: a timer is outstanding
from the time it is set until it runs out or is taken back. A pacing is a pacer with the timers that
are outstanding for it, and a record of what it delivered and which callbacks it called.

A callback is called last of all that an operation does. What a callback does to its pacer is
therefore the same as if it happened right after the operation.

* `Pacing.step` is what one happening at a time does, `Pacing.run` what a sequence of them does.
-/

namespace GraphRequest

/-- What can happen to a pacer. -/
inductive Happening (α κ : Type)
  | push (v : α)
  | drain (callback : κ)
  | cancel
  /-- A timer that was set for a time runs out. -/
  | timer (due : Rat)

/-- What a pacer does. -/
inductive Notice (α κ : Type)
  | delivered (v : α)
  | called (callback : κ)

namespace Notice

variable {α κ : Type}

/-- The value that is delivered, if one is. -/
def value? : Notice α κ → Option α
  | .delivered v => some v
  | .called _ => none

end Notice

/-- A pacer, the times of the timers that are outstanding for it, and what it did. -/
structure Pacing (α κ : Type) where
  pacer : Pacer α κ
  timers : List Rat
  record : List (Rat × Notice α κ)

namespace Pacing

variable {α κ : Type}

/-- A pacer before any value. -/
def fresh (interval : Rat) : Pacing α κ := ⟨.fresh interval, [], []⟩

/-- The deliveries with their times. -/
def deliveries (g : Pacing α κ) : List (Rat × α) :=
  g.record.filterMap fun n => n.2.value?.map (n.1, ·)

/-- Delivers a value if there is one. -/
def deliver (g : Pacing α κ) (now : Rat) (v : Option α) : Pacing α κ :=
  { g with record := g.record ++ v.toList.map fun v => (now, .delivered v) }

/-- Calls a callback if there is one. -/
def call (g : Pacing α κ) (now : Rat) (callback : Option κ) : Pacing α κ :=
  { g with record := g.record ++ callback.toList.map fun k => (now, .called k) }

/-- The timer that a pacer sets when it changes to another state. It sets none while it has one. -/
def timerSet (before after : Pacer α κ) : List Rat :=
  if before.due.isSome then [] else after.due.toList

/-- A value comes. -/
def push (g : Pacing α κ) (now : Rat) (v : α) : Pacing α κ :=
  let next := g.pacer.push now v
  deliver { g with pacer := next.1, timers := g.timers ++ timerSet g.pacer next.1 } now next.2

/-- A callback wants to be called once no value waits. -/
def drain (g : Pacing α κ) (now : Rat) (callback : κ) : Pacing α κ :=
  let next := g.pacer.drain callback
  call { g with pacer := next.1 } now next.2

/-- The pacer stops and takes its timer back. -/
def cancel (g : Pacing α κ) : Pacing α κ :=
  { g with
    pacer := g.pacer.cancel
    timers := g.pacer.due.elim g.timers g.timers.erase }

/-- A timer runs out: the value that waits is delivered, and then the callback that waits is
called. -/
def expire (g : Pacing α κ) (now due : Rat) : Pacing α κ :=
  let next := g.pacer.expire now
  let after := deliver { g with pacer := next.1, timers := g.timers.erase due } now next.2
  let settled := after.pacer.settle
  call { after with pacer := settled.1 } now settled.2

/-- What a happening at a time does. A timer runs out if it is outstanding, and not before the time
that it was set for. -/
def step (g : Pacing α κ) (now : Rat) (h : Happening α κ) : Pacing α κ :=
  match h with
  | .push v => g.push now v
  | .drain k => g.drain now k
  | .cancel => g.cancel
  | .timer due => if due ∈ g.timers ∧ due ≤ now then g.expire now due else g

/-- What happenings at their times do, one after the other. -/
def run (g : Pacing α κ) (happenings : List (Rat × Happening α κ)) : Pacing α κ :=
  happenings.foldl (fun g x => g.step x.1 x.2) g

end Pacing

end GraphRequest

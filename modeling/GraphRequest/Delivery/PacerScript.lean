import GraphRequest.Delivery.Pacer

/-!
# Scripts for a pacer

A script drives one pacer on a clock that is set by hand. Its steps push values, move the clock,
drain and cancel. A delivery may have reactions: steps that are performed inside the delivery of a
certain text, once for each text. A callback that drains performs steps, too. What happens is
recorded as notes.

Every step of a script is performed at most once, so the number of steps bounds a run.

* `Stage.play` performs one step and tells what happened.
-/

namespace GraphRequest.PacerScript

/-- A step of a script. -/
inductive Step
  | push (v : Value)
  /-- Moves the clock on and lets the timer run out on the way. -/
  | advanceTo (time : Rat)
  /-- Sets the clock and nothing else. -/
  | setClock (time : Rat)
  | cancel
  /-- Drains with a callback that performs steps. -/
  | drain (label : Value) (steps : List Step)
  /-- Fails. -/
  | fail (text : String)
deriving Inhabited

mutual

/-- The number of steps in a step. -/
def Step.count : Step → Nat
  | .drain _ steps => countAll steps + 1
  | _ => 1

/-- The number of steps in a list of steps. -/
def countAll : List Step → Nat
  | [] => 0
  | s :: rest => s.count + countAll rest

end

/-- What happens during a script, with its time. -/
inductive Note
  | delivered (time : Rat) (v : Value)
  | drained (time : Rat) (label : Value)

/-- A callback that drains: its label and its steps. -/
abbrev Callback := Value × List Step

/-- A pacer on its clock, the reactions that are left, and the notes taken. -/
structure Stage where
  clock : Rat
  pacer : Pacer Value Callback
  reactions : List (String × List Step)
  notes : List Note

/-- An action on a stage that may fail; what it did before stays done. -/
abbrev Act := ExceptT Failure (StateM Stage) Unit

namespace Stage

/-- A stage at time zero. -/
def start (pacer : Pacer Value Callback) (reactions : List (String × List Step)) : Stage :=
  ⟨0, pacer, reactions, []⟩

/-- Takes a note. -/
def note (s : Stage) (n : Note) : Stage := { s with notes := s.notes ++ [n] }

/-- The reaction to a value, if there is one, which is then used up. -/
def takeReaction (s : Stage) (v : Value) : List Step × Stage :=
  match v with
  | .str key =>
    ((s.reactions.lookup key).getD [],
      { s with reactions := s.reactions.filter fun r => r.1 != key })
  | _ => ([], s)

end Stage

mutual

/-- Performs a step. The first argument bounds the depth of the run. -/
def perform : Nat → Step → Act
  | 0, _ => pure ()
  | fuel + 1, step => do
    let s ← get
    match step with
    | .push v =>
      let (p, out) := s.pacer.push s.clock v
      set { s with pacer := p }
      deliver fuel out
    | .advanceTo time =>
      runTimers fuel time
      modify fun s => { s with clock := time }
    | .setClock time => set { s with clock := time }
    | .cancel => set { s with pacer := s.pacer.cancel }
    | .drain label steps =>
      let (p, out) := s.pacer.drain (label, steps)
      set { s with pacer := p }
      call fuel out
    | .fail text => throw (.connection text)

/-- Performs steps one after the other. -/
def performAll : Nat → List Step → Act
  | 0, _ => pure ()
  | _, [] => pure ()
  | fuel + 1, step :: rest => do
    perform fuel step
    performAll fuel rest

/-- Delivers a value, if there is one, with the reaction to it. -/
def deliver : Nat → Option Value → Act
  | 0, _ => pure ()
  | _, none => pure ()
  | fuel + 1, some v => do
    let s ← get
    let (steps, s) := (s.note (.delivered s.clock v)).takeReaction v
    set s
    performAll fuel steps

/-- Calls a callback, if there is one. -/
def call : Nat → Option Callback → Act
  | 0, _ => pure ()
  | _, none => pure ()
  | fuel + 1, some (label, steps) => do
    modify fun s => s.note (.drained s.clock label)
    performAll fuel steps

/-- Lets the timer run out, as often as it is due by a time. -/
def runTimers : Nat → Rat → Act
  | 0, _ => pure ()
  | fuel + 1, time => do
    let s ← get
    match s.pacer.due with
    | none => pure ()
    | some due =>
      if due ≤ time then
        let (p, out) := s.pacer.expire due
        set { s with clock := due, pacer := p }
        deliver fuel out
        let s ← get
        let (p, callback) := s.pacer.settle
        set { s with pacer := p }
        call fuel callback
        runTimers fuel time

end

namespace Stage

/-- The number of steps in reactions. -/
def countReactions : List (String × List Step) → Nat
  | [] => 0
  | r :: rest => countAll r.2 + countReactions rest

/-- The number of steps that are still to come from reactions and from the callback that waits. -/
def backlog (s : Stage) : Nat :=
  countReactions s.reactions +
    match s.pacer.waiting with
    | some (_, steps) => countAll steps
    | none => 0

/-- Performs a step of the script: the notes taken during it, the failure that ended it, and the
stage after it. -/
def play (s : Stage) (step : Step) : List Note × Option Failure × Stage :=
  let fuel := 8 * (step.count + s.backlog + 2)
  let (result, after) := (perform fuel step).run { s with notes := [] }
  let failure := match result with
    | .ok () => none
    | .error e => some e
  (after.notes, failure, after)

end Stage

end GraphRequest.PacerScript

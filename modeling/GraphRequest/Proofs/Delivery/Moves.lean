import Mathlib.Logic.Relation
import GraphRequest.Delivery.Session

/-!
# What a delivery can do

Every answer of a delivery to a signal is made of a few moves: it is started or cancelled, it hands
a value over, it fails or completes, its task or its pacer goes on, or something happens that its
consumer does not see. The moves say once and for all what each of them presupposes, so an invariant
that every move preserves holds after any run.

* `Move`: the moves, for a consumer.
* `moves_step`: the answer to a signal is a sequence of moves.
* `Session.moves_steps`: so is a run of signals.
-/

namespace GraphRequest

namespace Event

/-- Whether an event is a call of the consumer. -/
def isCallback : Event → Bool
  | .data _ => true
  | .error _ => true
  | .complete => true
  | _ => false

end Event

namespace Task

/-- Whether a task has work to do. -/
def isRunning (t : Task) : Bool := t != .absent && t != .finished

/-- Whether a task follows a stream. -/
def pushes : Task → Bool
  | .listening => true
  | _ => false

/-- Whether a task fetches again and again. -/
def polls : Task → Bool
  | .fetching _ => true
  | .sleeping _ => true
  | _ => false

theorem isRunning_iff {t : Task} : t.isRunning = true ↔ t ≠ .absent ∧ t ≠ .finished := by
  cases t <;> simp [isRunning]

theorem isRunning_of_polls {t : Task} (h : t.polls = true) : t.isRunning = true := by
  cases t with
  | fetching since => rfl
  | sleeping due => rfl
  | _ => cases h

end Task

namespace Delivery

/-! ### Moves -/

/-- One thing that a delivery does. -/
inductive Move (c : Consumer) : Delivery → Delivery → Prop
  | start {d : Delivery} (s : Subscription) (query : CompiledQuery) (idle : d.lifecycle = .idle) :
      Move c d (started s d query)
  | cancel {d : Delivery} : Move c d d.cancel
  | hand {d : Delivery} (now : Rat) (v : Value) (active : d.isActive = true) :
      Move c d (if (c.onData (d.delivered + 1) v).cancels then (d.handed now v).cancel
        else d.handed now v)
  | fail {d : Delivery} (now : Rat) (fault : Failure) (active : d.isActive = true) :
      Move c d ((d.shutDown .errored).callBack now c.onError (.error fault))
  | complete {d : Delivery} (now : Rat) (active : d.isActive = true) :
      Move c d ((d.shutDown .completed).callBack now c.onComplete .complete)
  | note {d : Delivery} (now : Rat) (e : Event) (unseen : e.isCallback = false) :
      Move c d (d.record now e)
  | push {d : Delivery} {p : Pacer Value Unit} (now : Rat) (v : Value) (has : d.pacer = some p) :
      Move c d { d with pacer := some (p.push now v).1 }
  | expire {d : Delivery} {p : Pacer Value Unit} (now : Rat) (has : d.pacer = some p) :
      Move c d { d with pacer := some (p.expire now).1 }
  | settle {d : Delivery} {p : Pacer Value Unit} (has : d.pacer = some p) :
      Move c d { d with pacer := some p.settle.1 }
  | drain {d : Delivery} {p : Pacer Value Unit} (has : d.pacer = some p)
      (ended : d.task = .finished) : Move c d { d with pacer := some (p.drain ()).1 }
  | go {d : Delivery} {t : Task} {fetches : Nat} (running : d.task.isRunning = true)
      (goes : t.isRunning = true) (pushes : t.pushes = true → d.mode = some .push)
      (polls : t.polls = true → d.mode ≠ some .push ∨ d.task.polls = true) :
      Move c d { d with task := t, fetches }
  | remember {d : Delivery} (v : Value) : Move c d { d with last := some v }
  | finish {d : Delivery} (running : d.task.isRunning = true ∨ d.stopping = true) :
      Move c d d.finishTask

/-- Some moves, one after the other. -/
abbrev Moves (c : Consumer) : Delivery → Delivery → Prop := Relation.ReflTransGen (Move c)

/-- What every move preserves is preserved by moves. -/
theorem Moves.preserves {c : Consumer} {P : Delivery → Prop}
    (each : ∀ d d', Move c d d' → P d → P d') {d d' : Delivery} (h : Moves c d d') (hd : P d) :
    P d' := by
  induction h with
  | refl => exact hd
  | tail _ move ih => exact each _ _ move ih

section

variable {s : Subscription} {d : Delivery} {now : Rat}

/-- A delivery that can be started is idle, and its request compiles. -/
theorem start_eq_ok {d' : Delivery} (h : d.start s = .ok d') :
    ∃ query, d.lifecycle = .idle ∧ s.schema.compileBy s.read (requestOf s) = .ok query ∧
      d' = started s d query := by
  unfold start at h
  split at h
  · cases h
  · rename_i idle
    obtain ⟨query, compiled, h₁⟩ := bind_eq_ok.1 h
    obtain ⟨_, _, h₂⟩ := bind_eq_ok.1 h₁
    cases h₂
    exact ⟨query, Decidable.not_not.1 idle, compiled, rfl⟩

/-! ### The task of a delivery -/

@[simp] theorem task_cancel : d.cancel.task = d.task := by
  unfold cancel
  split <;> rfl

@[simp] theorem task_callBack (callback : Option Bool) (e : Event) :
    (d.callBack now callback e).task = d.task := by
  unfold callBack
  split
  · rfl
  · split
    · exact task_cancel
    · rfl

@[simp] theorem task_fail (fault : Failure) : (d.fail s now fault).task = d.task := by
  unfold fail
  split
  · exact task_callBack _ _
  · rfl

@[simp] theorem task_deliver (v : Value) : (d.deliver s now v).1.task = d.task := by
  unfold deliver
  split
  · dsimp only
    split
    · exact task_cancel
    · rfl
  · rfl

@[simp] theorem task_deliverAny (v : Option Value) : (d.deliverAny s now v).1.task = d.task := by
  cases v with
  | none => rfl
  | some v => exact task_deliver v

@[simp] theorem task_pushValue (v : Value) : (d.pushValue s now v).1.task = d.task := by
  unfold pushValue
  split
  · rfl
  · exact task_deliverAny _

/-! ### Callbacks -/

theorem moves_fail (fault : Failure) : Moves s.consumer d (d.fail s now fault) := by
  unfold fail
  split
  · rename_i active
    exact .single (.fail now fault active)
  · exact .refl

theorem moves_complete : Moves s.consumer d (d.complete s now) := by
  unfold complete
  split
  · rename_i active
    exact .single (.complete now active)
  · exact .refl

theorem moves_completeIf (callback : Option Unit) :
    Moves s.consumer d (d.completeIf s now callback) := by
  cases callback with
  | none => exact .refl
  | some u => exact moves_complete

theorem moves_deliver (v : Value) : Moves s.consumer d (d.deliver s now v).1 := by
  unfold deliver
  split
  · rename_i active
    exact .single (.hand now v active)
  · exact .refl

theorem moves_deliverAny (v : Option Value) : Moves s.consumer d (d.deliverAny s now v).1 := by
  cases v with
  | none => exact .refl
  | some v => exact moves_deliver v

/-! ### Pushed results -/

theorem moves_closeStream (running : d.task.isRunning = true) :
    Moves s.consumer d (d.closeStream now) :=
  .tail (.single (.note now .streamClosed rfl)) (.finish (.inl running))

theorem moves_openStream (ready : d.task = .ready) (pushed : d.mode = some .push)
    (query : CompiledQuery) : Moves s.consumer d (d.openStream s now query) := by
  have running : d.task.isRunning = true := by rw [ready]; rfl
  have opened : Moves s.consumer d (d.record now (.opened query)) := .single (.note _ _ rfl)
  unfold openStream
  dsimp only
  split
  · refine (opened.trans (moves_fail _)).tail (.finish (.inl ?_))
    rw [task_fail]
    exact running
  · exact opened.tail (.go running rfl (fun _ => pushed) (by simp [Task.polls]))

theorem moves_pushValue (v : Value) : Moves s.consumer d (d.pushValue s now v).1 := by
  unfold pushValue
  split
  · exact .refl
  · rename_i p has
    exact .trans (.single (.push now v has)) (moves_deliverAny _)

theorem moves_takeAnswer (running : d.task.isRunning = true) (answer : Answer) :
    Moves s.consumer d (d.takeAnswer s now answer) := by
  have failed {d' : Delivery} (same : d'.task = d.task) (fault : Failure) :
      Moves s.consumer d' ((d'.fail s now fault).closeStream now) := by
    refine (moves_fail fault).trans (moves_closeStream ?_)
    rw [task_fail, same]
    exact running
  have pushes (v : Value) : Moves s.consumer d (d.pushValue s now v).1 := moves_pushValue v
  have same (v : Value) : (d.pushValue s now v).1.task = d.task := task_pushValue v
  unfold takeAnswer
  split
  · exact failed rfl _
  · rename_i v _
    specialize pushes v
    specialize same v
    split
    · rename_i d' fault hp
      rw [hp] at pushes same
      exact pushes.trans (failed same fault)
    · rename_i d' hp
      rw [hp] at pushes
      exact pushes

theorem moves_takeItem (running : d.task.isRunning = true) (result : Except Failure Answer) :
    Moves s.consumer d (d.takeItem s now result) := by
  unfold takeItem
  split
  · exact (moves_closeStream running).trans (moves_fail _)
  · split
    · exact moves_takeAnswer running _
    · exact moves_closeStream running

theorem moves_endStream (running : d.task.isRunning = true) :
    Moves s.consumer d (d.endStream s now) := by
  have closed : Moves s.consumer d (d.closeStream now) := moves_closeStream running
  unfold endStream
  dsimp only
  split
  · exact closed
  · split
    · split
      · exact closed
      · rename_i p has
        exact (closed.tail (.drain has rfl)).trans (moves_completeIf _)
    · exact closed

/-! ### The timer of the pacer -/

theorem moves_handOver (v : Option Value) : Moves s.consumer d (d.handOver s now v) := by
  have hands : Moves s.consumer d (d.deliverAny s now v).1 := moves_deliverAny v
  unfold handOver
  split
  · rename_i d' fault hd
    rw [hd] at hands
    exact hands.tail (.note now (.escaped fault) rfl)
  · rename_i d' hd
    rw [hd] at hands
    split
    · exact hands
    · rename_i p has
      exact (hands.tail (.settle has)).trans (moves_completeIf _)

theorem moves_expire : Moves s.consumer d (d.expire s now) := by
  unfold expire
  split
  · exact .refl
  · rename_i p has
    split
    · exact .trans (.single (.expire now has)) (moves_handOver _)
    · exact .refl

/-! ### Fetched results -/

theorem moves_fetch (running : d.task.isRunning = true)
    (polls : d.mode ≠ some .push ∨ d.task.polls = true) (query : CompiledQuery) :
    Moves s.consumer d (d.fetch now query) := by
  unfold fetch
  split
  · exact .tail (.single (.note now (.fetched query) rfl))
      (.go running rfl (by simp [Task.pushes]) (fun _ => polls))
  · exact .single (.finish (.inl running))

theorem moves_sleep (polls : d.task.polls = true) : Moves s.consumer d (d.sleep s now) := by
  have running := Task.isRunning_of_polls polls
  unfold sleep
  split
  · exact .single (.go running rfl (by simp [Task.pushes]) (fun _ => .inr polls))
  · exact .single (.finish (.inl running))

theorem moves_takeValue (polls : d.task.polls = true) (v : Value) :
    Moves s.consumer d (d.takeValue s now v) := by
  have remembers : Moves s.consumer d { d with last := some v } := .single (.remember v)
  have hands : Moves s.consumer { d with last := some v }
      (deliver s { d with last := some v } now v).1 := moves_deliver v
  have same : (deliver s { d with last := some v } now v).1.task = d.task := task_deliver v
  have polls' : (deliver s { d with last := some v } now v).1.task.polls = true := by
    rw [same]
    exact polls
  unfold takeValue
  split
  · split
    · rename_i d' fault hd
      rw [hd] at hands polls'
      exact (remembers.trans hands).tail (.finish (.inl (Task.isRunning_of_polls polls')))
    · rename_i d' hd
      rw [hd] at hands polls'
      exact (remembers.trans hands).trans (moves_sleep polls')
  · exact moves_sleep polls

theorem moves_takeOutcome (polls : d.task.polls = true) (result : Except Failure Answer) :
    Moves s.consumer d (d.takeOutcome s now result) := by
  unfold takeOutcome
  split
  · refine (moves_fail _).tail (.finish (.inl ?_))
    rw [task_fail]
    exact Task.isRunning_of_polls polls
  · exact moves_takeValue polls _

/-! ### Signals -/

theorem moves_run (ready : d.task = .ready) : Moves s.consumer d (d.run s now) := by
  unfold run
  split
  · exact .refl
  · split
    · rename_i pushed
      exact moves_openStream ready pushed _
    · rename_i polled
      refine moves_fetch ?_ (.inl polled) _
      rw [ready]
      rfl

theorem moves_wake (polls : d.task.polls = true) : Moves s.consumer d (d.wake now) := by
  unfold wake
  split
  · exact .refl
  · exact moves_fetch (Task.isRunning_of_polls polls) (.inr polls) _

theorem moves_interrupt : Moves s.consumer d (d.interrupt now) := by
  unfold interrupt
  split
  · rename_i stopping
    split
    · rename_i listening
      refine moves_closeStream ?_
      rw [listening]
      rfl
    · exact .single (.finish (.inr stopping))
  · exact .refl

theorem moves_resume (signal : Signal) : Moves s.consumer d (d.resume s now signal) := by
  unfold resume
  split
  · rename_i ready
    exact moves_run ready
  · rename_i listening
    exact moves_takeItem (by rw [listening]; rfl) _
  · rename_i listening
    exact moves_endStream (by rw [listening]; rfl)
  · rename_i fetching
    exact moves_takeOutcome (by rw [fetching]; rfl) _
  · rename_i sleeping
    exact moves_wake (by rw [sleeping]; rfl)
  · exact .refl

theorem moves_start : Moves s.consumer d (d.step s now .start) := by
  cases started : d.start s with
  | error fault => rw [step_start_of_error started]
  | ok d' =>
    rw [step_start_of_ok started]
    obtain ⟨query, idle, _, rfl⟩ := start_eq_ok started
    exact .single (.start s query idle)

/-- The answer to a signal is a sequence of moves. -/
theorem moves_step (s : Subscription) (d : Delivery) (now : Rat) (signal : Signal) :
    Moves s.consumer d (d.step s now signal) := by
  have goes : Moves s.consumer d
      (if d.stopping then d.interrupt now else d.resume s now signal) := by
    split
    · exact moves_interrupt
    · exact moves_resume signal
  cases signal with
  | start => exact moves_start
  | cancel => exact .single .cancel
  | timer => exact moves_expire
  | interrupt => exact moves_interrupt
  | _ => exact goes

end

end Delivery

namespace Session

theorem consumer_step (c : Session) (now : Rat) (signal : Signal) :
    (c.step now signal).subscription.consumer = c.subscription.consumer := by
  obtain ⟨schema, same⟩ := c.exists_schema now signal
  rw [same]

theorem consumer_steps (c : Session) (signals : List (Rat × Signal)) :
    (c.steps signals).subscription.consumer = c.subscription.consumer := by
  induction signals generalizing c with
  | nil => rfl
  | cons x rest ih => exact (ih _).trans (c.consumer_step x.1 x.2)

/-- A run of signals is a sequence of moves. -/
theorem moves_steps (c : Session) (signals : List (Rat × Signal)) :
    Delivery.Moves c.subscription.consumer c.delivery (c.steps signals).delivery := by
  induction signals generalizing c with
  | nil => exact .refl
  | cons x rest ih =>
    have first := Delivery.moves_step c.subscription c.delivery x.1 x.2
    have others := ih (c.step x.1 x.2)
    rw [consumer_step] at others
    exact first.trans others

end Session

end GraphRequest

import GraphRequest.Proofs.Delivery.Coherence

/-!
# Deliveries that are stranded

Most failures end a delivery, but there are four slips: a failure that nobody handles finishes the
task, or drops the end that waits, and the delivery stays active with nothing left to do.

* `Strands`: the four slips.
* `Strands.stranded`, `Stranded.step`: a slip strands a delivery, and then nothing but a
  cancellation ends it.
* `stranded_of_step`: nothing but a slip strands a delivery.
-/

namespace GraphRequest

/-- Whether a consumer fails and leaves the delivery as it is. -/
def Reaction.breaks (r : Reaction) : Bool := r.fault.isSome && !r.cancels

namespace Delivery

variable {s : Subscription} {d : Delivery} {now : Rat}

/-! ### Stranded deliveries -/

/-- A value waits for the timer, and the end of the delivery waits for that value. -/
def Awaiting (d : Delivery) : Prop :=
  ∃ p ∈ d.pacer, p.due.isSome = true ∧ p.waiting.isSome = true

/-- A delivery is active, and nothing is left that could end it but its owner. -/
structure Stranded (d : Delivery) : Prop where
  active : d.isActive = true
  finished : d.task = .finished
  alone : ¬ d.Awaiting

/-- The signals by which an active delivery is stranded. -/
inductive Strands (s : Subscription) (d : Delivery) : Signal → Prop
  /-- The consumer fails on a value that was fetched. -/
  | fetched {result : Except Failure Answer} {since : Rat} {v : Value} (active : d.isActive = true)
      (task : d.task = .fetching since) (value : d.extract s result = .ok v)
      (news : d.isNews v = true) (breaks : (d.reaction s v).breaks = true) :
      Strands s d (.outcome result)
  /-- The next fetch is too far away to be told in seconds. -/
  | unslept {result : Except Failure Answer} {since : Rat} {v : Value} {fault : ShapeFault}
      (active : d.isActive = true) (task : d.task = .fetching since)
      (value : d.extract s result = .ok v)
      (stays : d.isNews v = true → (d.reaction s v).cancels = false)
      (far : Settings.seconds s.settings.pollInterval = .error fault) :
      Strands s d (.outcome result)
  /-- The stream has ended and cannot be closed. -/
  | unclosed (active : d.isActive = true) (task : d.task = .listening)
      (fails : s.closeFault.isSome = true) : Strands s d .finish
  /-- The consumer fails on the value that the end waits for. -/
  | expired {p : Pacer Value Unit} {v : Value} (active : d.isActive = true)
      (task : d.task = .finished) (has : d.pacer = some p) (value : p.pending = some v)
      (waits : p.waiting.isSome = true) (breaks : (d.reaction s v).breaks = true) :
      Strands s d .timer

theorem not_stranded_of_running (running : d.task.isRunning = true) : ¬ d.Stranded := by
  intro h
  rw [h.finished] at running
  cases running

theorem not_stranded_of_not_active (ceased : d.isActive = false) : ¬ d.Stranded := by
  intro h
  rw [h.active] at ceased
  cases ceased

theorem isActive_of_final (ceased : d.lifecycle.isFinal = true) : d.isActive = false := by
  rw [Bool.eq_false_iff]
  intro active
  rw [isActive_iff.1 active] at ceased
  cases ceased

/-- A delivery whose end does not wait is stranded if it is active when its task finishes. -/
theorem stranded_finishTask (waits : ∀ p ∈ d.pacer, p.waiting = none) :
    d.finishTask.Stranded ↔ d.isActive = true := by
  refine ⟨fun h => h.active, fun active => ⟨active, rfl, ?_⟩⟩
  rintro ⟨p, has, _, waiting⟩
  rw [waits p has] at waiting
  cases waiting

/-- A failure leaves no active delivery. -/
theorem isActive_fail (fault : Failure) : (d.fail s now fault).isActive = false := by
  unfold fail
  split
  · rw [callBack_of_final (d := d.shutDown .errored) rfl]
    split <;> rfl
  · rename_i inactive
    exact Bool.eq_false_iff.2 inactive

theorem isActive_complete : (d.complete s now).isActive = false := by
  unfold complete
  split
  · rw [callBack_of_final (d := d.shutDown .completed) rfl]
    split <;> rfl
  · rename_i inactive
    exact Bool.eq_false_iff.2 inactive

theorem isActive_cancel : d.cancel.isActive = false := isActive_of_final isFinal_cancel

/-! ### Fetched results -/

theorem stranded_sleep (waits : ∀ p ∈ d.pacer, p.waiting = none) :
    (d.sleep s now).Stranded ↔ d.isActive = true ∧
      ∃ fault, Settings.seconds s.settings.pollInterval = .error fault := by
  unfold sleep
  split
  · rename_i near
    refine iff_of_false (not_stranded_of_running rfl) ?_
    rintro ⟨_, fault, far⟩
    rw [near] at far
    cases far
  · rename_i fault far
    rw [stranded_finishTask waits]
    exact ⟨fun active => ⟨active, fault, far⟩, fun h => h.1⟩

/-- An active delivery that hands a value over stays active unless the consumer cancels it. -/
theorem isActive_deliver (active : d.isActive = true) (v : Value) :
    (d.deliver s now v).1.isActive = !(d.reaction s v).cancels := by
  rw [deliver, if_pos active]
  cases cancels : (d.reaction s v).cancels with
  | true => exact isActive_cancel
  | false => exact active

theorem fault_deliver (active : d.isActive = true) (v : Value) :
    (d.deliver s now v).2 = (d.reaction s v).fault := by
  rw [deliver, if_pos active]

theorem waiting_cancel (waits : ∀ p ∈ d.pacer, p.waiting = none) :
    ∀ p ∈ d.cancel.pacer, p.waiting = none := by
  unfold cancel
  split
  · exact waits
  · intro p has
    obtain ⟨_, _, rfl⟩ := Option.mem_map.1 has
    rfl

theorem waiting_deliver (waits : ∀ p ∈ d.pacer, p.waiting = none) (v : Value) :
    ∀ p ∈ (d.deliver s now v).1.pacer, p.waiting = none := by
  unfold deliver
  split
  · dsimp only
    split
    · exact waiting_cancel (d := d.handed now v) waits
    · exact waits
  · exact waits

theorem takeValue_eq (v : Value) :
    d.takeValue s now v = if d.isNews v then
      if (deliver s { d with last := some v } now v).2.isSome then
        (deliver s { d with last := some v } now v).1.finishTask
      else (deliver s { d with last := some v } now v).1.sleep s now
    else d.sleep s now := by
  unfold takeValue
  split
  · split
    · rename_i h
      simp [h]
    · rename_i h
      simp [h]
  · rfl

/-- A value that was fetched strands a delivery if the consumer fails on it, or if the time of the
next fetch cannot be told. -/
theorem stranded_takeValue (active : d.isActive = true)
    (waits : ∀ p ∈ d.pacer, p.waiting = none) (v : Value) :
    (d.takeValue s now v).Stranded ↔ (d.isNews v = true ∧ (d.reaction s v).breaks = true) ∨
      ((d.isNews v = true → (d.reaction s v).cancels = false) ∧
        ∃ fault, Settings.seconds s.settings.pollInterval = .error fault) := by
  have waits' : ∀ p ∈ (deliver s { d with last := some v } now v).1.pacer, p.waiting = none :=
    waiting_deliver (d := { d with last := some v }) waits v
  have stays : (deliver s { d with last := some v } now v).1.isActive =
      !(d.reaction s v).cancels :=
    isActive_deliver (d := { d with last := some v }) active v
  have failed : (deliver s { d with last := some v } now v).2 = (d.reaction s v).fault :=
    fault_deliver (d := { d with last := some v }) active v
  rw [takeValue_eq, failed]
  split
  · rename_i news
    split
    · rename_i fails
      have breaks : (d.reaction s v).breaks = !(d.reaction s v).cancels := by
        simp [Reaction.breaks, fails]
      rw [stranded_finishTask waits', stays, breaks]
      constructor
      · exact fun stays => .inl ⟨news, stays⟩
      · rintro (⟨_, stays⟩ | ⟨stays, _⟩)
        · exact stays
        · rw [stays news]
          rfl
    · rename_i fine
      rw [stranded_sleep waits', stays]
      simp [Reaction.breaks, news, fine]
  · rename_i old
    rw [stranded_sleep waits]
    simp [old, active]

/-- The answer to a fetch strands a delivery just by the slips of fetching. -/
theorem stranded_takeOutcome (active : d.isActive = true) {since : Rat}
    (task : d.task = .fetching since) (waits : ∀ p ∈ d.pacer, p.waiting = none)
    (result : Except Failure Answer) :
    (d.takeOutcome s now result).Stranded ↔ d.Strands s (.outcome result) := by
  unfold takeOutcome
  split
  · rename_i fault refused
    refine iff_of_false (not_stranded_of_not_active (isActive_fail fault)) ?_
    intro strands
    cases strands with
    | fetched _ _ value _ _ =>
      rw [refused] at value
      cases value
    | unslept _ _ value _ _ =>
      rw [refused] at value
      cases value
  · rename_i v value
    rw [stranded_takeValue active waits]
    constructor
    · rintro (⟨news, breaks⟩ | ⟨stays, fault, far⟩)
      · exact .fetched active task value news breaks
      · exact .unslept active task value stays far
    · intro strands
      cases strands with
      | fetched _ _ value' news breaks =>
        rw [value] at value'
        cases value'
        exact .inl ⟨news, breaks⟩
      | unslept _ _ value' stays far =>
        rw [value] at value'
        cases value'
        exact .inr ⟨stays, _, far⟩

/-! ### Pushed results -/

/-- The end of a stream strands a delivery just if the stream cannot be closed: else the delivery is
complete, or its end waits for the value that waits. -/
theorem stranded_endStream (h : Coherent d) (active : d.isActive = true)
    (task : d.task = .listening) :
    (d.endStream s now).Stranded ↔ d.Strands s .finish := by
  have waits : ∀ p ∈ d.pacer, p.waiting = none := by
    exact h.waits (by simp [task])
  have closed : (d.closeStream now).isActive = true := active
  have strands : d.Strands s .finish ↔ s.closeFault.isSome = true := by
    refine ⟨?_, fun fails => .unclosed active task fails⟩
    rintro ⟨⟩
    assumption
  rw [strands]
  unfold endStream
  dsimp only
  by_cases fails : s.closeFault.isSome = true
  · rw [if_pos fails]
    exact iff_of_true ((stranded_finishTask (d := d.record now .streamClosed) waits).2 active) fails
  · rw [if_neg fails, if_pos closed]
    refine iff_of_false ?_ fails
    have paced : d.pacer.isSome = true := h.paced (h.listens (by rw [task]; rfl))
    obtain ⟨p, has⟩ := Option.isSome_iff_exists.1 paced
    have has' : (d.closeStream now).pacer = some p := has
    rw [has']
    dsimp only
    have runs := h.running active has
    cases due : p.due with
    | none =>
      have drained : p.drain () = (p, some ()) := by simp [Pacer.drain, runs, due]
      rw [drained]
      exact not_stranded_of_not_active isActive_complete
    | some t =>
      have drained : p.drain () = ({ p with waiting := some () }, none) := by
        simp [Pacer.drain, runs, due]
      rw [drained]
      intro stranded
      exact stranded.alone ⟨_, rfl, by simp [due], rfl⟩

/-! ### The timer -/

theorem lifecycle_cancel (active : d.isActive = true) : d.cancel.lifecycle = .cancelled := by
  rw [cancel, isActive_iff.1 active]
  rfl

/-- A delivery whose pacer has no timer awaits nothing. -/
theorem not_awaiting_of_due {p : Pacer Value Unit} (has : d.pacer = some p)
    (due : p.due = none) : ¬ d.Awaiting := by
  rintro ⟨p', has', set, _⟩
  cases has.symm.trans has'
  rw [due] at set
  cases set

/-- A delivery whose pacer has a timer awaits its end just if that end waits for the pacer. -/
theorem not_awaiting_iff {p : Pacer Value Unit} (has : d.pacer = some p)
    (due : p.due.isSome = true) : ¬ d.Awaiting ↔ p.waiting = none := by
  constructor
  · intro alone
    by_contra waits
    exact alone ⟨p, has, due, Option.isSome_iff_ne_none.2 waits⟩
  · rintro waits ⟨p', has', _, waiting⟩
    cases has.symm.trans has'
    rw [waits] at waiting
    cases waiting

/-- What follows when a value that waited is handed over while a callback may wait: the consumer
cancels the delivery, or the callback ends it, or it stays active because there is no callback or
because the consumer fails. -/
inductive Aftermath (r : Reaction) (task : Task) (waiting : Option Unit) (d' : Delivery) : Prop
  | cancelled (cancels : r.cancels = true) (ends : d'.lifecycle = .cancelled)
  | ended (unbroken : r.breaks = false) (waits : waiting.isSome = true)
      (ceased : d'.isActive = false)
  | stays (cause : r.breaks = true ∨ waiting = none) (active : d'.isActive = true)
      (same : d'.task = task) (alone : ¬ d'.Awaiting)

theorem aftermath_handOver (active : d.isActive = true) {p : Pacer Value Unit}
    (has : d.pacer = some p) (runs : p.cancelled = false) (due : p.due = none) (v : Value) :
    Aftermath (d.reaction s v) d.task p.waiting (d.handOver s now (some v)) := by
  have handed : deliverAny s d now (some v) = (if (d.reaction s v).cancels then
      (d.handed now v).cancel else d.handed now v, (d.reaction s v).fault) := if_pos active
  unfold handOver
  rw [handed]
  cases cancels : (d.reaction s v).cancels with
  | true =>
    have ends : (d.handed now v).cancel.lifecycle = .cancelled :=
      lifecycle_cancel (d := d.handed now v) active
    refine .cancelled cancels ?_
    rw [if_pos rfl]
    cases (d.reaction s v).fault with
    | some fault => exact ends
    | none =>
      dsimp only
      split
      · exact ends
      · rename_i p' stopped
        -- the delivery is over, and what is left to do does not change its state
        have rest : Moves s.consumer (d.handed now v).cancel
            (completeIf s { (d.handed now v).cancel with pacer := some p'.settle.1 } now
              p'.settle.2) := .trans (.single (.settle stopped)) (moves_completeIf _)
        exact (quiet_of_moves (by rw [ends]; rfl) rest).1.trans ends
  | false =>
    rw [if_neg Bool.false_ne_true]
    cases fails : (d.reaction s v).fault with
    | some fault =>
      have breaks : (d.reaction s v).breaks = true := by simp [Reaction.breaks, cancels, fails]
      exact .stays (.inl breaks) active rfl (not_awaiting_of_due has due)
    | none =>
      have unbroken : (d.reaction s v).breaks = false := by simp [Reaction.breaks, fails]
      have same : (d.handed now v).pacer = some p := has
      have calls : p.settle.2 = p.waiting := by simp [Pacer.settle, runs]
      simp only [same, calls]
      cases waits : p.waiting with
      | none => exact .stays (.inr rfl) active rfl (not_awaiting_of_due (p := p.settle.1) rfl due)
      | some callback => exact .ended unbroken rfl isActive_complete

/-- What follows when the timer of an active delivery runs out. -/
theorem Coherent.aftermath (h : Coherent d) (s : Subscription) (now : Rat)
    (active : d.isActive = true) {p : Pacer Value Unit}
    (has : d.pacer = some p) (due : p.due.isSome = true) :
    ∃ v, p.pending = some v ∧ Aftermath (d.reaction s v) d.task p.waiting (d.expire s now) := by
  obtain ⟨t, set⟩ := Option.isSome_iff_exists.1 due
  obtain ⟨v, pending, runs, released⟩ := (h.pacer p has).1.expire_eq now set
  have runs' : (p.expire now).1.cancelled = false := by
    rw [released]
    exact runs
  have after : Aftermath (d.reaction s v) d.task (p.expire now).1.waiting
      (handOver s { d with pacer := some (p.expire now).1 } now (some v)) :=
    aftermath_handOver (d := { d with pacer := some (p.expire now).1 }) active rfl runs'
      (p.due_expire now) v
  have expired : d.expire s now =
      handOver s { d with pacer := some (p.expire now).1 } now (some v) := by
    simp only [expire, has, due, if_true, released]
  refine ⟨v, pending, ?_⟩
  rw [expired]
  rw [released] at after ⊢
  exact after

/-- Nothing happens when there is no timer to run out. -/
theorem expire_of_due (unset : ∀ p ∈ d.pacer, p.due = none) : d.expire s now = d := by
  unfold expire
  split
  · rfl
  · rename_i p has
    rw [unset p has]
    rfl

theorem due_or_not (d : Delivery) :
    (∃ p, d.pacer = some p ∧ p.due.isSome = true) ∨ ∀ p ∈ d.pacer, p.due = none := by
  by_cases set : ∃ p, d.pacer = some p ∧ p.due.isSome = true
  · exact .inl set
  · refine .inr fun p has => ?_
    by_contra due
    exact set ⟨p, has, Option.isSome_iff_ne_none.2 due⟩

/-! ### One signal -/

theorem step_outcome (unasked : d.stopping = false) {since : Rat} (task : d.task = .fetching since)
    (result : Except Failure Answer) :
    d.step s now (.outcome result) = d.takeOutcome s now result := by
  simp [step, resume, unasked, task]

theorem step_finish (unasked : d.stopping = false) (task : d.task = .listening) :
    d.step s now .finish = d.endStream s now := by
  simp [step, resume, unasked, task]

/-- A slip strands the delivery. -/
theorem Strands.stranded (h : Coherent d) {x : Signal} (strands : d.Strands s x) (now : Rat) :
    (d.step s now x).Stranded := by
  -- The slip is kept beside its cases, since the laws of the single signals speak of it.
  cases id strands with
  | fetched active task =>
    rw [step_outcome (h.not_stopping active) task]
    exact (stranded_takeOutcome active task (h.waits (by simp [task])) _).2 strands
  | unslept active task =>
    rw [step_outcome (h.not_stopping active) task]
    exact (stranded_takeOutcome active task (h.waits (by simp [task])) _).2 strands
  | unclosed active task =>
    rw [step_finish (h.not_stopping active) task]
    exact (stranded_endStream h active task).2 strands
  | @expired p v active task has value waits breaks =>
    have due : p.due.isSome = true := by
      rw [(h.pacer p has).1.waits, value]
      rfl
    obtain ⟨v', value', after⟩ := h.aftermath s now active has due
    cases value.symm.trans value'
    cases after with
    | cancelled cancels ends => simp [Reaction.breaks, cancels] at breaks
    | ended unbroken _ _ =>
      rw [breaks] at unbroken
      cases unbroken
    | stays _ active' task' alone => exact ⟨active', task'.trans task, alone⟩

/-- Nothing but a cancellation ends a stranded delivery. -/
theorem Stranded.step (h : Coherent d) (stranded : d.Stranded) (s : Subscription) (now : Rat)
    (x : Signal) : (d.step s now x).Stranded ∨ (d.step s now x).lifecycle = .cancelled := by
  have unasked := h.not_stopping stranded.active
  have rests : (d.resume s now x).Stranded := by
    unfold resume
    simp only [stranded.finished]
    exact stranded
  cases x with
  | start =>
    have started : d.lifecycle ≠ .idle := by simp [isActive_iff.1 stranded.active]
    rw [step_start_of_error (start_of_not_idle started)]
    exact .inl stranded
  | cancel => exact .inr (lifecycle_cancel stranded.active)
  | timer =>
    show (d.expire s now).Stranded ∨ (d.expire s now).lifecycle = .cancelled
    rcases d.due_or_not with ⟨p, has, due⟩ | unset
    · have waits := (not_awaiting_iff has due).1 stranded.alone
      obtain ⟨v, _, after⟩ := h.aftermath s now stranded.active has due
      cases after with
      | cancelled _ ends => exact .inr ends
      | ended _ waits' _ =>
        rw [waits] at waits'
        cases waits'
      | stays _ active task alone => exact .inl ⟨active, task.trans stranded.finished, alone⟩
    · rw [expire_of_due unset]
      exact .inl stranded
  | interrupt =>
    show (d.interrupt now).Stranded ∨ _
    rw [interrupt, unasked]
    exact .inl stranded
  | _ =>
    refine .inl ?_
    simp only [Delivery.step, unasked]
    exact rests

/-- Neither an answer of the stream nor a failure of it leaves a delivery active without a task. -/
theorem not_stranded_takeItem (active : d.isActive = true) (task : d.task = .listening)
    (result : Except Failure Answer) : ¬ (d.takeItem s now result).Stranded := by
  have ends {d' : Delivery} (fault : Failure) :
      ¬ ((d'.fail s now fault).closeStream now).Stranded :=
    not_stranded_of_not_active (isActive_fail fault)
  unfold takeItem
  split
  · exact not_stranded_of_not_active (isActive_fail _)
  · rw [if_pos active]
    unfold takeAnswer
    split
    · exact ends _
    · rename_i v _
      split
      · exact ends _
      · rename_i d' pushed
        refine not_stranded_of_running ?_
        have same : (d.pushValue s now v).1.task = d.task := task_pushValue v
        rw [pushed, task] at same
        rw [same]
        rfl

theorem not_stranded_fetch (active : d.isActive = true) (query : CompiledQuery) :
    ¬ (d.fetch now query).Stranded := by
  rw [fetch, if_pos active]
  exact not_stranded_of_running rfl

theorem not_stranded_run (active : d.isActive = true) (ready : d.task = .ready) :
    ¬ (d.run s now).Stranded := by
  unfold run
  split
  · refine not_stranded_of_running ?_
    rw [ready]
    rfl
  · split
    · unfold openStream
      dsimp only
      split
      · exact not_stranded_of_not_active (isActive_fail _)
      · exact not_stranded_of_running rfl
    · exact not_stranded_fetch active _

theorem not_stranded_wake (active : d.isActive = true) {due : Rat} (task : d.task = .sleeping due) :
    ¬ (d.wake now).Stranded := by
  unfold wake
  split
  · refine not_stranded_of_running ?_
    rw [task]
    rfl
  · exact not_stranded_fetch active _

/-- A task that goes on strands its delivery by a slip only. -/
theorem stranded_of_resume (h : Coherent d) (active : d.isActive = true) {x : Signal}
    (stranded : (d.resume s now x).Stranded) : d.Stranded ∨ d.Strands s x := by
  unfold resume at stranded
  split at stranded
  · rename_i ready
    exact absurd stranded (not_stranded_run active ready)
  · rename_i listening
    exact absurd stranded (not_stranded_takeItem active listening _)
  · rename_i listening
    exact .inr ((stranded_endStream h active listening).1 stranded)
  · rename_i fetching
    have waits := h.waits (by simp [fetching])
    exact .inr ((stranded_takeOutcome active fetching waits _).1 stranded)
  · rename_i sleeping
    exact absurd stranded (not_stranded_wake active sleeping)
  · exact .inl stranded

/-- A timer that runs out strands a delivery by a slip only. -/
theorem stranded_of_expire (h : Coherent d) (active : d.isActive = true)
    (stranded : (d.expire s now).Stranded) : d.Stranded ∨ d.Strands s .timer := by
  rcases d.due_or_not with ⟨p, has, due⟩ | unset
  · obtain ⟨v, value, after⟩ := h.aftermath s now active has due
    cases after with
    | cancelled _ ends =>
      have ended := stranded.active
      rw [isActive_iff, ends] at ended
      cases ended
    | ended _ _ ceased => exact absurd stranded (not_stranded_of_not_active ceased)
    | stays cause _ task _ =>
      have finished : d.task = .finished := task.symm.trans stranded.finished
      cases waits : p.waiting with
      | none => exact .inl ⟨active, finished, (not_awaiting_iff has due).2 waits⟩
      | some callback =>
        refine .inr (.expired active finished has value (by rw [waits]; rfl) ?_)
        rcases cause with breaks | none'
        · exact breaks
        · rw [waits] at none'
          cases none'
  · rw [expire_of_due unset] at stranded
    exact .inl stranded

theorem isActive_interrupt : (d.interrupt now).isActive = d.isActive := by
  unfold interrupt
  split
  · split <;> rfl
  · rfl

/-- Before its start a delivery has nothing to be stranded by. -/
theorem not_stranded_of_idle (h : Coherent d) (idle : d.lifecycle = .idle) (x : Signal) :
    ¬ (d.step s now x).Stranded := by
  obtain ⟨absent, unpaced⟩ := h.idle idle
  have inactive : d.isActive = false := by simp [isActive, idle]
  have stops : ¬ (d.interrupt now).Stranded :=
    not_stranded_of_not_active (isActive_interrupt.trans inactive)
  have rests : d.resume s now x = d := by simp [resume, absent]
  cases x with
  | start =>
    cases started : d.start s with
    | error fault =>
      rw [step_start_of_error started]
      exact not_stranded_of_not_active inactive
    | ok d' =>
      rw [step_start_of_ok started]
      obtain ⟨query, _, _, rfl⟩ := start_eq_ok started
      exact not_stranded_of_running rfl
  | cancel => exact not_stranded_of_not_active isActive_cancel
  | timer =>
    have same : d.expire s now = d := expire_of_due (by simp [unpaced])
    show ¬ (d.expire s now).Stranded
    rw [same]
    exact not_stranded_of_not_active inactive
  | interrupt => exact stops
  | _ =>
    unfold step
    dsimp only
    split
    · exact stops
    · rw [rests]
      exact not_stranded_of_not_active inactive

/-- Only a slip strands a delivery. -/
theorem stranded_of_step (h : Coherent d) {x : Signal} (stranded : (d.step s now x).Stranded) :
    d.Stranded ∨ d.Strands s x := by
  -- A final state stays, and an idle delivery has no task: only an active one can slip.
  by_cases ceased : d.lifecycle.isFinal = true
  · have same := (quiet_of_moves ceased (moves_step s d now x)).1
    rw [← same] at ceased
    exact absurd stranded (not_stranded_of_not_active (isActive_of_final ceased))
  by_cases idle : d.lifecycle = .idle
  · exact absurd stranded (not_stranded_of_idle h idle x)
  have active : d.isActive = true := by
    cases l : d.lifecycle <;> simp_all [isActive, Lifecycle.isFinal]
  have unasked := h.not_stopping active
  cases x with
  | start =>
    rw [step_start_of_error (start_of_not_idle idle)] at stranded
    exact .inl stranded
  | cancel => exact absurd stranded (not_stranded_of_not_active isActive_cancel)
  | timer => exact stranded_of_expire h active stranded
  | interrupt =>
    have same : d.step s now .interrupt = d := by simp [step, interrupt, unasked]
    rw [same] at stranded
    exact .inl stranded
  | _ =>
    simp only [step, unasked] at stranded
    exact stranded_of_resume h active stranded

end Delivery

end GraphRequest

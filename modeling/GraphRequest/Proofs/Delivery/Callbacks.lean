import GraphRequest.Proofs.Delivery.Moves
import GraphRequest.Proofs.Schema.Introspected

/-!
# When the consumer is called

A consumer may cancel the delivery whenever it is called. The trace of a delivery tells what was
called and in which state, so what a consumer may rely on is said of the trace.

* `Orderly`: values are handed over by an active delivery only, the callback of an end is called
  once and in the state that it belongs to, and nothing is called after a callback that cancels.
* `Quiet`: a delivery goes on without calling its consumer.
* `callbacks_orderly`: both, for every run.
-/

namespace GraphRequest

namespace Event

/-- Whether an event hands a value over. -/
def isData : Event → Bool
  | .data _ => true
  | _ => false

/-- The state whose callback an event calls. -/
def ending? : Event → Option Lifecycle
  | .error _ => some .errored
  | .complete => some .completed
  | _ => none

theorem isFinal_of_ending {e : Event} {l : Lifecycle} (h : e.ending? = some l) :
    l.isFinal = true := by
  cases e <;> simp only [ending?, Option.some.injEq, reduceCtorEq] at h
  · rw [← h]
    rfl
  · rw [← h]
    rfl

/-- An event that announces an end calls the consumer. -/
theorem isCallback_of_ending {e : Event} (h : e.ending?.isSome = true) : e.isCallback = true := by
  cases e with
  | error fault => rfl
  | complete => rfl
  | _ => cases h

end Event

/-- Whether a consumer cancels the delivery when an event calls it, the number of values handed over
before being given. -/
def Consumer.cancelsOn (c : Consumer) (handed : Nat) : Event → Bool
  | .data v => (c.onData (handed + 1) v).cancels
  | .error _ => c.onError == some true
  | .complete => c.onComplete == some true
  | _ => false

/-- The number of values handed over in a trace. -/
def handedOver (trace : List Observation) : Nat := trace.countP fun o => o.event.isData

namespace Delivery

/-- What a consumer may rely on, whatever happens to a delivery. -/
structure Orderly (c : Consumer) (d : Delivery) : Prop where
  /-- Values are handed over by an active delivery. -/
  data : ∀ o ∈ d.trace, o.event.isData = true → o.lifecycle = .active
  /-- The callback of an end is called in the state of that end. -/
  ending : ∀ o ∈ d.trace, ∀ l ∈ o.event.ending?, o.lifecycle = l
  /-- A final state stays. -/
  final : ∀ before (o : Observation) after, d.trace = before ++ o :: after →
    o.lifecycle.isFinal = true →
    (∀ x ∈ after, x.lifecycle = o.lifecycle) ∧ d.lifecycle = o.lifecycle
  /-- There is one end at most. -/
  once : d.trace.countP (fun o => o.event.ending?.isSome) ≤ 1
  /-- Nothing is called after a callback that cancels. -/
  stops : ∀ before (o : Observation) after, d.trace = before ++ o :: after →
    c.cancelsOn (handedOver before) o.event = true →
    ∀ x ∈ after, x.event.isCallback = false

/-- The callback of an end tells the state that the delivery stays in. -/
theorem Orderly.tells {c : Consumer} {d : Delivery} (h : Orderly c d) :
    ∀ o ∈ d.trace, ∀ l ∈ o.event.ending?, d.lifecycle = l := by
  intro o ho l hl
  have own := h.ending o ho l hl
  obtain ⟨before, after, split⟩ := List.append_of_mem ho
  refine (h.final before o after split ?_).2.trans own
  rw [own]
  exact Event.isFinal_of_ending hl

/-- A delivery goes on to another one without calling its consumer. -/
def Quiet (d d' : Delivery) : Prop :=
  ∃ later, d'.trace = d.trace ++ later ∧ ∀ o ∈ later, o.event.isCallback = false

/-! ### One move -/

/-- What moves preserve: the trace is orderly, the values in it are counted, and a delivery that its
consumer cancelled is over. -/
structure Kept (c : Consumer) (d : Delivery) : Prop where
  orderly : Orderly c d
  counted : d.delivered = handedOver d.trace
  ceased : ∀ before (o : Observation) after, d.trace = before ++ o :: after →
    c.cancelsOn (handedOver before) o.event = true → d.lifecycle.isFinal = true

variable {c : Consumer} {d d' : Delivery}

theorem kept_idle (c : Consumer) : Kept c idle where
  orderly := by
    refine ⟨?_, ?_, ?_, Nat.zero_le 1, ?_⟩
    · simp [idle]
    · simp [idle]
    · simp [idle]
    · simp [idle]
  counted := rfl
  ceased := by simp [idle]

/-- A change of state alone keeps what moves preserve, unless the state was final. -/
theorem Kept.of_trace_eq (h : Kept c d) (trace : d'.trace = d.trace)
    (delivered : d'.delivered = d.delivered)
    (state : d.lifecycle.isFinal = true → d'.lifecycle = d.lifecycle) : Kept c d' where
  orderly := by
    refine ⟨?_, ?_, ?_, ?_, ?_⟩
    · rw [trace]
      exact h.orderly.data
    · rw [trace]
      exact h.orderly.ending
    · rw [trace]
      intro before o after split final
      obtain ⟨stays, same⟩ := h.orderly.final before o after split final
      exact ⟨stays, (state (same ▸ final)).trans same⟩
    · rw [trace]
      exact h.orderly.once
    · rw [trace]
      exact h.orderly.stops
  counted := by rw [delivered, trace, h.counted]
  ceased := by
    rw [trace]
    intro before o after split cancels
    have final := h.ceased before o after split cancels
    rw [state final]
    exact final

/-- The last element of a list is the split point of it, or it comes behind. -/
theorem split_concat {α : Type} {l before after : List α} {x o : α}
    (h : l ++ [x] = before ++ o :: after) :
    (before = l ∧ o = x ∧ after = []) ∨
      ∃ rest, after = rest ++ [x] ∧ l = before ++ o :: rest := by
  rcases List.eq_nil_or_concat after with rfl | ⟨rest, y, rfl⟩
  · obtain ⟨same, last⟩ := List.append_inj' h rfl
    cases last
    exact .inl ⟨same.symm, rfl, rfl⟩
  · rw [List.concat_eq_append, ← List.cons_append, ← List.append_assoc] at h
    obtain ⟨same, last⟩ := List.append_inj' h rfl
    cases last
    exact .inr ⟨rest, by rw [List.concat_eq_append], same⟩

/-- In an active delivery no end was announced. -/
theorem Kept.countP_ending (h : Kept c d) (active : d.lifecycle = .active) :
    d.trace.countP (fun o => o.event.ending?.isSome) = 0 := by
  rw [List.countP_eq_zero]
  intro o ho ends
  obtain ⟨l, hl⟩ := Option.isSome_iff_exists.1 ends
  have final : d.lifecycle.isFinal = true := by
    rw [h.orderly.tells o ho l hl]
    exact Event.isFinal_of_ending hl
  rw [active] at final
  cases final

/-- An event keeps what moves preserve if it belongs to its state. -/
theorem Kept.append (h : Kept c d) {x : Observation} (trace : d'.trace = d.trace ++ [x])
    (delivered : d'.delivered = d.delivered + if x.event.isData then 1 else 0)
    (stays : d.lifecycle.isFinal = true → x.lifecycle = d.lifecycle)
    (state : x.lifecycle.isFinal = true → d'.lifecycle = x.lifecycle)
    (data : x.event.isData = true → x.lifecycle = .active)
    (ending : ∀ l ∈ x.event.ending?, x.lifecycle = l)
    (seen : x.event.isCallback = true → d.lifecycle = .active)
    (cancels : c.cancelsOn d.delivered x.event = true → d'.lifecycle.isFinal = true) :
    Kept c d' := by
  have member {P : Observation → Prop} (old : ∀ o ∈ d.trace, P o) (new : P x) :
      ∀ o ∈ d'.trace, P o := by
    rw [trace]
    intro o ho
    rcases List.mem_append.1 ho with ho | ho
    · exact old o ho
    · rw [List.mem_singleton.1 ho]
      exact new
  have unseen (final : d.lifecycle.isFinal = true) : x.event.isCallback = false := by
    apply Bool.eq_false_iff.2
    intro hx
    rw [seen hx] at final
    cases final
  have follows (final : d.lifecycle.isFinal = true) : d'.lifecycle = d.lifecycle := by
    have same := stays final
    rw [← same] at final ⊢
    exact state final
  -- Each law speaks of a split of the trace: the new event is at the split, or behind it.
  refine ⟨⟨member h.orderly.data data, member h.orderly.ending ending, ?_, ?_, ?_⟩, ?_, ?_⟩
  · rw [trace]
    intro before o after split final
    rcases split_concat split with ⟨_, rfl, rfl⟩ | ⟨rest, rfl, old⟩
    · exact ⟨by simp, state final⟩
    · obtain ⟨same, last⟩ := h.orderly.final before o rest old final
      have ceased : d.lifecycle.isFinal = true := last ▸ final
      refine ⟨?_, (follows ceased).trans last⟩
      intro y hy
      rcases List.mem_append.1 hy with hy | hy
      · exact same y hy
      · rw [List.mem_singleton.1 hy]
        exact (stays ceased).trans last
  · rw [trace, List.countP_append, List.countP_singleton]
    split
    · rename_i ends
      have active : d.lifecycle = .active := seen (Event.isCallback_of_ending ends)
      simp [h.countP_ending active]
    · exact h.orderly.once
  · rw [trace]
    intro before o after split stop
    rcases split_concat split with ⟨_, rfl, rfl⟩ | ⟨rest, rfl, old⟩
    · simp
    · intro y hy
      rcases List.mem_append.1 hy with hy | hy
      · exact h.orderly.stops before o rest old stop y hy
      · rw [List.mem_singleton.1 hy]
        exact unseen (h.ceased before o rest old stop)
  · rw [trace, delivered, h.counted, handedOver, handedOver, List.countP_append,
      List.countP_singleton]
  · rw [trace]
    intro before o after split stop
    rcases split_concat split with ⟨rfl, rfl, rfl⟩ | ⟨rest, rfl, old⟩
    · rw [← h.counted] at stop
      exact cancels stop
    · have ceased := h.ceased before o rest old stop
      rw [follows ceased]
      exact ceased

theorem isActive_iff : d.isActive = true ↔ d.lifecycle = .active := by
  simp [isActive]

/-- A callback of a delivery that is over is called if there is one. It cannot cancel any more. -/
theorem callBack_of_final (h : d.lifecycle.isFinal = true) (now : Rat) (callback : Option Bool)
    (e : Event) :
    d.callBack now callback e = if callback.isSome then d.record now e else d := by
  cases callback with
  | none => rfl
  | some cancels =>
    have ceased : (d.record now e).cancel = d.record now e := cancel_of_final h
    simp [callBack, ceased]

/-- The end of an active delivery keeps what moves preserve. -/
theorem Kept.shutDown (h : Kept c d) (active : d.lifecycle = .active) {l : Lifecycle}
    (final : l.isFinal = true) (now : Rat) (callback : Option Bool) {e : Event}
    (own : e.ending? = some l) : Kept c ((d.shutDown l).callBack now callback e) := by
  have running : ¬ d.lifecycle.isFinal = true := by
    rw [active]
    decide
  have unseen : e.isData = false := by
    cases e <;> first | rfl | cases own
  rw [callBack_of_final (d := d.shutDown l) final]
  split
  · refine h.append (x := ⟨now, l, e⟩) rfl ?_ ?_ ?_ ?_ ?_ ?_ ?_
    · simp [unseen, record, Delivery.shutDown]
    · exact fun ceased => absurd ceased running
    · exact fun _ => rfl
    · simp [unseen]
    · intro l' hl
      rw [own] at hl
      exact Option.mem_some_iff.1 hl
    · exact fun _ => active
    · exact fun _ => final
  · exact h.of_trace_eq rfl rfl fun ceased => absurd ceased running

theorem trace_cancel : d.cancel.trace = d.trace := by
  unfold cancel
  split <;> rfl

theorem delivered_cancel : d.cancel.delivered = d.delivered := by
  unfold cancel
  split <;> rfl

theorem isFinal_cancel : d.cancel.lifecycle.isFinal = true := by
  unfold cancel
  split
  · rename_i final
    exact final
  · rfl

theorem Kept.hand (h : Kept c d) (active : d.lifecycle = .active) (now : Rat) (v : Value) :
    Kept c (if (c.onData (d.delivered + 1) v).cancels then (d.handed now v).cancel
      else d.handed now v) := by
  have running : ¬ d.lifecycle.isFinal = true := by
    rw [active]
    decide
  have ends : ¬ (Observation.mk now d.lifecycle (.data v)).lifecycle.isFinal = true := running
  split
  · refine h.append (x := ⟨now, d.lifecycle, .data v⟩) trace_cancel delivered_cancel
      ?_ ?_ ?_ ?_ ?_ ?_
    · exact fun ceased => absurd ceased running
    · exact fun ceased => absurd ceased ends
    · exact fun _ => active
    · simp [Event.ending?]
    · exact fun _ => active
    · exact fun _ => isFinal_cancel
  · rename_i stays
    refine h.append (x := ⟨now, d.lifecycle, .data v⟩) rfl rfl ?_ ?_ ?_ ?_ ?_ ?_
    · exact fun ceased => absurd ceased running
    · exact fun ceased => absurd ceased ends
    · exact fun _ => active
    · simp [Event.ending?]
    · exact fun _ => active
    · exact fun cancels => absurd cancels stays

theorem Kept.note (h : Kept c d) (now : Rat) {e : Event} (unseen : e.isCallback = false) :
    Kept c (d.record now e) := by
  have data : e.isData = false := by
    cases e <;> first | rfl | cases unseen
  have ending : e.ending? = none := by
    cases e <;> first | rfl | cases unseen
  have cancels : c.cancelsOn d.delivered e = false := by
    cases e <;> first | rfl | cases unseen
  refine h.append (x := ⟨now, d.lifecycle, e⟩) rfl ?_ ?_ ?_ ?_ ?_ ?_ ?_
  · simp [data, record]
  · exact fun _ => rfl
  · exact fun _ => rfl
  · simp [data]
  · simp [ending]
  · simp [unseen]
  · simp [cancels]

theorem Kept.move (h : Kept c d) (move : Move c d d') : Kept c d' := by
  cases move with
  | start s query idle =>
    refine h.of_trace_eq rfl rfl fun ceased => ?_
    rw [idle] at ceased
    cases ceased
  | cancel =>
    exact h.of_trace_eq trace_cancel delivered_cancel fun ceased => by rw [cancel_of_final ceased]
  | hand now v active => exact h.hand (isActive_iff.1 active) now v
  | fail now fault active => exact h.shutDown (isActive_iff.1 active) rfl now _ rfl
  | complete now active => exact h.shutDown (isActive_iff.1 active) rfl now _ rfl
  | note now e unseen => exact h.note now unseen
  | _ => exact h.of_trace_eq rfl rfl fun _ => rfl

/-! ### Final states -/

theorem Quiet.refl (d : Delivery) : Quiet d d := ⟨[], by simp, by simp⟩

theorem Quiet.trans {d'' : Delivery} (h : Quiet d d') (h' : Quiet d' d'') : Quiet d d'' := by
  obtain ⟨later, same, unseen⟩ := h
  obtain ⟨later', same', unseen'⟩ := h'
  refine ⟨later ++ later', by rw [same', same, List.append_assoc], ?_⟩
  intro o ho
  rcases List.mem_append.1 ho with ho | ho
  · exact unseen o ho
  · exact unseen' o ho

/-- A delivery that is over stays in its state and calls nobody. -/
theorem quiet_of_move (ceased : d.lifecycle.isFinal = true) (move : Move c d d') :
    d'.lifecycle = d.lifecycle ∧ Quiet d d' := by
  have inactive : ¬ d.isActive = true := by
    rw [isActive_iff]
    intro active
    rw [active] at ceased
    cases ceased
  cases move with
  | start s query idle =>
    rw [idle] at ceased
    cases ceased
  | cancel =>
    rw [cancel_of_final ceased]
    exact ⟨rfl, .refl d⟩
  | hand now v active => exact absurd active inactive
  | fail now fault active => exact absurd active inactive
  | complete now active => exact absurd active inactive
  | note now e unseen =>
    refine ⟨rfl, [⟨now, d.lifecycle, e⟩], rfl, ?_⟩
    intro o ho
    rw [List.mem_singleton.1 ho]
    exact unseen
  | _ => exact ⟨rfl, [], (List.append_nil _).symm, by simp⟩

theorem quiet_of_moves (ceased : d.lifecycle.isFinal = true) (moves : Moves c d d') :
    d'.lifecycle = d.lifecycle ∧ Quiet d d' := by
  induction moves with
  | refl => exact ⟨rfl, .refl d⟩
  | tail _ move ih =>
    obtain ⟨same, quiet⟩ := ih
    obtain ⟨same', quiet'⟩ := quiet_of_move (same ▸ ceased) move
    exact ⟨same'.trans same, quiet.trans quiet'⟩

end Delivery

namespace Session

/-- A start that is refused leaves the delivery as it was. -/
structure Refuses (c : Session) (now : Rat) : Prop where
  /-- A delivery is started once, and its request must compile. -/
  fails : c.delivery.lifecycle ≠ .idle ∨
      (∃ fault, c.subscription.schema.compileBy c.subscription.read
        (Delivery.requestOf c.subscription) = .error fault) →
    ∃ fault, c.delivery.start c.subscription = .error fault
  unchanged : ∀ fault, c.delivery.start c.subscription = .error fault →
    (c.step now .start).delivery = c.delivery

theorem refuses (c : Session) (now : Rat) : c.Refuses now where
  fails := by
    rintro (started | ⟨fault, refused⟩)
    · exact ⟨_, Delivery.start_of_not_idle started⟩
    · by_cases idle : c.delivery.lifecycle = .idle
      · exact ⟨fault, by simp [Delivery.start, idle, refused, bind, Except.bind]⟩
      · exact ⟨_, Delivery.start_of_not_idle idle⟩
  unchanged := fun _ refused => Delivery.step_start_of_error refused now

theorem kept_steps (s : Subscription) (signals : List (Rat × Signal)) :
    Delivery.Kept s.consumer ((idle s).steps signals).delivery :=
  Delivery.Moves.preserves (fun _ _ move kept => kept.move move) ((idle s).moves_steps signals)
    (Delivery.kept_idle s.consumer)

/-- Whatever signals come, from its owner, its connection or its timers, and whatever its consumer
cancels: a delivery calls its consumer in order, a callback of an end tells the state that the
delivery stays in, a final state stays and calls nobody, nobody is called after a cancellation, and
a start that is refused leaves the delivery as it was. -/
theorem callbacks_orderly (s : Subscription) (before after : List (Rat × Signal)) (now : Rat) :
    let c := (idle s).steps before
    let later := (c.steps after).delivery
    let cancelled := (c.step now .cancel).steps after
    Delivery.Orderly s.consumer later ∧
      (∀ o ∈ later.trace, ∀ l ∈ o.event.ending?, later.lifecycle = l) ∧
      (c.delivery.lifecycle.isFinal = true →
        later.lifecycle = c.delivery.lifecycle ∧ Delivery.Quiet c.delivery later) ∧
      (cancelled.delivery.lifecycle.isFinal = true ∧
        Delivery.Quiet c.delivery cancelled.delivery) ∧
      c.Refuses now := by
  intro c later cancelled
  have moves (c' : Session) (same : c'.subscription.consumer = s.consumer) :
      Delivery.Moves s.consumer c'.delivery (c'.steps after).delivery := by
    rw [← same]
    exact c'.moves_steps after
  have consumer : c.subscription.consumer = s.consumer := consumer_steps _ _
  have orderly : Delivery.Orderly s.consumer later := by
    have kept := kept_steps s (before ++ after)
    rw [steps_append] at kept
    exact kept.orderly
  refine ⟨orderly, orderly.tells, fun ceased => ?_, ?_, c.refuses now⟩
  · exact Delivery.quiet_of_moves ceased (moves c consumer)
  · have ceased : (c.step now .cancel).delivery.lifecycle.isFinal = true := Delivery.isFinal_cancel
    have stopped : Delivery.Quiet c.delivery (c.step now .cancel).delivery :=
      ⟨[], by rw [List.append_nil]; exact Delivery.trace_cancel, by simp⟩
    obtain ⟨same, quiet⟩ := Delivery.quiet_of_moves ceased
      (moves (c.step now .cancel) ((c.consumer_step now .cancel).trans consumer))
    exact ⟨same ▸ ceased, stopped.trans quiet⟩

end Session

/-! ### A subscription -/

namespace Sample

/-- A schema with subscriptions: users and their numbers. -/
def live : Schema := (Schema.ofIntrospection (.obj [
  ("queryType", .obj [("name", .str "Query")]), ("subscriptionType", .obj [("name", .str "Query")]),
  ("types", .arr [object "Query" [member "users" (plain "OBJECT" "User") []],
    object "User" [member "id" (plain "SCALAR" "Int") []]])])).toOption.get (by decide +kernel)

/-- A request for the numbers of the users. -/
def numbers : Request := (Request.ofValue (.obj [("operation", .str "query"),
  ("collection", .str "users"), ("returning", .arr [.str "id"])])).toOption.get (by decide +kernel)

/-- A subscription to the users, for a consumer with a reaction to each value. -/
def subscription (supportsPush : Bool) (reaction : Nat → Reaction) : Subscription where
  schema := live
  request := numbers
  settings := .standard
  supportsPush := supportsPush
  openFault := none
  consumer := ⟨fun n _ => reaction n, some false, some false⟩

/-- An answer with no users. -/
def nobody : Except Failure Answer := .ok ⟨.obj [("users", .arr [])], .null⟩

/-- Two results are pushed one after the other, the stream ends, and the timer for the second result
runs out. -/
def pushed : List (Rat × Signal) :=
  [(0, .start), (0, .run), (0, .item nobody), (0, .item nobody), (0, .finish), (1000, .timer)]

end Sample

/-- A consumer that cancels on the first value sees that value only. -/
example :
    let s := Sample.subscription true fun _ => ⟨true, none⟩
    let d := ((Session.idle s).steps Sample.pushed).delivery
    d.lifecycle = .cancelled ∧
      (d.trace.map fun o => o.event.isCallback) = [false, true, false] := by
  decide +kernel

end GraphRequest

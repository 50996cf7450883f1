import RabbitMQ.Utils.DescribeError

/-! The one place that decides whether a failed delivery goes back to its queue. -/

namespace RabbitMQ

/-- What `Number(headers['x-delivery-count'])` comes to. -/
inductive DeliveryCount where
  /-- no finite number: there is no header, or it is none -/
  | absent
  /-- a finite number: this is the delivery `deliveryCount + 1` -/
  | counts (delivery : Rat)
  /-- a table that has no primitive value: `Number` throws -/
  | unconvertible
  deriving DecidableEq

/-- A delivery, as far as the consume pipeline reads it. `tag` is its identity (the delivery tag);
`messageId` and `dependsOn` are `none` when the property or the `depends-on` header is falsy. -/
structure Message (α : Type) where
  tag : Nat
  messageId : Option α := none
  dependsOn : Option α := none
  redelivered : Bool := false
  deliveryCount : DeliveryCount := .absent
  deriving DecidableEq

inductive RetryPolicy where
  | none
  | once
  | attempts (n : Nat)
  deriving DecidableEq

/-- `error?.retryable === false`. -/
def optsOut (error : Value) : Except Value Bool :=
  match error.retryable? with
  | .error e => .error e
  | .ok (.boolean false) => .ok true
  | .ok _ => .ok false

def shouldRequeue (message : Message α) (error : Value) (retryPolicy : RetryPolicy) :
    Except Value Bool :=
  match retryPolicy with
  | .none => .ok false
  | .once =>
    match optsOut error with
    | .error e => .error e
    | .ok true => .ok false
    | .ok false => .ok !message.redelivered
  | .attempts n =>
    match optsOut error with
    | .error e => .error e
    | .ok true => .ok false
    | .ok false =>
      match message.deliveryCount with
      -- the header counts the deliveries before this one
      | .counts delivery => .ok (delivery < n)
      -- a quorum queue omits it on a first delivery, a classic queue always
      | .absent => .ok (!message.redelivered && 1 < n)
      | .unconvertible => .error (.typeError "Cannot convert object to primitive value")

/-- The policy can be asked about a thrown value. -/
def Retriable (retryPolicy : RetryPolicy) (error : Value) : Prop :=
  retryPolicy = .none ∨ error.retryable?.isOk

instance (retryPolicy : RetryPolicy) (error : Value) : Decidable (Retriable retryPolicy error) :=
  inferInstanceAs (Decidable (_ ∨ _))

/-- `error?.retryable === false`, where that can be read. -/
def Value.final (error : Value) : Bool :=
  match error.retryable? with
  | .ok (.boolean false) => true
  | _ => false

/-- The policy comes to read the header of the delivery. -/
def RetryPolicy.Counts (retryPolicy : RetryPolicy) (error : Value) : Prop :=
  match retryPolicy with
  | .attempts _ => error.final = false
  | _ => False

instance (retryPolicy : RetryPolicy) (error : Value) : Decidable (retryPolicy.Counts error) :=
  match retryPolicy with
  | .none | .once => .isFalse id
  | .attempts _ => inferInstanceAs (Decidable (_ = false))

/-- The policy can be evaluated on a delivery and a thrown value: `retryable` can be read, and the
header can be converted unless the policy does not come to it. -/
def Evaluable (retryPolicy : RetryPolicy) (message : Message α) (error : Value) : Prop :=
  Retriable retryPolicy error ∧
    (message.deliveryCount = .unconvertible → ¬ retryPolicy.Counts error)

instance (retryPolicy : RetryPolicy) (message : Message α) (error : Value) :
    Decidable (Evaluable retryPolicy message error) := inferInstanceAs (Decidable (_ ∧ _))

theorem optsOut_eq (h : error.retryable?.isOk) : optsOut error = .ok error.final := by
  unfold optsOut Value.final
  cases hr : error.retryable? with
  | error e => simp [hr, Except.isOk, Except.toBool] at h
  | ok v =>
    cases v with
    | boolean b => cases b <;> rfl
    | _ => rfl

theorem Evaluable.shouldRequeue_ok {message : Message α} (h : Evaluable retryPolicy message error) :
    ∃ requeue, shouldRequeue message error retryPolicy = .ok requeue := by
  obtain ⟨rfl | hread, hconvertible⟩ := h
  · exact ⟨false, rfl⟩
  · have hopts := optsOut_eq hread
    cases retryPolicy with
    | none => exact ⟨false, rfl⟩
    | once =>
      rw [shouldRequeue, hopts]
      cases error.final <;> exact ⟨_, rfl⟩
    | attempts n =>
      rw [shouldRequeue, hopts]
      cases hfinal : error.final with
      | true => exact ⟨false, rfl⟩
      | false =>
        cases hcount : message.deliveryCount with
        | absent | counts => exact ⟨_, rfl⟩
        | unconvertible => exact absurd hfinal (hconvertible hcount)

theorem retriable_of_shouldRequeue {message : Message α} {requeue : Bool}
    (h : shouldRequeue message error retryPolicy = .ok requeue) : Retriable retryPolicy error := by
  have hok : ∀ b, optsOut error = .ok b → error.retryable?.isOk := by
    intro b hb
    cases hr : error.retryable? with
    | error e => rw [optsOut, hr] at hb; cases hb
    | ok v => rfl
  cases retryPolicy with
  | none => exact .inl rfl
  | once | attempts =>
    cases hopts : optsOut error with
    | error e => rw [shouldRequeue, hopts] at h; cases h
    | ok b => exact .inr (hok b hopts)

theorem evaluable_of_shouldRequeue {message : Message α} {requeue : Bool}
    (h : shouldRequeue message error retryPolicy = .ok requeue) :
    Evaluable retryPolicy message error := by
  have hretriable := retriable_of_shouldRequeue h
  refine ⟨hretriable, fun hcount hcounts => ?_⟩
  cases retryPolicy with
  | none | once => exact hcounts
  | attempts n =>
    have hfinal : error.final = false := hcounts
    have hopts := optsOut_eq (hretriable.resolve_left nofun)
    rw [shouldRequeue, hopts, hfinal, hcount] at h
    cases h

theorem evaluable_iff {message : Message α} : Evaluable retryPolicy message error ↔
    ∃ requeue, shouldRequeue message error retryPolicy = .ok requeue :=
  ⟨Evaluable.shouldRequeue_ok, fun ⟨_, h⟩ => evaluable_of_shouldRequeue h⟩

/-- A message whose header can be converted leaves only the thrown value to ask. -/
theorem Retriable.evaluable {message : Message α} (h : Retriable retryPolicy error)
    (hcount : message.deliveryCount ≠ .unconvertible) : Evaluable retryPolicy message error :=
  ⟨h, fun h => absurd h hcount⟩

end RabbitMQ

import RabbitMQ.Consumers.RetryPolicy
import RabbitMQ.Lib.Transition
import RabbitMQ.Lib.Update
import Mathlib

/-! The deliveries of a message whose handler fails.

A queue gives every delivery of a message its `redelivered` flag and its `x-delivery-count`. A quorum
queue counts the deliveries. A classic queue hands out the headers that the message came with. -/

namespace RabbitMQ

open Transition

variable {α : Type} {message : Message α} {retryPolicy : RetryPolicy} {error : Value} {k n : Nat}

/-- How many deliveries a policy allows. -/
def RetryPolicy.budget : RetryPolicy → Nat
  | .none => 1
  | .once => 2
  | .attempts n => n

/-- What the `catch` block of a consume callback sends, if it gets that far. -/
def requeueOf (message : Message α) (error : Value) (retryPolicy : RetryPolicy) : Option Bool :=
  match describedText error with
  | .error _ => none
  | .ok _ => (shouldRequeue message error retryPolicy).toOption

/-- A quorum queue: its header is `k - 1`, and is omitted on the first delivery. -/
def quorumQueue (message : Message α) (k : Nat) : Message α :=
  { message with
    redelivered := 1 < k
    deliveryCount := if 1 < k then .counts k else .absent }

/-- A classic queue. -/
def classicQueue (message : Message α) (k : Nat) : Message α := { message with redelivered := 1 < k }

/-- On a queue that counts, the delivery `k` goes back while the budget has room. -/
theorem shouldRequeue_quorumQueue (h : Retriable retryPolicy error) (hk : 0 < k) :
    shouldRequeue (quorumQueue message k) error retryPolicy =
      .ok (decide (k < retryPolicy.budget) && !error.final) := by
  rcases h with rfl | h
  · have hnot : ¬ k < RetryPolicy.none.budget := by
      rw [RetryPolicy.budget]
      omega
    rw [decide_eq_false hnot]
    rfl
  · have hopts := optsOut_eq h
    cases retryPolicy with
    | none =>
      have hnot : ¬ k < RetryPolicy.none.budget := by
        rw [RetryPolicy.budget]
        omega
      rw [decide_eq_false hnot]
      rfl
    | once =>
      rw [shouldRequeue, hopts]
      cases error.final with
      | true => simp
      | false =>
        refine congrArg Except.ok ?_
        rw [quorumQueue, RetryPolicy.budget, Bool.not_false, Bool.and_true, ← decide_not]
        exact decide_eq_decide.mpr (by omega)
    | attempts n =>
      rw [shouldRequeue, hopts]
      cases error.final with
      | true => simp
      | false =>
        rcases Nat.lt_or_ge 1 k with hlt | hle
        · have hcount : (quorumQueue message k).deliveryCount = .counts k := if_pos hlt
          simp only [hcount, RetryPolicy.budget, Bool.not_false, Bool.and_true]
          exact congrArg Except.ok (decide_eq_decide.mpr Nat.cast_lt)
        · have hone : k = 1 := by omega
          subst hone
          have hcount : (quorumQueue message 1).deliveryCount = .absent := by simp [quorumQueue]
          have hfirst : (quorumQueue message 1).redelivered = false := by simp [quorumQueue]
          simp only [hcount, hfirst, RetryPolicy.budget, Bool.not_false, Bool.true_and,
            Bool.and_true]
          exact congrArg Except.ok (decide_eq_decide.mpr .rfl)

/-- What the code can do with a failure on a queue that does not count. -/
theorem shouldRequeue_classicQueue {requeue : Bool}
    (h : shouldRequeue (classicQueue message k) error retryPolicy = .ok requeue) :
    requeue = true → error.final = false ∧ (k ≤ 1 ∨ ∃ n delivery, retryPolicy = .attempts n ∧
      message.deliveryCount = .counts delivery ∧ delivery < n) := by
  rintro rfl
  cases retryPolicy with
  | none => cases h
  | once =>
    have hread := (retriable_of_shouldRequeue h).resolve_left (by rintro ⟨⟩)
    rw [shouldRequeue, optsOut_eq hread] at h
    cases hfinal : error.final with
    | true => rw [hfinal] at h; cases h
    | false =>
      simp only [hfinal, classicQueue, Except.ok.injEq, Bool.not_eq_true',
        decide_eq_false_iff_not] at h
      exact ⟨rfl, .inl (Nat.not_lt.mp h)⟩
  | attempts n =>
    have hread := (retriable_of_shouldRequeue h).resolve_left (by rintro ⟨⟩)
    rw [shouldRequeue, optsOut_eq hread] at h
    cases hfinal : error.final with
    | true => rw [hfinal] at h; cases h
    | false =>
      refine ⟨rfl, ?_⟩
      cases hcount : message.deliveryCount with
      | absent =>
        simp only [hfinal, classicQueue, hcount, Except.ok.injEq, Bool.and_eq_true,
          Bool.not_eq_true', decide_eq_false_iff_not] at h
        exact .inl (Nat.not_lt.mp h.1)
      | counts delivery =>
        simp only [hfinal, classicQueue, hcount, Except.ok.injEq, decide_eq_true_eq] at h
        exact .inr ⟨n, delivery, rfl, rfl, h⟩
      | unconvertible =>
        simp only [hfinal, classicQueue, hcount] at h
        cases h

namespace Redelivery

/-! ## Runs -/

inductive Place where
  | queued
  /-- with the consumer, whose handler runs -/
  | delivered
  /-- its handler has failed, and nothing was sent -/
  | unsettled
  | deadLettered
  deriving DecidableEq

/-- A nack, with the number of the delivery and what its handler threw. -/
structure Nack where
  delivery : Nat
  error : Value
  requeue : Bool

structure State where
  deliveries : Nat
  place : Place
  nacks : List Nack

def start : State := ⟨0, .queued, []⟩

inductive Event where
  | deliver
  | fail (error : Value)
  /-- the connection drops: the broker takes back what is not acknowledged -/
  | drop

def State.fail (s : State) (error : Value) : Option Bool → State
  | none => { s with place := .unsettled }
  | some requeue => { s with
      place := if requeue then .queued else .deadLettered
      nacks := s.nacks ++ [⟨s.deliveries, error, requeue⟩] }

/-- The deliveries of one message, by the queue that holds it. -/
def step (queue : Nat → Message α) (retryPolicy : RetryPolicy) (s : State) : Event → Option State
  | .deliver =>
    match s.place with
    | .queued => some { s with deliveries := s.deliveries + 1, place := .delivered }
    | _ => none
  | .fail error =>
    match s.place with
    | .delivered => some (s.fail error (requeueOf (queue s.deliveries) error retryPolicy))
    | _ => none
  | .drop =>
    match s.place with
    | .delivered | .unsettled => some { s with place := .queued }
    | _ => none

/-- The handler fails every time, and the connection stays up. -/
def Failing (_ : State) : Event → Prop
  | .drop => False
  | _ => True

inductive Steps (queue : Nat → Message α) (retryPolicy : RetryPolicy) (s : State) :
    Event → State → Prop
  | deliver (hplace : s.place = .queued) : Steps queue retryPolicy s .deliver
      { s with deliveries := s.deliveries + 1, place := .delivered }
  | fail {error : Value} (hplace : s.place = .delivered) : Steps queue retryPolicy s (.fail error)
      (s.fail error (requeueOf (queue s.deliveries) error retryPolicy))
  | drop (hplace : s.place = .delivered ∨ s.place = .unsettled) :
      Steps queue retryPolicy s .drop { s with place := .queued }

variable {queue : Nat → Message α} {s t : State} {event : Event}

theorem step_cases (hs : step queue retryPolicy s event = some t) :
    Steps queue retryPolicy s event t := by
  cases event with
  | deliver =>
    simp only [step] at hs
    split at hs
    · cases hs; exact .deliver ‹_›
    · cases hs
  | fail error =>
    simp only [step] at hs
    split at hs
    · cases hs; exact .fail ‹_›
    · cases hs
  | drop =>
    simp only [step] at hs
    split at hs
    · cases hs; exact .drop (.inl ‹_›)
    · cases hs; exact .drop (.inr ‹_›)
    · cases hs

/-! ## A queue that counts -/

/-- What the handler throws gets through the `catch` block. -/
def Handled (retryPolicy : RetryPolicy) (_ : State) : Event → Prop
  | .fail error => Describable error ∧ Retriable retryPolicy error
  | _ => True

/-- The handler fails every time, and allows a retry. -/
def FailingRetryably (retryPolicy : RetryPolicy) (s : State) (event : Event) : Prop :=
  Failing s event ∧ Handled retryPolicy s event ∧ ∀ error, event = .fail error → error.final = false

theorem requeueOf_quorumQueue (hdescribable : Describable error)
    (hretriable : Retriable retryPolicy error) (hk : 0 < k) :
    requeueOf (quorumQueue message k) error retryPolicy =
      some (decide (k < retryPolicy.budget) && !error.final) := by
  obtain ⟨text, htext⟩ := hdescribable.text
  rw [requeueOf, htext]
  simp only [shouldRequeue_quorumQueue hretriable hk]
  rfl

/-- The decision on every delivery that failed. -/
structure Budgeted (retryPolicy : RetryPolicy) (s : State) : Prop where
  delivered : s.place = .delivered → 0 < s.deliveries
  settled : s.place ≠ .unsettled
  nacks : ∀ nack ∈ s.nacks,
    nack.requeue = (decide (nack.delivery < retryPolicy.budget) && !nack.error.final)

theorem Budgeted.step (h : Budgeted retryPolicy s) (hok : Handled retryPolicy s event)
    (hsteps : Steps (quorumQueue message) retryPolicy s event t) : Budgeted retryPolicy t := by
  cases hsteps with
  | deliver => exact ⟨fun _ => Nat.succ_pos _, nofun, h.nacks⟩
  | fail hplace =>
    rw [requeueOf_quorumQueue hok.1 hok.2 (h.delivered hplace)]
    refine ⟨fun hplace => ?_, fun hplace => ?_, fun nack hnack => ?_⟩
    · rw [State.fail] at hplace
      split at hplace <;> cases hplace
    · rw [State.fail] at hplace
      split at hplace <;> cases hplace
    · rcases List.mem_append.mp hnack with hnack | hnack
      · exact h.nacks nack hnack
      · cases List.mem_singleton.mp hnack
        rfl
  | drop => exact ⟨nofun, nofun, h.nacks⟩

theorem budgeted_start : Budgeted retryPolicy start where
  delivered := by
    intro hplace
    cases hplace
  settled := by
    intro hplace
    cases hplace
  nacks := by
    intro nack hnack
    cases hnack

theorem budgeted (hr : Reach (step (quorumQueue message) retryPolicy) (Handled retryPolicy) start s) :
    Budgeted retryPolicy s :=
  hr.invariant budgeted_start fun h hok hs => h.step hok (step_cases hs)

/-- A budget that is spent one failure at a time. -/
structure Spends (budget : Nat) (s : State) : Prop where
  bound : s.deliveries ≤ budget
  /-- Every failure is nacked, the last one of the budget without requeue. -/
  nacks : ∀ i nack, s.nacks[i]? = some nack →
    nack.delivery = i + 1 ∧ (nack.requeue = false ↔ i + 1 = budget)
  queued : s.place = .queued → s.deliveries = s.nacks.length ∧ s.deliveries < budget
  delivered : s.place = .delivered → s.deliveries = s.nacks.length + 1
  settled : s.place ≠ .unsettled
  deadLettered : s.place = .deadLettered → s.deliveries = budget ∧ s.nacks.length = budget

theorem Spends.step (h : Spends retryPolicy.budget s)
    (hok : FailingRetryably retryPolicy s event)
    (hsteps : Steps (quorumQueue message) retryPolicy s event t) :
    Spends retryPolicy.budget t := by
  cases hsteps with
  | deliver hplace =>
    obtain ⟨hcount, hroom⟩ := h.queued hplace
    refine ⟨hroom, h.nacks, nofun, fun _ => ?_, nofun, nofun⟩
    rw [hcount]
  | @fail error hplace =>
    have hcount := h.delivered hplace
    have hbound := h.bound
    have hfinal := hok.2.2 error rfl
    rw [requeueOf_quorumQueue hok.2.1.1 hok.2.1.2 (by omega), hfinal, Bool.not_false, Bool.and_true]
    have hlength : (s.nacks ++ [Nack.mk s.deliveries error
        (decide (s.deliveries < retryPolicy.budget))]).length = s.deliveries := by
      rw [List.length_append, List.length_singleton, hcount]
    have hnacks : ∀ i nack, (s.nacks ++ [Nack.mk s.deliveries error
        (decide (s.deliveries < retryPolicy.budget))])[i]? = some nack →
        nack.delivery = i + 1 ∧ (nack.requeue = false ↔ i + 1 = retryPolicy.budget) := by
      intro i nack hi
      rcases List.getElem?_append_cases hi with hi | ⟨rfl, rfl⟩
      · exact h.nacks i nack hi
      · refine ⟨hcount, ?_⟩
        rw [decide_eq_false_iff_not]
        omega
    refine ⟨hbound, hnacks, fun hplace => ⟨hlength.symm, ?_⟩, fun hplace => ?_, fun hplace => ?_,
      fun hplace => ?_⟩
    · rw [State.fail] at hplace
      split at hplace
      · next hroom => exact of_decide_eq_true hroom
      · cases hplace
    · rw [State.fail] at hplace
      split at hplace <;> cases hplace
    · rw [State.fail] at hplace
      split at hplace <;> cases hplace
    · rw [State.fail] at hplace
      split at hplace
      · cases hplace
      · next hspent =>
        have hspent := of_decide_eq_false (Bool.eq_false_iff.mpr hspent)
        have heq : s.deliveries = retryPolicy.budget := by omega
        exact ⟨heq, hlength.trans heq⟩
  | drop => exact absurd hok.1 id

theorem spends_start {budget : Nat} (hpositive : 0 < budget) : Spends budget start where
  bound := Nat.zero_le _
  nacks := by
    intro i nack hi
    cases hi
  queued := fun _ => ⟨rfl, hpositive⟩
  delivered := by
    intro hplace
    cases hplace
  settled := by
    intro hplace
    cases hplace
  deadLettered := by
    intro hplace
    cases hplace

theorem spends (hpositive : 0 < retryPolicy.budget)
    (hr : Reach (step (quorumQueue message) retryPolicy) (FailingRetryably retryPolicy) start s) :
    Spends retryPolicy.budget s :=
  hr.invariant (spends_start hpositive) fun h hok hs => h.step hok (step_cases hs)

/-! ## A queue that does not count -/

/-- The handler fails every time, with one of these values, and the connection stays up. -/
def FailingWith (throws : Value → Prop) (_ : State) : Event → Prop
  | .deliver => True
  | .fail error => throws error
  | .drop => False

/-- A header that the budget takes for a count of the broker, and that leaves room for ever. -/
def HotLoops (message : Message α) (retryPolicy : RetryPolicy) : Prop :=
  ∃ n delivery, retryPolicy = .attempts n ∧ message.deliveryCount = .counts delivery ∧ delivery < n

/-- The message is delivered twice at most. Every delivery that failed is nacked, the second one
without requeue. -/
structure OneShot (s : State) : Prop where
  bound : s.deliveries ≤ 2
  failed : s.place ≠ .delivered → s.nacks.length = s.deliveries
  nacks : ∀ i nack, s.nacks[i]? = some nack →
    nack.delivery = i + 1 ∧ (i = 1 → nack.requeue = false)

/-- What carries `OneShot` through a run. -/
structure Retrying (s : State) : Prop extends OneShot s where
  delivered : s.place = .delivered → s.deliveries = s.nacks.length + 1
  queued : s.place = .queued → s.deliveries ≤ 1

theorem requeueOf_eq_none : requeueOf message error retryPolicy = none ↔
    ¬ (Describable error ∧ Evaluable retryPolicy message error) := by
  rw [evaluable_iff, requeueOf, Describable]
  cases describedText error with
  | error e => simp [Except.isOk, Except.toBool]
  | ok text =>
    cases shouldRequeue message error retryPolicy with
    | error e => simp [Except.toOption]
    | ok requeue => simp [Except.toOption, Except.isOk, Except.toBool]

theorem requeueOf_eq_some {requeue : Bool}
    (h : requeueOf message error retryPolicy = some requeue) :
    shouldRequeue message error retryPolicy = .ok requeue := by
  unfold requeueOf at h
  split at h
  · cases h
  · cases hwish : shouldRequeue message error retryPolicy with
    | error e =>
      rw [hwish] at h
      cases h
    | ok b =>
      rw [hwish] at h
      cases h
      rfl

variable {throws : Value → Prop}

theorem Retrying.step (h : Retrying s)
    (hcaught : ∀ error, throws error → Describable error ∧ Evaluable retryPolicy message error)
    (hnot : ¬ (HotLoops message retryPolicy ∧ ∃ error, throws error ∧ error.final = false))
    (hok : FailingWith throws s event)
    (hsteps : Steps (classicQueue message) retryPolicy s event t) : Retrying t := by
  cases hsteps with
  | deliver hplace =>
    have hlength := h.failed (by rw [hplace]; exact nofun)
    refine ⟨⟨Nat.succ_le_succ (h.queued hplace), fun hne => absurd rfl hne, h.nacks⟩,
      fun _ => ?_, nofun⟩
    rw [hlength]
  | @fail error hplace =>
    have hcount := h.delivered hplace
    have hbound := h.bound
    cases hrequeue : requeueOf (classicQueue message s.deliveries) error retryPolicy with
    | none =>
      -- whether the policy can be evaluated does not depend on the flag of the queue
      have hnot := requeueOf_eq_none.mp hrequeue
      exact absurd (hcaught error hok) hnot
    | some requeue =>
      have hback := shouldRequeue_classicQueue (requeueOf_eq_some hrequeue)
      -- a second delivery that goes back is the hot loop
      have hfirst : requeue = true → s.deliveries ≤ 1 := fun htrue =>
        (hback htrue).2.resolve_right fun hloops => hnot ⟨hloops, error, hok, (hback htrue).1⟩
      have hlength : (s.nacks ++ [Nack.mk s.deliveries error requeue]).length = s.deliveries := by
        rw [List.length_append, List.length_singleton, hcount]
      refine ⟨⟨hbound, fun _ => hlength, fun i nack hi => ?_⟩, fun hdelivered => ?_,
        fun hqueued => ?_⟩
      · rcases List.getElem?_append_cases hi with hi | ⟨rfl, rfl⟩
        · exact h.nacks i nack hi
        · refine ⟨hcount, fun hsecond => ?_⟩
          cases requeue with
          | false => rfl
          | true =>
            have hle := hfirst rfl
            omega
      · rw [State.fail] at hdelivered
        split at hdelivered <;> cases hdelivered
      · cases requeue with
        | false => cases hqueued
        | true => exact hfirst rfl
  | drop => exact absurd hok id

theorem retrying_start : Retrying start where
  bound := Nat.zero_le 2
  failed := fun _ => rfl
  nacks := by
    intro i nack hi
    cases hi
  delivered := by
    intro hplace
    cases hplace
  queued := fun _ => Nat.zero_le 1

/-- A delivery that fails with something the `catch` block does not get through. -/
theorem unsettled_reach (hthrows : throws error)
    (hnot : ¬ (Describable error ∧ Evaluable retryPolicy message error)) : ∃ s,
    Reach (step (classicQueue message) retryPolicy) (FailingWith throws) start s ∧
      s.place = .unsettled ∧ s.deliveries = 1 ∧ s.nacks = [] := by
  have hnot' : ¬ (Describable error ∧ Evaluable retryPolicy (classicQueue message 1) error) := hnot
  have hrequeue : requeueOf (classicQueue message 1) error retryPolicy = none :=
    requeueOf_eq_none.mpr hnot'
  have hdelivered : step (classicQueue message) retryPolicy start .deliver =
      some ⟨1, .delivered, []⟩ := rfl
  have hfails : step (classicQueue message) retryPolicy ⟨1, .delivered, []⟩ (.fail error) =
      some ⟨1, .unsettled, []⟩ := by
    simp only [step, hrequeue]
    rfl
  have hdeliver : FailingWith throws start .deliver := trivial
  have hfail : FailingWith throws ⟨1, .delivered, []⟩ (.fail error) := hthrows
  exact ⟨_, (Reach.refl.tail hdeliver hdelivered).tail hfail hfails, rfl, rfl, rfl⟩

variable (throws) in
/-- The message comes back every time. -/
theorem hot_loop (h : HotLoops message retryPolicy) (hthrows : throws error)
    (hcaught : Describable error ∧ Evaluable retryPolicy message error)
    (hfinal : error.final = false) (k : Nat) : ∃ s,
    Reach (step (classicQueue message) retryPolicy) (FailingWith throws) start s ∧
      s.deliveries = k ∧ s.place = .queued := by
  induction k with
  | zero => exact ⟨start, .refl, rfl, rfl⟩
  | succ k ih =>
    obtain ⟨s, hr, rfl, hplace⟩ := ih
    obtain ⟨n, delivery, rfl, hcount, hroom⟩ := h
    have hdelivered : step (classicQueue message) (.attempts n) s .deliver =
        some { s with deliveries := s.deliveries + 1, place := .delivered } := by
      simp only [step, hplace]
    have hrequeue : requeueOf (classicQueue message (s.deliveries + 1)) error (.attempts n) =
        some true := by
      obtain ⟨text, htext⟩ := hcaught.1.text
      have hopts := optsOut_eq (hcaught.2.1.resolve_left nofun)
      rw [hfinal] at hopts
      simp only [requeueOf, htext, shouldRequeue, hopts, classicQueue, hcount, hroom, decide_true]
      rfl
    have hfails : step (classicQueue message) (.attempts n)
        { s with deliveries := s.deliveries + 1, place := .delivered } (.fail error) =
        some { s with
          deliveries := s.deliveries + 1
          place := .queued
          nacks := s.nacks ++ [⟨s.deliveries + 1, error, true⟩] } := by
      simp only [step, hrequeue]
      rfl
    have hdeliver : FailingWith throws s .deliver := trivial
    have hfail : FailingWith throws { s with deliveries := s.deliveries + 1, place := .delivered }
      (.fail error) := hthrows
    exact ⟨_, (hr.tail hdeliver hdelivered).tail hfail hfails, rfl, rfl⟩

/-- On a queue that does not count, a message whose handler always fails is delivered twice at most
and then nacked without requeue, if and only if the `catch` block gets through with whatever the
handler throws, and the message carries no count of its own that leaves room in the budget (or the
handler allows no retry). -/
theorem classic_redelivery_bounded (message : Message α) (retryPolicy : RetryPolicy)
    (throws : Value → Prop) :
    (∀ s, Reach (step (classicQueue message) retryPolicy) (FailingWith throws) start s →
      OneShot s) ↔
    (∀ error, throws error → Describable error ∧ Evaluable retryPolicy message error) ∧
      ¬ (HotLoops message retryPolicy ∧ ∃ error, throws error ∧ error.final = false) := by
  constructor
  · intro h
    have hcaught : ∀ error, throws error →
        Describable error ∧ Evaluable retryPolicy message error := by
      intro error hthrows
      by_contra hnot
      obtain ⟨s, hr, hplace, hdeliveries, hnacks⟩ := unsettled_reach hthrows hnot
      have hlength := (h s hr).failed (by rw [hplace]; exact nofun)
      rw [hnacks, hdeliveries] at hlength
      cases hlength
    refine ⟨hcaught, ?_⟩
    rintro ⟨hloops, error, hthrows, hfinal⟩
    obtain ⟨s, hr, hdeliveries, -⟩ := hot_loop throws hloops hthrows (hcaught error hthrows) hfinal 3
    have hle := (h s hr).bound
    omega
  · rintro ⟨hcaught, hnot⟩ s hr
    exact (hr.invariant retrying_start fun h hok hs =>
      h.step hcaught hnot hok (step_cases hs)).toOneShot

/-- A message that was moved to a dead letter queue with the count of its quorum queue. -/
theorem counted_message_loops : ¬ ∀ (message : Message String) (retryPolicy : RetryPolicy) (s : State),
    Reach (step (classicQueue message) retryPolicy) Failing start s → s.deliveries ≤ 2 := by
  intro h
  have hcount : ((2 : Rat) < ((3 : Nat) : Rat)) := by decide +kernel
  have hloops : HotLoops { tag := 1, deliveryCount := .counts 2 : Message String } (.attempts 3) :=
    ⟨3, 2, rfl, rfl, hcount⟩
  have hcaught : Describable (.error "failed") ∧ Evaluable (.attempts 3)
      { tag := 1, deliveryCount := .counts 2 : Message String } (.error "failed") :=
    ⟨rfl, .inr rfl, nofun⟩
  obtain ⟨s, hr, hdeliveries, -⟩ := hot_loop (fun _ => True) hloops trivial hcaught rfl 3
  have hfailing : Reach (step (classicQueue _) _) Failing start s := hr.mono fun _ event hok => by
    cases event with
    | drop => exact hok
    | deliver | fail => trivial
  have hle := h _ _ s hfailing
  omega

end Redelivery
end RabbitMQ

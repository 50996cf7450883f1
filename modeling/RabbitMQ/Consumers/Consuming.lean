import RabbitMQ.Consumers.ConsumerManager.Consumers
import RabbitMQ.Consumers.ConsumePipeline.Stages
import RabbitMQ.Lib.Timer

/-! The consumers of a client together with their deliveries.

A setup that gets as far as its processor is a subscription of the consume pipeline, under the number
of the setup. A delivery enters the pipeline on a consume, and is counted in the `inFlight` of its
consumer until its consume callback has returned. -/

namespace RabbitMQ
namespace Consuming

open Transition

variable {α : Type}

/-- What a consumer was subscribed with. -/
structure Options where
  retryPolicy : RetryPolicy
  /-- The `staleTimeout` of a `subscribeSequential`. -/
  sequential : Option Nat

/-- A call of `#drainInFlight`. -/
structure Drain where
  since : Nat
  /-- How many deliveries of the consumer had entered the pipeline by then. -/
  entered : Nat

structure State (α : Type) where
  manager : ConsumerManager.State
  pipeline : ConsumePipeline.State α
  /-- The setup whose callback each consume was given. -/
  consumeSetups : List Nat
  /-- `sequentialProcessor` of a consumer, as the setup that created it. -/
  sequentialProcessor : OrderedMap Nat Nat
  now : Nat
  /-- The drain of each drop. -/
  drains : List Drain
  /-- `drainWaiters` of a consumer, as the drops that wait. -/
  drainWaiters : OrderedMap Nat (List Nat)
  /-- The drops whose `drained` promise has been resolved. -/
  resolved : List Nat

def start : State α where
  manager := ConsumerManager.start
  pipeline := ConsumePipeline.start
  consumeSetups := []
  sequentialProcessor := .empty
  now := 0
  drains := []
  drainWaiters := .empty
  resolved := []

namespace State

/-- The consumer whose setup a subscription is. -/
def consumerOf (s : State α) (subscription : Nat) : Option Nat :=
  s.manager.setups[subscription]?.map (·.consumer)

/-- How many deliveries of a consumer have entered the pipeline. -/
def entered (s : State α) (consumer : Nat) : Nat :=
  s.pipeline.deliveries.count fun _ d => s.consumerOf d.subscription = some consumer

/-- How many deliveries of a consumer are inside the pipeline. -/
def inside (s : State α) (consumer : Nat) : Nat :=
  s.pipeline.deliveries.count fun _ d =>
    s.consumerOf d.subscription = some consumer ∧ d.stage.inside

def waiters (s : State α) (consumer : Nat) : List Nat := (s.drainWaiters.get? consumer).getD []

def inFlight (s : State α) (consumer : Nat) : Nat :=
  (s.manager.consumers[consumer]?.map (·.inFlight)).getD 0

/-! ## Processors -/

/-- `consumerInfo.sequentialProcessor?.dispose()` -/
def dispose (s : State α) (consumer : Nat) : State α :=
  match s.sequentialProcessor.get? consumer with
  | none => s
  | some id =>
    match s.pipeline.processors.get? id with
    | none => s
    | some p => { s with
        pipeline := { s.pipeline with
          processors := s.pipeline.processors.set id (SequentialProcessor.dispose p) } }

/-- `hooks.createProcessor(...)`, in the setup `k` of the consumer. -/
def createProcessor (s : State α) (options : Options) (k consumer channel : Nat) : State α :=
  let noAck := s.manager.consumers[consumer]?.any (·.noAck)
  let s := if options.sequential.isSome then
    { s.dispose consumer with sequentialProcessor := s.sequentialProcessor.set consumer k } else s
  { s with
    pipeline := { s.pipeline with
      subscriptions := s.pipeline.subscriptions.set k
        ⟨channel, noAck, options.retryPolicy, options.sequential⟩
      processors :=
        if options.sequential.isSome then s.pipeline.processors.set k SequentialProcessor.start
        else s.pipeline.processors } }

/-- The setup with its channel: it creates its processor if its consumer is there and was not
cancelled. -/
def setupContinues (s : State α) (options : Nat → Options) (k : Nat) : State α :=
  match s.manager.setups[k]? with
  | some ⟨consumer, _, _, .opened channel⟩ =>
    if consumer ∈ s.manager.activeConsumers ∧ !s.manager.cancelled consumer then
      s.createProcessor (options consumer) k consumer channel
    else s
  | _ => s

end State

/-- The consumer of a channel whose `'close'` is watched and still to come. -/
def watched (c : ConsumerManager.Channel) : Option Nat :=
  if c.life ≠ .closed ∧ c.watchers > 0 then some c.owner else none

/-- The consumers whose current processor a step of the manager disposes of, other than
`createProcessor`. -/
def disposed (manager : ConsumerManager.State) : ConsumerManager.Event → List Nat
  | .channelCloses channel => manager.channels[channel]?.toList.filterMap watched
  | .connectionLost => manager.channels.filterMap watched
  | .removeConsumer d _ => manager.drops[d]?.toList.map (·.consumer)
  | .disconnect => manager.activeConsumers
  | _ => []

namespace State

/-! ## Drains -/

/-- `#drainInFlight`, up to its await. -/
def drainInFlight (s : State α) (d : Nat) (drop : ConsumerManager.Drop) : State α :=
  { s with
    drains := s.drains ++ [⟨s.now, s.entered drop.consumer⟩]
    drainWaiters :=
      if drop.stage = .draining then
        s.drainWaiters.set drop.consumer (s.waiters drop.consumer ++ [d])
      else s.drainWaiters }

/-- The `finally` block of the consume callback of a delivery. -/
def finish (s : State α) (tag : Nat) : State α :=
  match (s.pipeline.deliveries.get? tag).bind fun d => s.consumerOf d.subscription with
  | none => s
  | some consumer =>
    match s.manager.consumers[consumer]? with
    | none => s
    | some c =>
      let s := { s with manager := s.manager.handled consumer c }
      if c.inFlight = 1 then
        { s with
          drainWaiters := s.drainWaiters.erase consumer
          resolved := s.resolved ++ s.waiters consumer }
      else s

/-! ## Steps -/

/-- What a step of the manager does for a setup. -/
def setUp (s : State α) (options : Nat → Options) : ConsumerManager.Event → State α
  | .setupContinues k => s.setupContinues options k
  | .consumeOk k _ => { s with consumeSetups := s.consumeSetups ++ [k] }
  | _ => s

/-- The manager goes on; a drop that is new drains its consumer first. -/
def goesOn (s : State α) (manager : ConsumerManager.State) : State α :=
  match manager.drops[s.manager.drops.length]? with
  | none => { s with manager }
  | some drop => { s with manager }.drainInFlight s.manager.drops.length drop

/-- A step of the manager, with what it does to processors, consumes and drains. -/
def managed (s : State α) (options : Nat → Options) (event : ConsumerManager.Event)
    (manager : ConsumerManager.State) : State α :=
  (((disposed s.manager event).foldl dispose s).setUp options event).goesOn manager

/-- A step of the pipeline, after which the callback of a delivery may have returned. -/
def piped (s : State α) (event : ConsumePipeline.Event α) (pipeline : ConsumePipeline.State α) :
    State α :=
  match event.delivery? with
  | none => { s with pipeline }
  | some tag =>
    if s.pipeline.isInside tag ∧ !pipeline.isInside tag then { s with pipeline }.finish tag
    else { s with pipeline }

end State

inductive Event (α : Type) where
  | manager (event : ConsumerManager.Event)
  | deliver (env : ConsumePipeline.Env α) (consume : Nat) (message : Message α)
  | pipeline (env : ConsumePipeline.Env α) (event : ConsumePipeline.Event α)
  | tick (elapsed : Nat)

/-- The deliveries come with their own events, and a drain does not time out before its time. -/
def State.due (s : State α) (drainTimeout : Nat) : ConsumerManager.Event → Bool
  | .delivered _ | .handled _ => false
  | .drainTimesOut d => s.drains[d]?.any fun drain => drain.since + Timer.delay drainTimeout ≤ s.now
  | _ => true

/-- What the manager does to the pipeline. -/
def fromManager : ConsumePipeline.Event α → Bool
  | .subscribe _ _ | .deliver _ _ | .processor _ .dispose => true
  | _ => false

variable [DecidableEq α] [ToString α]

def step (options : Nat → Options) (drainTimeout : Nat) (s : State α) :
    Event α → Option (State α)
  | .manager event =>
    if s.due drainTimeout event then
      (ConsumerManager.step s.manager event).map (s.managed options event)
    else none
  | .deliver env i message =>
    match s.consumeSetups[i]?, ConsumerManager.step s.manager (.delivered i) with
    | some k, some manager =>
      (ConsumePipeline.step s.pipeline (env, .deliver k message)).map fun pipeline =>
        { s with manager, pipeline }
    | _, _ => none
  | .pipeline env event =>
    if fromManager event ∨ s.manager.recreating ≠ [] then none
    else (ConsumePipeline.step s.pipeline (env, event)).map (s.piped event)
  | .tick elapsed =>
    if s.manager.recreating ≠ [] then none else some { s with now := s.now + elapsed }

/-- What a step can be, with the code it runs. -/
inductive Steps (options : Nat → Options) (drainTimeout : Nat) (s : State α) :
    Event α → State α → Prop
  | manager {event manager} (hdue : s.due drainTimeout event)
      (hs : ConsumerManager.step s.manager event = some manager) :
      Steps options drainTimeout s (.manager event) (s.managed options event manager)
  | deliver {env i message k manager pipeline} (hk : s.consumeSetups[i]? = some k)
      (hmanager : ConsumerManager.step s.manager (.delivered i) = some manager)
      (hpipeline : ConsumePipeline.step s.pipeline (env, .deliver k message) = some pipeline) :
      Steps options drainTimeout s (.deliver env i message) { s with manager, pipeline }
  | pipeline {env event pipeline} (hown : fromManager event = false)
      (hquiet : s.manager.recreating = [])
      (hs : ConsumePipeline.step s.pipeline (env, event) = some pipeline) :
      Steps options drainTimeout s (.pipeline env event) (s.piped event pipeline)
  | tick {elapsed} (hquiet : s.manager.recreating = []) :
      Steps options drainTimeout s (.tick elapsed) { s with now := s.now + elapsed }

theorem step_cases {options : Nat → Options} {drainTimeout : Nat} {s t : State α} {event : Event α}
    (hs : step options drainTimeout s event = some t) : Steps options drainTimeout s event t := by
  cases event with
  | manager event =>
    simp only [step] at hs
    split at hs
    · next hdue =>
      obtain ⟨manager, hmanager, rfl⟩ := Option.map_eq_some_iff.mp hs
      exact .manager hdue hmanager
    · cases hs
  | deliver env i message =>
    simp only [step] at hs
    split at hs
    · next hk hmanager =>
      obtain ⟨pipeline, hpipeline, rfl⟩ := Option.map_eq_some_iff.mp hs
      exact .deliver hk hmanager hpipeline
    · cases hs
  | pipeline env event =>
    simp only [step] at hs
    split at hs
    · cases hs
    · next hguard =>
      rw [not_or, not_not] at hguard
      obtain ⟨pipeline, hpipeline, rfl⟩ := Option.map_eq_some_iff.mp hs
      exact .pipeline (Bool.eq_false_iff.mpr hguard.1) hguard.2 hpipeline
  | tick elapsed =>
    simp only [step] at hs
    split at hs
    · cases hs
    · next hquiet =>
      cases hs
      exact .tick (not_not.mp hquiet)

end Consuming
end RabbitMQ

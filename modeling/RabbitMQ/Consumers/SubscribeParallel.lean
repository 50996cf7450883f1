import RabbitMQ.Consumers.ConsumerManager.Unsubscribing

/-! Calls of `subscribeParallel`, with the worker pools that they create, over the consumers of a
client.

A call creates its worker pool before it subscribes, and registers it once the subscription is
there. `disposeAll` terminates the pools that it finds, and forgets those that are registered when
all of these have terminated. -/

namespace RabbitMQ
namespace SubscribeParallel

open Transition

inductive Stage where
  /-- `await this.subscribe(...)` -/
  | subscribing (consumer : Nat)
  /-- `subscribe` has resolved, and the call is about to register its pool -/
  | subscribed (consumerTag : Nat)
  /-- `subscribe` has rejected, and the call is about to terminate its pool -/
  | rejected
  /-- `await workerPool.terminate()` -/
  | terminating
  | settled
  deriving DecidableEq

/-- A call of `subscribeParallel`, and its worker pool. -/
structure Call where
  stage : Stage
  /-- `terminate()` was called on the pool -/
  terminated : Bool
  deriving DecidableEq

structure State where
  manager : ConsumerManager.State
  /-- The calls, oldest first. A worker pool has the number of its call. -/
  calls : List Call
  workerPools : OrderedMap Nat Nat
  /-- How many calls of `disposeAll` await the terminations. -/
  disposing : Nat

def start : State where
  manager := ConsumerManager.start
  calls := []
  workerPools := .empty
  disposing := 0

namespace State

def terminated (s : State) (workerPool : Nat) : Bool := s.calls[workerPool]?.any (·.terminated)

def setStage (s : State) (n : Nat) (stage : Stage) : State :=
  { s with calls := s.calls.modify n fun call => { call with stage } }

def terminate (s : State) (workerPool : Nat) : State :=
  { s with calls := s.calls.modify workerPool fun call => { call with terminated := true } }

/-- The call that awaits the subscription of the consumer goes on. -/
def answer (s : State) (consumer : Nat) (stage : Stage) : State :=
  { s with calls := s.calls.map fun call =>
      if call.stage = .subscribing consumer then { call with stage } else call }

/-- `subscribeParallel`, when `subscribe` refuses its arguments. -/
def refused (s : State) : State := { s with calls := s.calls ++ [⟨.rejected, false⟩] }

/-- `subscribeParallel`, when `subscribe` has registered its consumer and runs its setup. -/
def subscribeParallel (s : State) (manager : ConsumerManager.State) : State :=
  { s with
    manager
    calls := s.calls ++ [⟨.subscribing s.manager.consumers.length, false⟩] }

/-- `subscribeParallel` with its subscription. -/
def register (s : State) (n consumerTag : Nat) : State :=
  match s.manager.consumersByTag.get? consumerTag with
  | some consumer => { s.setStage n .settled with workerPools := s.workerPools.set consumer n }
  | none => s.setStage n .settled

/-- `disposeAll`, up to its await. -/
def disposeAll (s : State) : State :=
  { s with
    calls := s.calls.mapIdx fun n (call : Call) =>
      if s.workerPools.entries.any (·.2 = n) then { call with terminated := true } else call
    disposing := s.disposing + 1 }

/-- The worker pool of a consumer that is dropped. -/
def dropWorkerPool (s : State) (consumer : Nat) : State :=
  match s.workerPools.get? consumer with
  | some n => { s.terminate n with workerPools := s.workerPools.erase consumer }
  | none => s

/-- What a step of the manager means for the calls and their pools. -/
def managed (s : State) (event : ConsumerManager.Event) (manager : ConsumerManager.State) : State :=
  match event with
  | .removeConsumer d _ =>
    match s.manager.drops[d]? with
    | some drop => { s.dropWorkerPool drop.consumer with manager }
    | none => { s with manager }
  | .setupCompletes k =>
    match s.manager.setups[k]? with
    | some ⟨consumer, .subscribe, _, .consumed _ consumerTag⟩ =>
      if consumer ∉ s.manager.activeConsumers ∨ s.manager.cancelled consumer then { s with manager }
      else { s.answer consumer (.subscribed consumerTag) with manager }
    | _ => { s with manager }
  | .dropped d =>
    match s.manager.drops[d]? with
    | some ⟨consumer, .subscribe, _⟩ => { s.answer consumer .rejected with manager }
    | _ => { s with manager }
  | _ => { s with manager }

/-- `disposeAll` has its own events, and a drop awaits the pool that its consumer has. -/
def due (s : State) : ConsumerManager.Event → Bool
  | .disconnect => false
  | .removeConsumer d workers => s.manager.drops[d]?.all fun drop =>
      workers = (s.workerPools.get? drop.consumer).isSome
  | _ => true

end State

inductive Event where
  | manager (event : ConsumerManager.Event)
  /-- `subscribeParallel`, up to the first await of its setup -/
  | subscribeParallel (noAck : Bool)
  /-- `subscribeParallel` with a queue name or a retry policy that is refused -/
  | refused
  | registers (call : Nat)
  /-- `subscribe` has rejected -/
  | fails (call : Nat)
  /-- the pool of a call whose subscription failed has terminated -/
  | terminated (call : Nat)
  | disposeAll
  /-- every pool that a `disposeAll` found has terminated -/
  | disposed

def step (s : State) : Event → Option State
  | .manager event =>
    if s.due event then (ConsumerManager.step s.manager event).map (s.managed event) else none
  | .subscribeParallel noAck =>
    (ConsumerManager.step s.manager (.subscribe noAck)).map s.subscribeParallel
  | .refused => if s.manager.recreating = [] then some s.refused else none
  | .registers n =>
    match s.calls[n]? with
    | some ⟨.subscribed consumerTag, _⟩ =>
      if s.manager.recreating = [] then some (s.register n consumerTag) else none
    | _ => none
  | .fails n =>
    match s.calls[n]? with
    | some ⟨.rejected, _⟩ =>
      if s.manager.recreating = [] then some ((s.terminate n).setStage n .terminating) else none
    | _ => none
  | .terminated n =>
    match s.calls[n]? with
    | some ⟨.terminating, _⟩ =>
      if s.manager.recreating = [] then some (s.setStage n .settled) else none
    | _ => none
  | .disposeAll => if s.manager.recreating = [] then some s.disposeAll else none
  | .disposed =>
    if s.disposing > 0 then
      (ConsumerManager.step s.manager .disconnect).map fun manager =>
        { s with manager, workerPools := .empty, disposing := s.disposing - 1 }
    else none

/-- What a step can be, with the code it runs. -/
inductive Steps (s : State) : Event → State → Prop
  | manager {event manager} (hdue : s.due event)
      (hs : ConsumerManager.step s.manager event = some manager) :
      Steps s (.manager event) (s.managed event manager)
  | subscribeParallel {noAck manager}
      (hs : ConsumerManager.step s.manager (.subscribe noAck) = some manager) :
      Steps s (.subscribeParallel noAck) (s.subscribeParallel manager)
  | refused : Steps s .refused s.refused
  | registers {n consumerTag terminated} (hn : s.calls[n]? = some ⟨.subscribed consumerTag, terminated⟩) :
      Steps s (.registers n) (s.register n consumerTag)
  | fails {n terminated} (hn : s.calls[n]? = some ⟨.rejected, terminated⟩) :
      Steps s (.fails n) ((s.terminate n).setStage n .terminating)
  | terminated {n terminated} (hn : s.calls[n]? = some ⟨.terminating, terminated⟩) :
      Steps s (.terminated n) (s.setStage n .settled)
  | disposeAll : Steps s .disposeAll s.disposeAll
  | disposed {manager} (hs : ConsumerManager.step s.manager .disconnect = some manager) :
      Steps s .disposed { s with manager, workerPools := .empty, disposing := s.disposing - 1 }

variable {s t : State} {event : Event}

theorem step_cases (hs : step s event = some t) : Steps s event t := by
  cases event with
  | manager event =>
    simp only [step] at hs
    split at hs
    · next hdue =>
      obtain ⟨manager, hmanager, rfl⟩ := Option.map_eq_some_iff.mp hs
      exact .manager hdue hmanager
    · cases hs
  | subscribeParallel noAck =>
    obtain ⟨manager, hmanager, rfl⟩ := Option.map_eq_some_iff.mp hs
    exact .subscribeParallel hmanager
  | refused =>
    simp only [step] at hs
    split at hs
    · cases hs
      exact .refused
    · cases hs
  | registers n =>
    simp only [step] at hs
    split at hs
    · next hn =>
      split at hs
      · cases hs
        exact .registers hn
      · cases hs
    · cases hs
  | fails n =>
    simp only [step] at hs
    split at hs
    · next hn =>
      split at hs
      · cases hs
        exact .fails hn
      · cases hs
    · cases hs
  | terminated n =>
    simp only [step] at hs
    split at hs
    · next hn =>
      split at hs
      · cases hs
        exact .terminated hn
      · cases hs
    · cases hs
  | disposeAll =>
    simp only [step] at hs
    split at hs
    · cases hs
      exact .disposeAll
    · cases hs
  | disposed =>
    simp only [step] at hs
    split at hs
    · obtain ⟨manager, hmanager, rfl⟩ := Option.map_eq_some_iff.mp hs
      exact .disposed hmanager
    · cases hs

end SubscribeParallel
end RabbitMQ

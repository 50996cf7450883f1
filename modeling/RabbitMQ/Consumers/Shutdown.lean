import RabbitMQ.Consumers.Consuming
import RabbitMQ.Consumers.SubscribeParallel
import RabbitMQ.Consumers.WorkerPool

/-! The consumers of a client together with the worker pools that handlers run on.

The handler of a `subscribeParallel` calls `run` of the pool that the call created, and settles as
that call of `run` does. Pools are terminated by `disposeAll`, by the drop of their consumer and by
a call whose subscription failed; how long that takes is left open. -/

namespace RabbitMQ
namespace Shutdown

open Transition

variable {α : Type}

structure State (α : Type) where
  consuming : Consuming.State α
  /-- The calls of `subscribeParallel`, oldest first. -/
  calls : List SubscribeParallel.Call
  workerPools : OrderedMap Nat Nat
  /-- How many calls of `disposeAll` await the terminations. -/
  disposing : Nat
  /-- The worker pool of each call. -/
  pools : List WorkerPool.State
  /-- The pool whose `run` the handler of a consumer calls. -/
  handlerPools : OrderedMap Nat Nat
  /-- The call of `run` that the handler of a delivery has made. -/
  runs : OrderedMap Nat Nat
  /-- `disposeAll` was called, and the client is not connected again -/
  shutdown : Bool
  /-- The pools that were terminated in a shutdown. -/
  ended : List Nat
  /-- The deliveries whose call of `run` was cut short by that. -/
  interrupted : List Nat

def start : State α where
  consuming := Consuming.start
  calls := []
  workerPools := .empty
  disposing := 0
  pools := []
  handlerPools := .empty
  runs := .empty
  shutdown := false
  ended := []
  interrupted := []

/-- The pool or the worker of the call of `run` is gone. -/
def cutShort : WorkerPool.Run → Bool
  | .releasing _ (.rejected error) | .settled (.rejected error) =>
    error = .terminated ∨ error = .exited
  | _ => false

/-- What `run` rejects with; `thrown` is the `'error'` of the worker, or what `postMessage` threw. -/
def errorOf (thrown : Value) : WorkerPool.RunError → Value
  | .terminated => .error "Worker pool has been terminated"
  | .allDied => .error "All workers have died and exceeded the respawn limit"
  | .exited => .error "Worker exited while processing a message"
  | .worker | .dataClone => thrown

/-- How `messageHandler` settles when its call of `run` has. A worker that answers may report a
failure, which is thrown. -/
def messageHandler (tag : Nat) (failure : Option Value) :
    WorkerPool.Run → Option (ConsumePipeline.Event α)
  | .settled (.resolved _) =>
    some (match failure with
      | none => .callbackResolved tag
      | some error => .callbackRejected tag error)
  | .settled (.rejected error) =>
    some (.callbackRejected tag (errorOf (failure.getD .undefined) error))
  | _ => none

namespace State

def manager (s : State α) : ConsumerManager.State := s.consuming.manager

def pipeline (s : State α) : ConsumePipeline.State α := s.consuming.pipeline

/-- The calls of `subscribeParallel` over the consumers. -/
def parallel (s : State α) : SubscribeParallel.State :=
  ⟨s.manager, s.calls, s.workerPools, s.disposing⟩

/-- The pool that the handler of a delivery runs on. -/
def poolOf (s : State α) (tag : Nat) : Option Nat :=
  ((s.pipeline.deliveries.get? tag).bind fun d => s.consuming.consumerOf d.subscription).bind
    s.handlerPools.get?

/-- The call of `run` of a delivery, and its pool. -/
def runOf (s : State α) (tag : Nat) : Option (Nat × WorkerPool.Run) :=
  (s.poolOf tag).bind fun n => (s.runs.get? tag).bind fun run =>
    (s.pools[n]?.bind (·.runs[run]?)).map (n, ·)

/-- The handler of a delivery that was decoded calls `run`. -/
def run (s : State α) (tag : Nat) : State α :=
  match s.poolOf tag with
  | none => s
  | some n => { s with
      pools := s.pools.modify n WorkerPool.State.run
      runs := s.runs.set tag ((s.pools[n]?.map (·.runs.length)).getD 0) }

/-- The pools that a step of the calls calls `terminate` of. -/
def terminates (s : State α) : SubscribeParallel.Event → List Nat
  | .disposeAll => s.workerPools.entries.map Prod.snd
  | .fails n => [n]
  | .manager (.removeConsumer d _) =>
    (s.manager.drops[d]?.bind fun drop => s.workerPools.get? drop.consumer).toList
  | _ => []

/-- Whether the client is shutting down after a step of the calls. -/
def shutsDown (s : State α) : SubscribeParallel.Event → Bool
  | .disposeAll => true
  | .manager .poolInstalled => s.shutdown && s.disposing > 0
  | _ => s.shutdown

/-- The pools that a step of the calls terminates for the shutdown. -/
def ends (s : State α) (event : SubscribeParallel.Event) : List Nat :=
  if s.shutsDown event then
    (s.terminates event).filter fun n => s.pools[n]?.any fun pool => !pool.terminated
  else []

end State

/-- A second call of `terminate` finds nothing left to reject. -/
def terminate (pool : WorkerPool.State) : WorkerPool.State :=
  if pool.terminated then pool else pool.terminate

/-- What a step of the calls is for the manager. -/
def managerEvent : SubscribeParallel.Event → Option ConsumerManager.Event
  | .manager event => some event
  | .subscribeParallel noAck => some (.subscribe noAck)
  | .disposed => some .disconnect
  | _ => none

/-- The pool that a step of the calls creates. -/
def created (config : WorkerPool.Config) : SubscribeParallel.Event → List WorkerPool.State
  | .subscribeParallel _ | .refused => [WorkerPool.start config]
  | _ => []

namespace State

/-- A step of the calls, with what it does to the deliveries and the pools. -/
def called (s : State α) (config : Nat → WorkerPool.Config) (options : Nat → Consuming.Options)
    (event : SubscribeParallel.Event) (parallel : SubscribeParallel.State) : State α :=
  { s with
    consuming := match managerEvent event with
      | some e => s.consuming.managed options e parallel.manager
      | none => s.consuming
    calls := parallel.calls
    workerPools := parallel.workerPools
    disposing := parallel.disposing
    pools := (s.pools.mapIdx fun n pool => if n ∈ s.terminates event then terminate pool else pool) ++
      created (config s.pools.length) event
    handlerPools := match event with
      | .subscribeParallel _ => s.handlerPools.set s.manager.consumers.length s.pools.length
      | _ => s.handlerPools
    shutdown := s.shutsDown event
    ended := s.ended ++ s.ends event }

def cutOff (s : State α) (tag : Nat) : Bool := (s.runOf tag).any fun run => cutShort run.2

/-- Notes the deliveries whose call of `run` a step cuts short in a pool of the shutdown. -/
def noted (s t : State α) : State α :=
  { t with interrupted := s.interrupted ++ t.runs.keys.filter fun tag =>
      (t.runOf tag).any (·.1 ∈ t.ended) && t.cutOff tag && !s.cutOff tag }

/-- A drain does not time out before its time, and `subscribeParallel` is a plain subscription. -/
def due (s : State α) (options : Nat → Consuming.Options) (drainTimeout : Nat) :
    SubscribeParallel.Event → Bool
  | .manager event => s.consuming.due drainTimeout event
  | .subscribeParallel _ => (options s.manager.consumers.length).sequential.isNone
  | _ => true

/-- The manager has its own events, and a handler on a pool settles as its call of `run` does. -/
def own (s : State α) : Consuming.Event α → Bool
  | .manager _ => false
  | .pipeline _ (.callbackResolved tag) | .pipeline _ (.callbackRejected tag _) =>
    (s.poolOf tag).isNone
  | _ => true

/-- A step of the deliveries; a handler that is called may run on a pool. -/
def consumes (s : State α) (event : Consuming.Event α) (consuming : Consuming.State α) : State α :=
  match event with
  | .pipeline _ (.decoded tag) => { s.run tag with consuming }
  | _ => { s with consuming }

end State

/-- `run` and `terminate` are called by the handlers and the calls. -/
def ofPool : WorkerPool.Event → Bool
  | .run | .terminate => false
  | _ => true

inductive Event (α : Type) where
  | parallel (event : SubscribeParallel.Event)
  | consuming (event : Consuming.Event α)
  /-- a handler goes on with the result of its call of `run` -/
  | handled (env : ConsumePipeline.Env α) (tag : Nat) (failure : Option Value)
  | pool (call : Nat) (event : WorkerPool.Event)

variable [DecidableEq α] [ToString α]

def step (config : Nat → WorkerPool.Config) (options : Nat → Consuming.Options)
    (drainTimeout : Nat) (s : State α) : Event α → Option (State α)
  | .parallel event =>
    if s.due options drainTimeout event then
      (SubscribeParallel.step s.parallel event).map fun parallel =>
        s.noted (s.called config options event parallel)
    else none
  | .consuming event =>
    if s.own event then
      (Consuming.step options drainTimeout s.consuming event).map fun consuming =>
        s.noted (s.consumes event consuming)
    else none
  | .handled env tag failure =>
    (s.runOf tag).bind fun run => (messageHandler tag failure run.2).bind fun event =>
      (Consuming.step options drainTimeout s.consuming (.pipeline env event)).map fun consuming =>
        { s with consuming }
  | .pool n event =>
    if s.manager.recreating = [] ∧ ofPool event then
      s.pools[n]?.bind fun pool => (WorkerPool.step (config n) pool event).map fun pool =>
        s.noted { s with pools := s.pools.set n pool }
    else none

/-- What a step can be, with the code it runs. -/
inductive Steps (config : Nat → WorkerPool.Config) (options : Nat → Consuming.Options)
    (drainTimeout : Nat) (s : State α) : Event α → State α → Prop
  | parallel {event parallel} (hdue : s.due options drainTimeout event)
      (hs : SubscribeParallel.step s.parallel event = some parallel) :
      Steps config options drainTimeout s (.parallel event)
        (s.noted (s.called config options event parallel))
  | consuming {event consuming} (hown : s.own event)
      (hs : Consuming.step options drainTimeout s.consuming event = some consuming) :
      Steps config options drainTimeout s (.consuming event) (s.noted (s.consumes event consuming))
  | handled {env tag failure n run event consuming} (hrun : s.runOf tag = some (n, run))
      (hevent : messageHandler tag failure run = some event)
      (hs : Consuming.step options drainTimeout s.consuming (.pipeline env event) = some consuming) :
      Steps config options drainTimeout s (.handled env tag failure) { s with consuming }
  | pool {n event pool pool'} (hown : ofPool event) (hn : s.pools[n]? = some pool)
      (hs : WorkerPool.step (config n) pool event = some pool') :
      Steps config options drainTimeout s (.pool n event)
        (s.noted { s with pools := s.pools.set n pool' })

theorem step_cases {config : Nat → WorkerPool.Config} {options : Nat → Consuming.Options}
    {drainTimeout : Nat} {s t : State α} {event : Event α}
    (hs : step config options drainTimeout s event = some t) :
    Steps config options drainTimeout s event t := by
  cases event with
  | parallel event =>
    simp only [step] at hs
    split at hs
    · next hdue =>
      obtain ⟨parallel, hparallel, rfl⟩ := Option.map_eq_some_iff.mp hs
      exact .parallel hdue hparallel
    · cases hs
  | consuming event =>
    simp only [step] at hs
    split at hs
    · next hown =>
      obtain ⟨consuming, hconsuming, rfl⟩ := Option.map_eq_some_iff.mp hs
      exact .consuming hown hconsuming
    · cases hs
  | handled env tag failure =>
    obtain ⟨⟨n, run⟩, hrun, hs⟩ := Option.bind_eq_some_iff.mp hs
    obtain ⟨event, hevent, hs⟩ := Option.bind_eq_some_iff.mp hs
    obtain ⟨consuming, hconsuming, rfl⟩ := Option.map_eq_some_iff.mp hs
    exact .handled hrun hevent hconsuming
  | pool n event =>
    simp only [step] at hs
    split at hs
    · next hguard =>
      obtain ⟨pool, hn, hs⟩ := Option.bind_eq_some_iff.mp hs
      obtain ⟨pool', hpool, rfl⟩ := Option.map_eq_some_iff.mp hs
      exact .pool hguard.2 hn hpool
    · cases hs

end Shutdown
end RabbitMQ

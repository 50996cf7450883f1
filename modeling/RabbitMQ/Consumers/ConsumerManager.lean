import RabbitMQ.Lib.Transition
import RabbitMQ.Lib.OrderedMap

/-! The consumers of a client: a consumer has its setup closure run by `subscribe`, by a loop of
`handleConsumerLoss` or by `recreateAll`, over the dedicated channels of the pool that is installed.

The broker opens and closes channels, answers and cancels consumes, and drops the connection at any
moment; a channel gets its listeners before it can be lost. A timer fires only when no continuation
is ready to run. A restore installs its pool when none is installed. -/

namespace RabbitMQ
namespace ConsumerManager

open Transition

inductive Life where
  | live
  /-- `close()` was called on it -/
  | closing
  /-- it has emitted `'close'` -/
  | closed
  deriving DecidableEq

/-- A dedicated channel, with the consumer it was opened for. -/
structure Channel where
  pool : Nat
  owner : Nat
  life : Life
  /-- the listeners that `#watchChannelLoss` left on it -/
  watchers : Nat
  deriving DecidableEq

structure Pool where
  closed : Bool
  /-- its connection is up -/
  connected : Bool
  deriving DecidableEq

/-- A `channel.consume` that succeeded. -/
structure Consume where
  consumer : Nat
  channel : Nat
  consumerTag : Nat
  /-- neither the client nor the broker has cancelled it -/
  active : Bool
  deriving DecidableEq

/-- What `registerConsumer` stores. -/
structure Consumer where
  channel : Option Nat
  consumerTag : Option Nat
  watchedChannel : Option Nat
  cancelled : Bool
  epoch : Nat
  inFlight : Nat
  noAck : Bool
  /-- its `subscribe()` has resolved -/
  subscribed : Bool
  deriving DecidableEq

/-- Who ran a setup. -/
inductive Caller where
  | subscribe
  | recovery (loop : Nat)
  | recreation
  deriving DecidableEq

inductive SetupStage where
  /-- there is no pool, and the setup is about to throw -/
  | notConnected
  /-- `await channelPool.getDedicatedChannel(consumerId)`, with a channel to open -/
  | opening (pool : Nat)
  /-- it has its channel, and is about to look at its consumer -/
  | opened (channel : Nat)
  /-- its consumer is gone: `await ...releaseDedicatedChannel(consumerId)` -/
  | releasing (channel : Option Nat)
  /-- `await channel.prefetch(...)` -/
  | prefetching (channel : Nat)
  /-- `await channel.consume(...)` -/
  | consuming (channel : Nat)
  /-- the consume succeeded, and the setup is about to look at its consumer -/
  | consumed (channel consumerTag : Nat)
  /-- its consumer was cancelled: `await channel.cancel(...)` -/
  | cancelling (channel consumerTag : Nat)
  | settled (ok : Bool)
  deriving DecidableEq

/-- A run of the setup closure of a consumer, with the pool that was installed when it began. -/
structure Setup where
  consumer : Nat
  caller : Caller
  pool : Option Nat
  stage : SetupStage
  deriving DecidableEq

inductive LoopStage where
  /-- `await this.clock.sleep(...)` -/
  | sleeping
  /-- `await setup` -/
  | trying
  /-- `await this.#dropConsumer(...)` -/
  | dropping
  | ended
  deriving DecidableEq

/-- A call of `handleConsumerLoss`. -/
structure Loop where
  consumer : Nat
  ownedPool : Option Nat
  knownEpoch : Nat
  attempt : Nat
  stage : LoopStage
  deriving DecidableEq

def maxAttempts : Nat := 3

/-- Who drops a consumer. -/
inductive Cause where
  | subscribe
  | recovery (loop : Nat)
  | unsubscribe (call : Nat)
  deriving DecidableEq

inductive DropStage where
  /-- `await this.#drainInFlight(...)`, with deliveries in flight -/
  | draining
  /-- nothing is left to wait for -/
  | drained
  /-- `await workerPool.terminate()` -/
  | terminating
  /-- `await ...releaseDedicatedChannel(consumerId)` -/
  | releasing (channel : Option Nat)
  | done
  deriving DecidableEq

/-- A call of `#dropConsumer`. -/
structure Drop where
  consumer : Nat
  cause : Cause
  stage : DropStage
  deriving DecidableEq

inductive UnsubscribeStage where
  /-- `await consumerInfo.channel.cancel(consumerInfo.consumerTag)` -/
  | cancelling (channel consumerTag : Nat)
  | dropping
  /-- it has resolved to `true` -/
  | resolved
  deriving DecidableEq

/-- A call of `unsubscribe` that found its consumer. -/
structure Unsubscribe where
  consumer : Nat
  stage : UnsubscribeStage
  deriving DecidableEq

/-- A restore that has installed its pool. -/
inductive Restore where
  /-- `await this.#topology.ensureExchange()` -/
  | ensuringExchange
  /-- `await this.#consumers.recreateAll()` -/
  | recreating
  deriving DecidableEq

inductive Emission where
  | consumerCancelled (consumer : Nat)
  | consumerRecovered (consumer : Nat)
  | consumerLost (consumer : Nat)
  deriving DecidableEq

/-- A removal from `activeConsumers` by `#dropConsumer`, with the pool installed at that moment. -/
structure Removal where
  consumer : Nat
  cause : Cause
  pool : Option Nat
  deriving DecidableEq

structure State where
  /-- Every consumer there ever was, by its number. -/
  consumers : List Consumer
  activeConsumers : List Nat
  consumersByTag : OrderedMap Nat Nat
  pools : List Pool
  /-- The pool that `getChannelPool()` returns. -/
  channelPool : Option Nat
  /-- The dedicated channels of each pool, by pool and consumer. -/
  dedicatedChannels : OrderedMap (Nat × Nat) Nat
  channels : List Channel
  consumes : List Consume
  setups : List Setup
  loops : List Loop
  drops : List Drop
  unsubscribes : List Unsubscribe
  restore : Option Restore
  /-- The consumers that the synchronous part of `recreateAll` has yet to reach. -/
  recreating : List Nat
  emitted : List Emission
  removals : List Removal

def start : State where
  consumers := []
  activeConsumers := []
  consumersByTag := .empty
  pools := []
  channelPool := none
  dedicatedChannels := .empty
  channels := []
  consumes := []
  setups := []
  loops := []
  drops := []
  unsubscribes := []
  restore := none
  recreating := []
  emitted := []
  removals := []

namespace State

def live (s : State) (channel : Nat) : Bool := s.channels[channel]?.any (·.life = .live)

def cancelled (s : State) (consumer : Nat) : Bool := s.consumers[consumer]?.any (·.cancelled)

def epoch (s : State) (consumer : Nat) : Nat := (s.consumers[consumer]?.map (·.epoch)).getD 0

def modifyConsumer (s : State) (consumer : Nat) (f : Consumer → Consumer) : State :=
  { s with consumers := s.consumers.modify consumer f }

/-- `channel.close()`; a channel that is closing or closed refuses it. -/
def closeChannel (s : State) (channel : Nat) : State :=
  { s with channels := s.channels.modify channel fun c =>
      if c.life = .live then { c with life := .closing } else c }

/-- `channel.cancel(consumerTag)`, once the broker has answered; a channel that is not live throws,
and its callers ignore that. -/
def cancel (s : State) (channel consumerTag : Nat) : State :=
  if s.live channel then
    { s with consumes := s.consumes.map fun c =>
        if c.channel = channel ∧ c.consumerTag = consumerTag then { c with active := false }
        else c }
  else s

/-- `this.getChannelPool()?.releaseDedicatedChannel(consumerId)`, up to its await: the channel whose
close it awaits. -/
def releaseDedicatedChannel (s : State) (consumer : Nat) : Option Nat × State :=
  match s.channelPool with
  | none => (none, s)
  | some pool =>
    match s.dedicatedChannels.get? (pool, consumer) with
    | none => (none, s)
    | some channel =>
      (if s.live channel then some channel else none, { s with
        dedicatedChannels := s.dedicatedChannels.erase (pool, consumer) }.closeChannel channel)

/-! ## Setups -/

/-- `getDedicatedChannel`, up to its await. -/
def getDedicatedChannel (s : State) (consumer : Nat) : SetupStage :=
  match s.channelPool with
  | none => .notConnected
  | some pool =>
    match s.dedicatedChannels.get? (pool, consumer) with
    | some channel => .opened channel
    | none => .opening pool

/-- `runSetup`: the epoch is stamped before the setup runs, and the setup runs up to its first
await. -/
def runSetup (s : State) (consumer : Nat) (caller : Caller) : State :=
  { s with
    setups := s.setups ++
      [Setup.mk consumer caller s.channelPool (s.getDedicatedChannel consumer)] }.modifyConsumer
    consumer fun c => { c with epoch := c.epoch + 1 }

def setSetup (s : State) (k : Nat) (stage : SetupStage) : State :=
  { s with setups := s.setups.modify k fun setup => { setup with stage } }

def setLoop (s : State) (l : Nat) (stage : LoopStage) : State :=
  { s with loops := s.loops.modify l fun loop => { loop with stage } }

def setDrop (s : State) (d : Nat) (stage : DropStage) : State :=
  { s with drops := s.drops.modify d fun drop => { drop with stage } }

def setUnsubscribe (s : State) (u : Nat) (stage : UnsubscribeStage) : State :=
  { s with unsubscribes := s.unsubscribes.modify u fun unsubscribe => { unsubscribe with stage } }

def emit (s : State) (emission : Emission) : State := { s with emitted := s.emitted ++ [emission] }

/-- `#dropConsumer`, up to its first await. -/
def dropConsumer (s : State) (consumer : Nat) (cause : Cause) : State :=
  let stage : DropStage :=
    if s.consumers[consumer]?.any (·.inFlight > 0) then .draining else .drained
  { s with drops := s.drops ++ [Drop.mk consumer cause stage] }

/-- The consumer is registered, not cancelled, and the pool is still the one that lost it. -/
def stillOurs (s : State) (loop : Loop) : Bool :=
  loop.consumer ∈ s.activeConsumers ∧ !s.cancelled loop.consumer ∧ s.channelPool = loop.ownedPool

/-- `handleConsumerLoss`, up to its first await. -/
def handleConsumerLoss (s : State) (consumer : Nat) : State :=
  if consumer ∈ s.activeConsumers ∧ !s.cancelled consumer then
    { s with
      loops := s.loops ++ [Loop.mk consumer s.channelPool (s.epoch consumer) 1 .sleeping] }.emit
        (.consumerCancelled consumer)
  else s

/-- `handleConsumerLoss` runs the setup: the epoch that it stamps is known as the loop's own. -/
def tryAgain (s : State) (l : Nat) (loop : Loop) : State :=
  { s with
    loops := s.loops.set l { loop with
      knownEpoch := s.epoch loop.consumer + 1
      stage := .trying } }.runSetup loop.consumer (.recovery l)

/-- `handleConsumerLoss` after a setup that failed. -/
def attemptFails (s : State) (l : Nat) (loop : Loop) : State :=
  if loop.attempt < maxAttempts then
    { s with loops := s.loops.set l { loop with attempt := loop.attempt + 1, stage := .sleeping } }
  else if s.stillOurs loop then
    (s.setLoop l .dropping).dropConsumer loop.consumer (.recovery l)
  else s.setLoop l .ended

/-- The setup settles, and what awaits it goes on. -/
def settleSetup (s : State) (k : Nat) (setup : Setup) (ok : Bool) : State :=
  let s := s.setSetup k (.settled ok)
  match setup.caller with
  | .subscribe =>
    if ok then s.modifyConsumer setup.consumer fun c => { c with subscribed := true }
    else s.dropConsumer setup.consumer .subscribe
  | .recovery l =>
    match s.loops[l]? with
    | none => s
    | some loop =>
      if ok then (s.setLoop l .ended).emit (.consumerRecovered setup.consumer)
      else s.attemptFails l loop
  | .recreation => s

/-- `getDedicatedChannel`, when the channel is there. -/
def channelOpened (s : State) (k : Nat) (setup : Setup) (pool : Nat) : State :=
  { s with
    channels := s.channels ++ [Channel.mk pool setup.consumer .live 0]
    dedicatedChannels := s.dedicatedChannels.set (pool, setup.consumer) s.channels.length }.setSetup
      k (.opened s.channels.length)

/-- The setup with its channel, up to its next await. -/
def setupContinues (s : State) (k : Nat) (setup : Setup) (channel : Nat) : State :=
  if setup.consumer ∉ s.activeConsumers then
    let (released, s) := s.releaseDedicatedChannel setup.consumer
    s.setSetup k (.releasing released)
  else if s.cancelled setup.consumer then s.settleSetup k setup false
  else if s.consumers[setup.consumer]?.any (·.noAck) then s.setSetup k (.consuming channel)
  else s.setSetup k (.prefetching channel)

def consumeOk (s : State) (k : Nat) (setup : Setup) (channel consumerTag : Nat) : State :=
  { s with
    consumes := s.consumes ++ [Consume.mk setup.consumer channel consumerTag true] }.setSetup k
      (.consumed channel consumerTag)

/-- `#trackConsumerTag` and `#watchChannelLoss` -/
def track (s : State) (consumer channel consumerTag : Nat) : State :=
  let watched := s.consumers[consumer]?.any (·.watchedChannel = some channel)
  { s with
    consumersByTag := s.consumersByTag.set consumerTag consumer
    channels := s.channels.modify channel fun c =>
      if watched then c else { c with watchers := c.watchers + 1 } }.modifyConsumer consumer
    fun c => { c with
      channel := some channel
      consumerTag := some consumerTag
      watchedChannel := some channel }

/-- The setup with its consume, up to its end or to `channel.cancel`. -/
def setupCompletes (s : State) (k : Nat) (setup : Setup) (channel consumerTag : Nat) : State :=
  if setup.consumer ∉ s.activeConsumers ∨ s.cancelled setup.consumer then
    s.setSetup k (.cancelling channel consumerTag)
  else (s.track setup.consumer channel consumerTag).settleSetup k setup true

/-! ## Drops -/

/-- `#dropConsumer` after the drain, up to its next await. `workers` says that the consumer has a
worker pool. -/
def removeConsumer (s : State) (d : Nat) (drop : Drop) (workers : Bool) : State :=
  let s := { s with
    consumersByTag := s.consumersByTag.filter fun _ owner => owner ≠ drop.consumer
    activeConsumers := s.activeConsumers.erase drop.consumer
    removals :=
      if drop.consumer ∈ s.activeConsumers then
        s.removals ++ [Removal.mk drop.consumer drop.cause s.channelPool]
      else s.removals }
  if workers then s.setDrop d .terminating
  else
    let (released, s) := s.releaseDedicatedChannel drop.consumer
    s.setDrop d (.releasing released)

def terminated (s : State) (d : Nat) (drop : Drop) : State :=
  let (released, s) := s.releaseDedicatedChannel drop.consumer
  s.setDrop d (.releasing released)

/-- The drop is done, and what awaits it goes on. -/
def dropped (s : State) (d : Nat) (drop : Drop) : State :=
  let s := s.setDrop d .done
  match drop.cause with
  | .subscribe => s
  | .recovery l => (s.setLoop l .ended).emit (.consumerLost drop.consumer)
  | .unsubscribe u => s.setUnsubscribe u .resolved

/-! ## Unsubscribing -/

/-- `unsubscribe`, up to its first await. -/
def unsubscribe (s : State) (consumer : Nat) (c : Consumer) : State :=
  let s := s.modifyConsumer consumer fun c => { c with cancelled := true }
  let u := s.unsubscribes.length
  match c.channel, c.consumerTag with
  | some channel, some consumerTag =>
    { s with unsubscribes := s.unsubscribes ++ [Unsubscribe.mk consumer (.cancelling channel consumerTag)] }
  | _, _ =>
    { s with unsubscribes := s.unsubscribes ++ [Unsubscribe.mk consumer .dropping] }.dropConsumer consumer
      (.unsubscribe u)

/-- `unsubscribe` after the cancel. -/
def unsubscribeCancelled (s : State) (u consumer channel consumerTag : Nat) : State :=
  ((s.cancel channel consumerTag).setUnsubscribe u .dropping).dropConsumer consumer (.unsubscribe u)

/-! ## Channels and pools -/

/-- The pool is there, and not closed. -/
def poolOpen (s : State) : Bool :=
  s.channelPool.any fun pool => s.pools[pool]?.any fun p => !p.closed

/-- The channel emits `'close'`: its pool forgets it, and each watcher looks, a microtask later,
whether the consumer lost its channel alone. -/
def channelCloses (s : State) (channel : Nat) (c : Channel) : State :=
  let s := { s with
    channels := s.channels.set channel { c with life := .closed }
    dedicatedChannels := s.dedicatedChannels.erase (c.pool, c.owner) }
  if s.poolOpen ∧ s.consumers[c.owner]?.any (·.channel = some channel) then
    Nat.repeat (fun s : State => s.handleConsumerLoss c.owner) c.watchers s
  else s

/-- `pool.close()`, up to its await. -/
def closePool (s : State) (pool : Nat) : State :=
  { s with
    pools := s.pools.modify pool fun p => { p with closed := true }
    channels := s.channels.map fun c =>
      if c.pool = pool ∧ c.life = .live then { c with life := .closing } else c }

/-- The connection closes: every channel emits `'close'` first, then the pool goes. -/
def connectionLost (s : State) : State :=
  { s with
    channels := s.channels.map fun c => { c with life := .closed }
    dedicatedChannels := .empty
    pools := s.pools.map fun _ => Pool.mk true false
    channelPool := none
    restore := none }

/-- `disconnect` once the worker pools have terminated: the synchronous part of `disposeAll`, and
`close` on the pool. -/
def disconnect (s : State) : State :=
  let s := { s with
    consumers := s.consumers.mapIdx fun consumer (c : Consumer) =>
      if consumer ∈ s.activeConsumers then { c with cancelled := true } else c
    activeConsumers := []
    consumersByTag := .empty }
  match s.channelPool with
  | none => s
  | some pool => s.closePool pool

/-! ## Deliveries -/

/-- A handler finishes: when it was the last one, whoever drains the consumer goes on. -/
def handled (s : State) (consumer : Nat) (c : Consumer) : State :=
  let s := s.modifyConsumer consumer fun c => { c with inFlight := c.inFlight - 1 }
  if c.inFlight = 1 then
    { s with drops := s.drops.map fun drop =>
        if drop.consumer = consumer ∧ drop.stage = .draining then { drop with stage := .drained }
        else drop }
  else s

/-- No continuation is ready to run. -/
def quiet (s : State) : Bool :=
  s.setups.all (fun setup =>
    match setup.stage with
    | .notConnected | .opened _ | .releasing none | .consumed _ _ => false
    | _ => true) ∧
  s.drops.all fun drop =>
    match drop.stage with
    | .drained | .releasing none => false
    | _ => true

end State

inductive Event where
  /-- `subscribe`, up to the first await of its setup -/
  | subscribe (noAck : Bool)
  | unsubscribe (consumerTag : Nat)
  | unsubscribeCancelled (call : Nat)
  | channelOpened (setup : Nat)
  | setupContinues (setup : Nat)
  | prefetched (setup : Nat)
  | consumeOk (setup consumerTag : Nat)
  | setupCompletes (setup : Nat)
  | setupCancelled (setup : Nat)
  | setupReleased (setup : Nat)
  /-- what the setup awaits rejects -/
  | setupFails (setup : Nat)
  /-- a loop has slept -/
  | loopWakes (loop : Nat)
  /-- the broker cancels a consume, and delivers the null message -/
  | brokerCancels (consume : Nat)
  | channelCloses (channel : Nat)
  | delivered (consume : Nat)
  | handled (consumer : Nat)
  | drainTimesOut (drop : Nat)
  | removeConsumer (drop : Nat) (workers : Bool)
  | terminated (drop : Nat)
  | dropped (drop : Nat)
  /-- a restore installs its pool -/
  | poolInstalled
  | recreateAll
  /-- `recreateAll` runs the setup of the next consumer -/
  | recreates
  /-- every setup of `recreateAll` has settled -/
  | recreated
  /-- the exchange cannot be asserted, and the restore takes its pool down -/
  | restoreFails
  | connectionLost
  | disconnect
  /-- `disconnect` has closed the pool -/
  | poolClosed
  deriving DecidableEq

/-- A setup has failed, or can. -/
def SetupStage.fails : SetupStage → Bool
  | .notConnected | .opening _ | .prefetching _ | .consuming _ => true
  | _ => false

/-- What is awaited closes. -/
def State.closedChannel (s : State) (channel : Option Nat) : Bool :=
  channel.all fun channel => s.channels[channel]?.any (·.life = .closed)

def step (s : State) (event : Event) : Option State :=
  if s.recreating ≠ [] ∧ event ≠ .recreates then none else
  match event with
  | .subscribe noAck =>
    let consumer := s.consumers.length
    some ({ s with
      consumers := s.consumers ++ [Consumer.mk none none none false 0 0 noAck false]
      activeConsumers := s.activeConsumers ++ [consumer] }.runSetup consumer .subscribe)
  | .unsubscribe consumerTag =>
    match s.consumersByTag.get? consumerTag with
    -- unknown tags resolve to `false`
    | none => some s
    | some consumer =>
      if consumer ∈ s.activeConsumers then (s.consumers[consumer]?).map (s.unsubscribe consumer)
      else some s
  | .unsubscribeCancelled u =>
    match s.unsubscribes[u]? with
    | some ⟨consumer, .cancelling channel consumerTag⟩ =>
      some (s.unsubscribeCancelled u consumer channel consumerTag)
    | _ => none
  | .channelOpened k =>
    match s.setups[k]? with
    | some setup =>
      match setup.stage with
      | .opening pool =>
        if s.pools[pool]?.any (·.connected) then some (s.channelOpened k setup pool) else none
      | _ => none
    | none => none
  | .setupContinues k =>
    match s.setups[k]? with
    | some setup =>
      match setup.stage with
      | .opened channel => some (s.setupContinues k setup channel)
      | _ => none
    | none => none
  | .prefetched k =>
    match s.setups[k]? with
    | some setup =>
      match setup.stage with
      | .prefetching channel =>
        if s.live channel then some (s.setSetup k (.consuming channel)) else none
      | _ => none
    | none => none
  | .consumeOk k consumerTag =>
    match s.setups[k]? with
    | some setup =>
      match setup.stage with
      | .consuming channel =>
        -- the broker refuses a tag that is in use on the channel
        if s.live channel ∧ s.consumes.all (fun c =>
            c.active ∧ c.channel = channel → c.consumerTag ≠ consumerTag) then
          some (s.consumeOk k setup channel consumerTag)
        else none
      | _ => none
    | none => none
  | .setupCompletes k =>
    match s.setups[k]? with
    | some setup =>
      match setup.stage with
      | .consumed channel consumerTag => some (s.setupCompletes k setup channel consumerTag)
      | _ => none
    | none => none
  | .setupCancelled k =>
    match s.setups[k]? with
    | some setup =>
      match setup.stage with
      | .cancelling channel consumerTag =>
        some ((s.cancel channel consumerTag).settleSetup k setup false)
      | _ => none
    | none => none
  | .setupReleased k =>
    match s.setups[k]? with
    | some setup =>
      match setup.stage with
      | .releasing channel =>
        if s.closedChannel channel then some (s.settleSetup k setup false) else none
      | _ => none
    | none => none
  | .setupFails k =>
    match s.setups[k]? with
    | some setup => if setup.stage.fails then some (s.settleSetup k setup false) else none
    | none => none
  | .loopWakes l =>
    match s.loops[l]? with
    | some loop =>
      if loop.stage = .sleeping ∧ s.quiet then
        some (if s.stillOurs loop ∧ s.epoch loop.consumer = loop.knownEpoch then s.tryAgain l loop
          else s.setLoop l .ended)
      else none
    | none => none
  | .brokerCancels i =>
    match s.consumes[i]? with
    | some c =>
      if c.active ∧ s.live c.channel then
        some ({ s with consumes := s.consumes.set i { c with active := false } }.handleConsumerLoss
          c.consumer)
      else none
    | none => none
  | .channelCloses channel =>
    match s.channels[channel]? with
    | some c => if c.life ≠ .closed then some (s.channelCloses channel c) else none
    | none => none
  | .delivered i =>
    match s.consumes[i]? with
    | some c =>
      if c.active ∧ s.live c.channel then
        some (s.modifyConsumer c.consumer fun c => { c with inFlight := c.inFlight + 1 })
      else none
    | none => none
  | .handled consumer =>
    match s.consumers[consumer]? with
    | some c => if c.inFlight > 0 then some (s.handled consumer c) else none
    | none => none
  | .drainTimesOut d =>
    match s.drops[d]? with
    | some drop =>
      if drop.stage = .draining ∧ s.quiet then some (s.setDrop d .drained) else none
    | none => none
  | .removeConsumer d workers =>
    match s.drops[d]? with
    | some drop => if drop.stage = .drained then some (s.removeConsumer d drop workers) else none
    | none => none
  | .terminated d =>
    match s.drops[d]? with
    | some drop => if drop.stage = .terminating then some (s.terminated d drop) else none
    | none => none
  | .dropped d =>
    match s.drops[d]? with
    | some drop =>
      match drop.stage with
      | .releasing channel =>
        if s.closedChannel channel then some (s.dropped d drop) else none
      | _ => none
    | none => none
  | .poolInstalled =>
    match s.channelPool with
    | none => some { s with
        channelPool := some s.pools.length
        pools := s.pools ++ [⟨false, true⟩]
        restore := some .ensuringExchange }
    | some _ => none
  | .recreateAll =>
    match s.channelPool, s.restore with
    | some _, some .ensuringExchange =>
      some { s with restore := some .recreating, recreating := s.activeConsumers }
    -- a restore whose connection is gone
    | none, _ => some { s with recreating := s.activeConsumers }
    | _, _ => none
  | .recreates =>
    match s.recreating with
    | consumer :: recreating => some ({ s with recreating }.runSetup consumer .recreation)
    | [] => none
  | .recreated =>
    if s.restore = some .recreating ∧ s.setups.all (fun setup =>
        setup.caller = .recreation ∧ setup.pool = s.channelPool → setup.stage matches .settled _)
    then some { s with restore := none } else none
  | .restoreFails =>
    match s.channelPool, s.restore with
    | some pool, some .ensuringExchange =>
      some ({ s with channelPool := none, restore := none }.closePool pool)
    | _, _ => none
  | .connectionLost => some s.connectionLost
  | .disconnect => some s.disconnect
  | .poolClosed =>
    match s.channelPool with
    | some pool =>
      if s.pools[pool]?.any (·.closed) then
        some { s with
          channelPool := none
          restore := none
          dedicatedChannels := s.dedicatedChannels.filter fun key _ => key.1 ≠ pool }
      else none
    | none => none

/-- What a step can be, with the code it runs. -/
inductive Steps (s : State) : Event → State → Prop
  | subscribe {noAck} : Steps s (.subscribe noAck)
      (State.runSetup { s with
        consumers := s.consumers ++ [Consumer.mk none none none false 0 0 noAck false]
        activeConsumers := s.activeConsumers ++ [s.consumers.length] } s.consumers.length .subscribe)
  | unsubscribeUnknown {consumerTag} : Steps s (.unsubscribe consumerTag) s
  | unsubscribe {consumerTag consumer c} (htag : s.consumersByTag.get? consumerTag = some consumer)
      (hactive : consumer ∈ s.activeConsumers) (hc : s.consumers[consumer]? = some c) :
      Steps s (.unsubscribe consumerTag) (s.unsubscribe consumer c)
  | unsubscribeCancelled {u consumer channel consumerTag}
      (hu : s.unsubscribes[u]? = some ⟨consumer, .cancelling channel consumerTag⟩) :
      Steps s (.unsubscribeCancelled u) (s.unsubscribeCancelled u consumer channel consumerTag)
  | channelOpened {k setup pool} (hk : s.setups[k]? = some setup)
      (hstage : setup.stage = .opening pool) (hpool : s.pools[pool]?.any (·.connected)) :
      Steps s (.channelOpened k) (s.channelOpened k setup pool)
  | setupContinues {k setup channel} (hk : s.setups[k]? = some setup)
      (hstage : setup.stage = .opened channel) :
      Steps s (.setupContinues k) (s.setupContinues k setup channel)
  | prefetched {k setup channel} (hk : s.setups[k]? = some setup)
      (hstage : setup.stage = .prefetching channel) (hlive : s.live channel) :
      Steps s (.prefetched k) (s.setSetup k (.consuming channel))
  | consumeOk {k setup channel consumerTag} (hk : s.setups[k]? = some setup)
      (hstage : setup.stage = .consuming channel) (hlive : s.live channel)
      (htag : ∀ c ∈ s.consumes, c.active → c.channel = channel → c.consumerTag ≠ consumerTag) :
      Steps s (.consumeOk k consumerTag) (s.consumeOk k setup channel consumerTag)
  | setupCompletes {k setup channel consumerTag} (hk : s.setups[k]? = some setup)
      (hstage : setup.stage = .consumed channel consumerTag) :
      Steps s (.setupCompletes k) (s.setupCompletes k setup channel consumerTag)
  | setupCancelled {k setup channel consumerTag} (hk : s.setups[k]? = some setup)
      (hstage : setup.stage = .cancelling channel consumerTag) :
      Steps s (.setupCancelled k) ((s.cancel channel consumerTag).settleSetup k setup false)
  | setupReleased {k setup channel} (hk : s.setups[k]? = some setup)
      (hstage : setup.stage = .releasing channel) (hclosed : s.closedChannel channel) :
      Steps s (.setupReleased k) (s.settleSetup k setup false)
  | setupFails {k setup} (hk : s.setups[k]? = some setup) (hstage : setup.stage.fails) :
      Steps s (.setupFails k) (s.settleSetup k setup false)
  | loopTries {l loop} (hl : s.loops[l]? = some loop) (hstage : loop.stage = .sleeping)
      (hquiet : s.quiet) (hours : s.stillOurs loop)
      (hepoch : s.epoch loop.consumer = loop.knownEpoch) :
      Steps s (.loopWakes l) (s.tryAgain l loop)
  | loopEnds {l loop} (hl : s.loops[l]? = some loop) (hstage : loop.stage = .sleeping)
      (hquiet : s.quiet)
      (hfence : ¬ (s.stillOurs loop ∧ s.epoch loop.consumer = loop.knownEpoch)) :
      Steps s (.loopWakes l) (s.setLoop l .ended)
  | brokerCancels {i c} (hi : s.consumes[i]? = some c) (hactive : c.active)
      (hlive : s.live c.channel) :
      Steps s (.brokerCancels i)
        (State.handleConsumerLoss { s with consumes := s.consumes.set i { c with active := false } }
          c.consumer)
  | channelCloses {channel c} (hc : s.channels[channel]? = some c) (hlife : c.life ≠ .closed) :
      Steps s (.channelCloses channel) (s.channelCloses channel c)
  | delivered {i c} (hi : s.consumes[i]? = some c) (hactive : c.active)
      (hlive : s.live c.channel) :
      Steps s (.delivered i)
        (s.modifyConsumer c.consumer fun c => { c with inFlight := c.inFlight + 1 })
  | handled {consumer c} (hc : s.consumers[consumer]? = some c) (hflight : c.inFlight > 0) :
      Steps s (.handled consumer) (s.handled consumer c)
  | drainTimesOut {d drop} (hd : s.drops[d]? = some drop) (hstage : drop.stage = .draining)
      (hquiet : s.quiet) : Steps s (.drainTimesOut d) (s.setDrop d .drained)
  | removeConsumer {d drop workers} (hd : s.drops[d]? = some drop)
      (hstage : drop.stage = .drained) :
      Steps s (.removeConsumer d workers) (s.removeConsumer d drop workers)
  | terminated {d drop} (hd : s.drops[d]? = some drop) (hstage : drop.stage = .terminating) :
      Steps s (.terminated d) (s.terminated d drop)
  | dropped {d drop channel} (hd : s.drops[d]? = some drop)
      (hstage : drop.stage = .releasing channel) (hclosed : s.closedChannel channel) :
      Steps s (.dropped d) (s.dropped d drop)
  | poolInstalled (hpool : s.channelPool = none) :
      Steps s .poolInstalled { s with
        channelPool := some s.pools.length
        pools := s.pools ++ [⟨false, true⟩]
        restore := some .ensuringExchange }
  | recreateAll {pool} (hpool : s.channelPool = some pool)
      (hrestore : s.restore = some .ensuringExchange) :
      Steps s .recreateAll
        { s with restore := some .recreating, recreating := s.activeConsumers }
  | recreateAllLate (hpool : s.channelPool = none) :
      Steps s .recreateAll { s with recreating := s.activeConsumers }
  | recreates {consumer recreating} (hrecreating : s.recreating = consumer :: recreating) :
      Steps s .recreates (State.runSetup { s with recreating } consumer .recreation)
  | recreated (hrestore : s.restore = some .recreating)
      (hsettled : ∀ setup ∈ s.setups, setup.caller = .recreation → setup.pool = s.channelPool →
        ∃ ok, setup.stage = .settled ok) :
      Steps s .recreated { s with restore := none }
  | restoreFails {pool} (hpool : s.channelPool = some pool)
      (hrestore : s.restore = some .ensuringExchange) :
      Steps s .restoreFails
        (State.closePool { s with channelPool := none, restore := none } pool)
  | connectionLost : Steps s .connectionLost s.connectionLost
  | disconnect : Steps s .disconnect s.disconnect
  | poolClosed {pool} (hpool : s.channelPool = some pool)
      (hclosed : s.pools[pool]?.any (·.closed)) :
      Steps s .poolClosed { s with
        channelPool := none
        restore := none
        dedicatedChannels := s.dedicatedChannels.filter fun key _ => key.1 ≠ pool }

theorem step_cases {s s' : State} {event : Event} (hs : step s event = some s') :
    Steps s event s' := by
  unfold step at hs
  split at hs
  · cases hs
  split at hs
  · cases hs; exact .subscribe
  · split at hs
    · cases hs; exact .unsubscribeUnknown
    · split at hs
      · obtain ⟨c, hc, rfl⟩ := Option.map_eq_some_iff.mp hs
        exact .unsubscribe ‹_› ‹_› hc
      · cases hs; exact .unsubscribeUnknown
  · split at hs
    · cases hs; exact .unsubscribeCancelled ‹_›
    · cases hs
  · split at hs
    · split at hs
      · split at hs
        · cases hs; exact .channelOpened ‹_› ‹_› ‹_›
        · cases hs
      · cases hs
    · cases hs
  · split at hs
    · split at hs
      · cases hs; exact .setupContinues ‹_› ‹_›
      · cases hs
    · cases hs
  · split at hs
    · split at hs
      · split at hs
        · cases hs; exact .prefetched ‹_› ‹_› ‹_›
        · cases hs
      · cases hs
    · cases hs
  · split at hs
    · split at hs
      · split at hs
        · next hguard =>
          cases hs
          refine .consumeOk ‹_› ‹_› hguard.1 fun c hc hactive hchannel => ?_
          exact of_decide_eq_true (List.all_eq_true.mp hguard.2 c hc) ⟨hactive, hchannel⟩
        · cases hs
      · cases hs
    · cases hs
  · split at hs
    · split at hs
      · cases hs; exact .setupCompletes ‹_› ‹_›
      · cases hs
    · cases hs
  · split at hs
    · split at hs
      · cases hs; exact .setupCancelled ‹_› ‹_›
      · cases hs
    · cases hs
  · split at hs
    · split at hs
      · split at hs
        · cases hs; exact .setupReleased ‹_› ‹_› ‹_›
        · cases hs
      · cases hs
    · cases hs
  · split at hs
    · split at hs
      · cases hs; exact .setupFails ‹_› ‹_›
      · cases hs
    · cases hs
  · split at hs
    · split at hs
      · next hguard =>
        cases hs
        split
        · next hfence => exact .loopTries ‹_› hguard.1 hguard.2 hfence.1 hfence.2
        · next hfence => exact .loopEnds ‹_› hguard.1 hguard.2 hfence
      · cases hs
    · cases hs
  · split at hs
    · split at hs
      · next hguard => cases hs; exact .brokerCancels ‹_› hguard.1 hguard.2
      · cases hs
    · cases hs
  · split at hs
    · split at hs
      · cases hs; exact .channelCloses ‹_› ‹_›
      · cases hs
    · cases hs
  · split at hs
    · split at hs
      · next hguard => cases hs; exact .delivered ‹_› hguard.1 hguard.2
      · cases hs
    · cases hs
  · split at hs
    · split at hs
      · cases hs; exact .handled ‹_› ‹_›
      · cases hs
    · cases hs
  · split at hs
    · split at hs
      · next hguard => cases hs; exact .drainTimesOut ‹_› hguard.1 hguard.2
      · cases hs
    · cases hs
  · split at hs
    · split at hs
      · cases hs; exact .removeConsumer ‹_› ‹_›
      · cases hs
    · cases hs
  · split at hs
    · split at hs
      · cases hs; exact .terminated ‹_› ‹_›
      · cases hs
    · cases hs
  · split at hs
    · split at hs
      · split at hs
        · cases hs; exact .dropped ‹_› ‹_› ‹_›
        · cases hs
      · cases hs
    · cases hs
  · split at hs
    · cases hs; exact .poolInstalled ‹_›
    · cases hs
  · split at hs
    · cases hs; exact .recreateAll ‹_› ‹_›
    · cases hs; exact .recreateAllLate ‹_›
    · cases hs
  · split at hs
    · cases hs; exact .recreates ‹_›
    · cases hs
  · split at hs
    · next hguard =>
      cases hs
      refine .recreated hguard.1 fun setup hsetup hcaller hpool => ?_
      have hsettled := of_decide_eq_true (List.all_eq_true.mp hguard.2 setup hsetup)
        ⟨hcaller, hpool⟩
      split at hsettled
      · exact ⟨_, ‹_›⟩
      · cases hsettled
    · cases hs
  · split at hs
    · cases hs; exact .restoreFails ‹_› ‹_›
    · cases hs
  · cases hs; exact .connectionLost
  · cases hs; exact .disconnect
  · split at hs
    · split at hs
      · cases hs; exact .poolClosed ‹_› ‹_›
      · cases hs
    · cases hs

end ConsumerManager
end RabbitMQ

import RabbitMQ.Lib.Transition
import RabbitMQ.Lib.OrderedMap

/-! Requests over the direct reply-to queue. A request is registered under its correlation id,
with a timer, before it is published; what settles it is a reply, a return, the timer, a failed
publish, or the loss of the reply channel or of the connection. -/

namespace RabbitMQ
namespace Rpc

open Transition

inductive RpcError where
  /-- 'RPC timeout must be a positive number of milliseconds' -/
  | invalidTimeout
  /-- what `preflight` threw -/
  | preflight
  | notConnected
  /-- the reply channel did not open, or did not consume -/
  | setup
  | encode
  /-- RPC_CONNECTION_LOST -/
  | connectionLost
  /-- RPC_UNROUTABLE -/
  | unroutable
  /-- RPC_TIMEOUT -/
  | timeout
  /-- RPC_RESPONDER_ERROR -/
  | responder
  | decode
  | publish
  deriving DecidableEq

inductive Outcome where
  | resolved
  | rejected (error : RpcError)
  deriving DecidableEq

/-- A settlement of the promise of a request, with the correlation id on the reply or the return
that it comes from. -/
structure Settlement where
  request : Nat
  cause : Option Nat
  outcome : Outcome
  deriving DecidableEq

/-- An entry of `pendingRequests`: whose promise it settles, and its timer. -/
structure Pending where
  request : Nat
  timer : Nat
  deriving DecidableEq

/-- What a timer does when it fires. -/
structure Timer where
  correlationId : Nat
  request : Nat
  deriving DecidableEq

/-- A call of `#handleReply` that awaits `codec.decode`. -/
structure Decoding where
  request : Nat
  rpcError : Bool
  deriving DecidableEq

/-- A call of `request`. -/
inductive Stage where
  /-- `await this.publisher.preflight(...)` -/
  | preflight
  /-- `await this.#ensureReplyConsumer()` -/
  | joining
  /-- `await this.codec.encode(message)` -/
  | encoding (channel : Nat)
  | registered
  | failed (error : RpcError)
  deriving DecidableEq

/-- The call of `#setupReplyConsumer` behind `replySetupPromise`, with the epoch it began in. -/
inductive Setup where
  /-- `await channelPool.getDedicatedChannel('rpc-reply')` -/
  | opening (epoch : Nat)
  /-- `await channel.consume(...)` -/
  | consuming (epoch channel : Nat)
  deriving DecidableEq

structure State where
  pendingRequests : OrderedMap Nat Pending
  replyChannel : Option Nat
  replySetup : Option Setup
  replyListeners : Option Nat
  connectionEpoch : Nat
  requests : OrderedMap Nat Stage
  /-- The timers that are armed. -/
  timers : OrderedMap Nat Timer
  nextTimer : Nat
  /-- The correlation ids given out so far. -/
  issued : OrderedMap Nat Nat
  decoding : OrderedMap Nat Decoding
  /-- The publishes that have not settled. -/
  publishing : List Nat
  /-- The channels that consume the pseudo-queue. -/
  consumers : List Nat
  /-- The channels with the `'return'` and `'close'` listeners on. -/
  listening : List Nat
  /-- Every settlement so far. -/
  settled : List Settlement

def start : State where
  pendingRequests := .empty
  replyChannel := none
  replySetup := none
  replyListeners := none
  connectionEpoch := 0
  requests := .empty
  timers := .empty
  nextTimer := 0
  issued := .empty
  decoding := .empty
  publishing := []
  consumers := []
  listening := []
  settled := []

namespace State

def settle (s : State) (request : Nat) (cause : Option Nat) (outcome : Outcome) : State :=
  { s with settled := s.settled ++ [⟨request, cause, outcome⟩] }

def setStage (s : State) (request : Nat) (stage : Stage) : State :=
  { s with requests := s.requests.set request stage }

def settlePending (s : State) (correlationId : Nat) (cause : Option Nat) (outcome : Outcome) :
    State :=
  match s.pendingRequests.get? correlationId with
  | none => s
  | some pending =>
    { s with
      pendingRequests := s.pendingRequests.erase correlationId
      timers := s.timers.erase pending.timer }.settle pending.request cause outcome

/-- A turn of the loop of `rejectAllPending`. -/
def rejectPending (s : State) (pending : Pending) : State :=
  { s with timers := s.timers.erase pending.timer }.settle pending.request none
    (.rejected .connectionLost)

def rejectAllPending (s : State) : State :=
  { (s.pendingRequests.entries.map Prod.snd).foldl rejectPending s with pendingRequests := .empty }

def detachReplyListeners (s : State) : State :=
  match s.replyListeners with
  | none => s
  | some channel => { s with listening := s.listening.erase channel, replyListeners := none }

def handleConnectionLoss (s : State) : State :=
  { { s with connectionEpoch := s.connectionEpoch + 1 }.detachReplyListeners with
    replyChannel := none }.rejectAllPending

def invalidateReplyChannel (s : State) (channel : Nat) : State :=
  if s.replyChannel ≠ some channel then s
  else { s.detachReplyListeners with replyChannel := none }.rejectAllPending

/-- Everyone who shares the setup goes on with its channel, or fails with it. -/
def setupSettles (s : State) (result : Except RpcError Nat) : State :=
  { s with
    replySetup := none
    requests := s.requests.keys.foldl (fun requests request =>
      if requests.get? request = some .joining then
        requests.set request (match result with
          | .ok channel => .encoding channel
          | .error error => .failed error)
      else requests) s.requests }

/-- `request` after `preflight`: `#ensureReplyConsumer`, up to its await. -/
def preflighted (s : State) (request : Nat) (hasPool : Bool) : State :=
  match s.replyChannel with
  | some channel => s.setStage request (.encoding channel)
  | none =>
    match s.replySetup with
    | some _ => s.setStage request .joining
    | none =>
      if hasPool then
        { s with replySetup := some (.opening s.connectionEpoch) }.setStage request .joining
      else s.setStage request (.failed .notConnected)

/-- `#setupReplyConsumer` after `channel.consume`: the connection may have turned over. -/
def consumed (s : State) (epoch channel : Nat) : State :=
  let s := { s with
    listening := channel :: s.listening
    replyListeners := some channel }
  if epoch ≠ s.connectionEpoch then s.detachReplyListeners.setupSettles (.error .connectionLost)
  else { s with replyChannel := some channel }.setupSettles (.ok channel)

/-- `request` after `encode`: it is registered with its timer, and published. -/
def register (s : State) (request correlationId : Nat) : State :=
  { s with
    timers := s.timers.set s.nextTimer ⟨correlationId, request⟩
    pendingRequests := s.pendingRequests.set correlationId ⟨request, s.nextTimer⟩
    nextTimer := s.nextTimer + 1
    issued := s.issued.set correlationId request
    publishing := correlationId :: s.publishing }.setStage request .registered

def timerFires (s : State) (handle : Nat) (timer : Timer) : State :=
  { s with
    timers := s.timers.erase handle
    pendingRequests := s.pendingRequests.erase timer.correlationId }.settle timer.request none
      (.rejected .timeout)

/-- `#handleReply`, up to its await. -/
def handleReply (s : State) (correlationId : Option Nat) (rpcError : Bool) : State :=
  match correlationId with
  | none => s
  | some correlationId =>
    match s.pendingRequests.get? correlationId with
    | none => s
    | some pending =>
      { s with
        pendingRequests := s.pendingRequests.erase correlationId
        timers := s.timers.erase pending.timer
        decoding := s.decoding.set correlationId ⟨pending.request, rpcError⟩ }

/-- `#handleReply` after `decode`. -/
def decoded (s : State) (correlationId : Nat) (d : Decoding) (ok : Bool) : State :=
  { s with decoding := s.decoding.erase correlationId }.settle d.request (some correlationId)
    (if ok then if d.rpcError then .rejected .responder else .resolved else .rejected .decode)

end State

inductive Event where
  /-- `request`, with the timeout it asks for -/
  | request (request : Nat) (timeout : Option Nat)
  | preflighted (request : Nat) (ok hasPool : Bool)
  /-- the setup of the reply consumer goes on -/
  | channelOpened (channel : Option Nat)
  | consumed (ok : Bool)
  | encoded (request : Nat) (correlationId : Option Nat)
  /-- a message on the reply consumer of a channel -/
  | reply (channel : Nat) (correlationId : Option Nat) (rpcError : Bool)
  | decoded (correlationId : Nat) (ok : Bool)
  | cancelled (channel : Nat)
  | returned (channel : Nat) (correlationId : Option Nat)
  | closed (channel : Nat)
  | connectionLost
  | timerFires (handle : Nat)
  | publishSettles (correlationId : Nat) (ok : Bool)
  deriving DecidableEq

def step (s : State) : Event → Option State
  | .request request timeout =>
    if request ∈ s.requests then none
    else some (s.setStage request (if timeout = some 0 then .failed .invalidTimeout else .preflight))
  | .preflighted request ok hasPool =>
    if s.requests.get? request = some .preflight then
      some (if ok then s.preflighted request hasPool else s.setStage request (.failed .preflight))
    else none
  | .channelOpened channel =>
    match s.replySetup with
    | some (.opening epoch) =>
      some (match channel with
        | some channel => { s with
            replySetup := some (.consuming epoch channel)
            consumers := channel :: s.consumers }
        | none => s.setupSettles (.error .setup))
    | _ => none
  | .consumed ok =>
    match s.replySetup with
    | some (.consuming epoch channel) =>
      some (if ok then s.consumed epoch channel else s.setupSettles (.error .setup))
    | _ => none
  | .encoded request correlationId =>
    match s.requests.get? request with
    | some (.encoding _) =>
      match correlationId with
      | some correlationId =>
        -- correlation ids are unique
        if correlationId ∈ s.issued then none else some (s.register request correlationId)
      | none => some (s.setStage request (.failed .encode))
    | _ => none
  | .reply channel correlationId rpcError =>
    if channel ∈ s.consumers then some (s.handleReply correlationId rpcError) else none
  | .decoded correlationId ok =>
    (s.decoding.get? correlationId).map fun d => s.decoded correlationId d ok
  | .cancelled channel =>
    if channel ∈ s.consumers then some (s.invalidateReplyChannel channel) else none
  | .returned channel correlationId =>
    if channel ∈ s.listening then
      some (match correlationId with
        | some correlationId =>
          s.settlePending correlationId (some correlationId) (.rejected .unroutable)
        | none => s)
    else none
  | .closed channel =>
    if channel ∈ s.listening then some (s.invalidateReplyChannel channel) else none
  | .connectionLost => some s.handleConnectionLoss
  | .timerFires handle => (s.timers.get? handle).map (s.timerFires handle)
  | .publishSettles correlationId ok =>
    if correlationId ∈ s.publishing then
      let s := { s with publishing := s.publishing.erase correlationId }
      some (if ok then s else s.settlePending correlationId none (.rejected .publish))
    else none

/-- What a step can be, with the code it runs. -/
inductive Steps (s : State) : Event → State → Prop
  | request {request timeout} (hfresh : request ∉ s.requests) :
      Steps s (.request request timeout)
        (s.setStage request (if timeout = some 0 then .failed .invalidTimeout else .preflight))
  | preflighted {request hasPool} (hstage : s.requests.get? request = some .preflight) :
      Steps s (.preflighted request true hasPool) (s.preflighted request hasPool)
  | preflightFails {request hasPool} (hstage : s.requests.get? request = some .preflight) :
      Steps s (.preflighted request false hasPool) (s.setStage request (.failed .preflight))
  | channelOpened {epoch channel} (hsetup : s.replySetup = some (.opening epoch)) :
      Steps s (.channelOpened (some channel)) { s with
        replySetup := some (.consuming epoch channel)
        consumers := channel :: s.consumers }
  | channelFails {epoch} (hsetup : s.replySetup = some (.opening epoch)) :
      Steps s (.channelOpened none) (s.setupSettles (.error .setup))
  | consumed {epoch channel} (hsetup : s.replySetup = some (.consuming epoch channel)) :
      Steps s (.consumed true) (s.consumed epoch channel)
  | consumeFails {epoch channel} (hsetup : s.replySetup = some (.consuming epoch channel)) :
      Steps s (.consumed false) (s.setupSettles (.error .setup))
  | encoded {request correlationId channel}
      (hstage : s.requests.get? request = some (.encoding channel))
      (hunique : correlationId ∉ s.issued) :
      Steps s (.encoded request (some correlationId)) (s.register request correlationId)
  | encodeFails {request channel} (hstage : s.requests.get? request = some (.encoding channel)) :
      Steps s (.encoded request none) (s.setStage request (.failed .encode))
  | reply {channel correlationId rpcError} (hconsumer : channel ∈ s.consumers) :
      Steps s (.reply channel correlationId rpcError) (s.handleReply correlationId rpcError)
  | decoded {correlationId d ok} (hd : s.decoding.get? correlationId = some d) :
      Steps s (.decoded correlationId ok) (s.decoded correlationId d ok)
  | cancelled {channel} (hconsumer : channel ∈ s.consumers) :
      Steps s (.cancelled channel) (s.invalidateReplyChannel channel)
  | returned {channel correlationId} (hlistener : channel ∈ s.listening) :
      Steps s (.returned channel (some correlationId))
        (s.settlePending correlationId (some correlationId) (.rejected .unroutable))
  | returnedUnknown {channel} (hlistener : channel ∈ s.listening) :
      Steps s (.returned channel none) s
  | closed {channel} (hlistener : channel ∈ s.listening) :
      Steps s (.closed channel) (s.invalidateReplyChannel channel)
  | connectionLost : Steps s .connectionLost s.handleConnectionLoss
  | timerFires {handle timer} (htimer : s.timers.get? handle = some timer) :
      Steps s (.timerFires handle) (s.timerFires handle timer)
  | published {correlationId} (hmem : correlationId ∈ s.publishing) :
      Steps s (.publishSettles correlationId true)
        { s with publishing := s.publishing.erase correlationId }
  | publishFails {correlationId} (hmem : correlationId ∈ s.publishing) :
      Steps s (.publishSettles correlationId false)
        (State.settlePending { s with publishing := s.publishing.erase correlationId }
          correlationId none (.rejected .publish))

theorem step_cases {s s' : State} {event : Event} (hs : step s event = some s') :
    Steps s event s' := by
  unfold step at hs
  split at hs
  · split at hs
    · cases hs
    · cases hs; exact .request ‹_›
  · next request ok hasPool =>
    split at hs
    · cases ok with
      | true => cases hs; exact .preflighted ‹_›
      | false => cases hs; exact .preflightFails ‹_›
    · cases hs
  · next channel =>
    split at hs
    · cases channel with
      | some channel => cases hs; exact .channelOpened ‹_›
      | none => cases hs; exact .channelFails ‹_›
    · cases hs
  · next ok =>
    split at hs
    · cases ok with
      | true => cases hs; exact .consumed ‹_›
      | false => cases hs; exact .consumeFails ‹_›
    · cases hs
  · next request correlationId =>
    split at hs
    · cases correlationId with
      | some correlationId =>
        dsimp only at hs
        split at hs
        · cases hs
        · cases hs; exact .encoded ‹_› ‹_›
      | none => cases hs; exact .encodeFails ‹_›
    · cases hs
  · split at hs
    · cases hs; exact .reply ‹_›
    · cases hs
  · obtain ⟨d, hd, rfl⟩ := Option.map_eq_some_iff.mp hs
    exact .decoded hd
  · split at hs
    · cases hs; exact .cancelled ‹_›
    · cases hs
  · next channel correlationId =>
    split at hs
    · cases correlationId with
      | some correlationId => cases hs; exact .returned ‹_›
      | none => cases hs; exact .returnedUnknown ‹_›
    · cases hs
  · split at hs
    · cases hs; exact .closed ‹_›
    · cases hs
  · cases hs; exact .connectionLost
  · obtain ⟨timer, htimer, rfl⟩ := Option.map_eq_some_iff.mp hs
    exact .timerFires htimer
  · next correlationId ok =>
    split at hs
    · cases ok with
      | true => cases hs; exact .published ‹_›
      | false => cases hs; exact .publishFails ‹_›
    · cases hs

end Rpc
end RabbitMQ

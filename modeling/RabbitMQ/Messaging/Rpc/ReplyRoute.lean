import RabbitMQ.Lib.Transition
import RabbitMQ.Lib.Update

/-! The reply route of `request`: the channel that consumes the direct reply-to queue, the setup
that builds it, and the listeners that bring it down.

`Messaging.Rpc` follows the requests and takes a setup for one piece from the broker's answer on.
Here a setup is a call of its own, apart from the slot that shares it: the broker's answer, the
continuation after `channel.consume` and the `finally` that empties the slot are three steps, and
every listener and every reply consumer is known by the setup it was made by. -/

namespace RabbitMQ
namespace ReplyRoute

/-- Where a call of `#setupReplyConsumer` is. -/
inductive Stage where
  /-- `await channelPool.getDedicatedChannel('rpc-reply')` -/
  | opening
  /-- `await channel.consume(...)`, before the broker answered -/
  | consuming (channel : Nat)
  /-- the broker has answered; the call has not gone on -/
  | consumed (channel : Nat)
  /-- it returned its channel, in this epoch -/
  | installed (channel epoch : Nat)
  /-- the connection had turned over -/
  | fenced (channel : Nat)
  /-- it threw before it consumed -/
  | failed
  deriving DecidableEq

def Stage.settled : Stage → Bool
  | .opening | .consuming _ | .consumed _ => false
  | .installed .. | .fenced _ | .failed => true

/-- The channel on which the call has a reply consumer. -/
def Stage.consumer? : Stage → Option Nat
  | .consumed channel | .installed channel _ | .fenced channel => some channel
  | .opening | .consuming _ | .failed => none

structure Setup where
  /-- `connectionEpoch` when the call began -/
  epoch : Nat
  stage : Stage
  /-- its `finally` has emptied the slot -/
  cleared : Bool
  /-- the broker cancelled its consumer -/
  cancelled : Bool
  deriving DecidableEq

inductive ListenerKind where
  | onReturn
  | onClose
  deriving DecidableEq

/-- A listener on a channel, with the setup whose closure it is. -/
structure Listener where
  channel : Nat
  setup : Nat
  kind : ListenerKind
  deriving DecidableEq

structure ReplyListeners where
  channel : Nat
  setup : Nat
  deriving DecidableEq

/-- A call of `request`, from `#ensureReplyConsumer` on. -/
inductive Request where
  /-- it awaits the promise of a setup -/
  | awaits (setup : Nat)
  /-- it publishes, and republishes, on this channel -/
  | holds (channel : Nat)
  | failed
  deriving DecidableEq

def Request.channel? : Request → Option Nat
  | .holds channel => some channel
  | .awaits _ | .failed => none

structure State where
  replyChannel : Option Nat
  /-- The setup behind `replySetupPromise`. -/
  replySetupPromise : Option Nat
  replyListeners : Option ReplyListeners
  connectionEpoch : Nat
  /-- Every call of `#setupReplyConsumer` so far. -/
  setups : List Setup
  /-- The listeners that are on, on any channel. -/
  attached : List Listener
  /-- The channels that have emitted `'close'`. -/
  closed : List Nat
  requests : List Request
  /-- The requests that were published on a channel that could not deliver their answer. -/
  stranded : List Nat

def start : State where
  replyChannel := none
  replySetupPromise := none
  replyListeners := none
  connectionEpoch := 0
  setups := []
  attached := []
  closed := []
  requests := []
  stranded := []

namespace State

/-- The channel is open, and consumes the reply queue. -/
def Delivers (s : State) (channel : Nat) : Prop :=
  channel ∉ s.closed ∧
    ∃ setup ∈ s.setups, setup.stage.consumer? = some channel ∧ setup.cancelled = false

instance (s : State) (channel : Nat) : Decidable (s.Delivers channel) :=
  inferInstanceAs (Decidable (_ ∧ ∃ setup ∈ s.setups, _))

def setSetup (s : State) (k : Nat) (setup : Setup) : State :=
  { s with setups := s.setups.set k setup }

def detachReplyListeners (s : State) : State :=
  match s.replyListeners with
  | none => s
  | some ⟨channel, k⟩ =>
    { s with
      attached := (s.attached.erase ⟨channel, k, .onReturn⟩).erase ⟨channel, k, .onClose⟩
      replyListeners := none }

def handleConnectionLoss (s : State) : State :=
  { { s with connectionEpoch := s.connectionEpoch + 1 }.detachReplyListeners with
    replyChannel := none }

def invalidateReplyChannel (s : State) (channel : Nat) : State :=
  if s.replyChannel ≠ some channel then s
  else { s.detachReplyListeners with replyChannel := none }

/-- `#ensureReplyConsumer`, up to its await. Without a pool the setup throws at once. -/
def ensureReplyConsumer (s : State) (hasPool : Bool) : State × Request :=
  match s.replyChannel with
  | some channel => (s, .holds channel)
  | none =>
    match s.replySetupPromise with
    | some k => (s, .awaits k)
    | none =>
      let setup : Setup := ⟨s.connectionEpoch, if hasPool then .opening else .failed, false, false⟩
      ({ s with
          setups := s.setups ++ [setup]
          replySetupPromise := some s.setups.length }, .awaits s.setups.length)

def request (s : State) (hasPool : Bool) : State :=
  let (s, request) := s.ensureReplyConsumer hasPool
  { s with requests := s.requests ++ [request] }

/-- `channel.on('return', ...)` and `channel.on('close', ...)` -/
def attachReplyListeners (s : State) (channel k : Nat) : State :=
  { s with
    attached := s.attached ++ [⟨channel, k, .onReturn⟩, ⟨channel, k, .onClose⟩]
    replyListeners := some ⟨channel, k⟩ }

/-- `#setupReplyConsumer` after `channel.consume`. -/
def consumed (s : State) (k : Nat) (setup : Setup) (channel : Nat) : State :=
  let s := s.attachReplyListeners channel k
  if setup.epoch ≠ s.connectionEpoch then
    s.detachReplyListeners.setSetup k { setup with stage := .fenced channel }
  else
    { s with replyChannel := some channel }.setSetup k
      { setup with stage := .installed channel s.connectionEpoch }

/-- The `finally` of `#ensureReplyConsumer`. -/
def clearSlot (s : State) (k : Nat) (setup : Setup) : State :=
  { s with replySetupPromise := none }.setSetup k { setup with cleared := true }

/-- The null message of the consumer of a setup. -/
def brokerCancels (s : State) (k : Nat) (setup : Setup) (channel : Nat) : State :=
  (s.setSetup k { setup with cancelled := true }).invalidateReplyChannel channel

/-- A channel emits `'close'`: every `onClose` that is on runs. -/
def emitClose (s : State) (channel : Nat) : State :=
  let listeners := s.attached.filter fun l => l.channel = channel ∧ l.kind = .onClose
  listeners.foldl (fun s l => s.invalidateReplyChannel l.channel)
    { s with closed := channel :: s.closed }

/-- A request that joined a setup goes on. -/
def join (s : State) (r : Nat) (setup : Setup) : State :=
  { s with
    requests := s.requests.set r (match setup.stage with
      | .installed channel _ => .holds channel
      | _ => .failed) }

def publishOnChannel (s : State) (r channel : Nat) : State :=
  if s.Delivers channel then s else { s with stranded := r :: s.stranded }

end State

inductive Event where
  | request (hasPool : Bool)
  | opened (setup : Nat) (channel : Option Nat)
  /-- the broker's consume-ok arrives -/
  | answered (setup : Nat)
  /-- `channel.consume` throws -/
  | refused (setup : Nat)
  /-- the call goes on after `channel.consume` -/
  | resumed (setup : Nat)
  | cleared (setup : Nat)
  | joined (request : Nat)
  /-- an attempt of `publishOnChannel`, once the message is encoded -/
  | publishes (request : Nat)
  /-- the broker cancels the consumer of a setup -/
  | cancelled (setup : Nat)
  | closed (channel : Nat)
  | connectionLost
  deriving DecidableEq

/-- Nothing arrives on a channel that has closed. -/
def step (s : State) : Event → Option State
  | .request hasPool => some (s.request hasPool)
  | .opened k channel =>
    match s.setups[k]? with
    | some ⟨epoch, .opening, cleared, cancelled⟩ =>
      let stage := match channel with
        | some channel => .consuming channel
        | none => .failed
      some (s.setSetup k ⟨epoch, stage, cleared, cancelled⟩)
    | _ => none
  | .answered k =>
    match s.setups[k]? with
    | some ⟨epoch, .consuming channel, cleared, cancelled⟩ =>
      if channel ∈ s.closed then none
      else some (s.setSetup k ⟨epoch, .consumed channel, cleared, cancelled⟩)
    | _ => none
  | .refused k =>
    match s.setups[k]? with
    | some ⟨epoch, .consuming _, cleared, cancelled⟩ =>
      some (s.setSetup k ⟨epoch, .failed, cleared, cancelled⟩)
    | _ => none
  | .resumed k =>
    match s.setups[k]? with
    | some ⟨epoch, .consumed channel, cleared, cancelled⟩ =>
      some (s.consumed k ⟨epoch, .consumed channel, cleared, cancelled⟩ channel)
    | _ => none
  | .cleared k =>
    match s.setups[k]? with
    | some setup =>
      if setup.stage.settled ∧ setup.cleared = false then some (s.clearSlot k setup) else none
    | none => none
  | .joined r =>
    match s.requests[r]? with
    | some (.awaits k) =>
      match s.setups[k]? with
      | some setup => if setup.cleared then some (s.join r setup) else none
      | none => none
    | _ => none
  | .publishes r =>
    match s.requests[r]? with
    | some (.holds channel) => some (s.publishOnChannel r channel)
    | _ => none
  | .cancelled k =>
    match s.setups[k]? with
    | some setup =>
      match setup.stage.consumer? with
      | some channel =>
        if channel ∈ s.closed then none else some (s.brokerCancels k setup channel)
      | none => none
    | none => none
  | .closed channel => if channel ∈ s.closed then none else some (s.emitClose channel)
  | .connectionLost => some s.handleConnectionLoss

/-- What a step can be, with the code it runs. -/
inductive Steps (s : State) : Event → State → Prop
  | request {hasPool} : Steps s (.request hasPool) (s.request hasPool)
  | opened {k setup channel} (hk : s.setups[k]? = some setup) (hstage : setup.stage = .opening) :
      Steps s (.opened k (some channel)) (s.setSetup k { setup with stage := .consuming channel })
  | openFails {k setup} (hk : s.setups[k]? = some setup) (hstage : setup.stage = .opening) :
      Steps s (.opened k none) (s.setSetup k { setup with stage := .failed })
  | answered {k setup channel} (hk : s.setups[k]? = some setup)
      (hstage : setup.stage = .consuming channel) (hopen : channel ∉ s.closed) :
      Steps s (.answered k) (s.setSetup k { setup with stage := .consumed channel })
  | refused {k setup channel} (hk : s.setups[k]? = some setup)
      (hstage : setup.stage = .consuming channel) :
      Steps s (.refused k) (s.setSetup k { setup with stage := .failed })
  | resumed {k setup channel} (hk : s.setups[k]? = some setup)
      (hstage : setup.stage = .consumed channel) :
      Steps s (.resumed k) (s.consumed k setup channel)
  | cleared {k setup} (hk : s.setups[k]? = some setup) (hsettled : setup.stage.settled)
      (hfull : setup.cleared = false) : Steps s (.cleared k) (s.clearSlot k setup)
  | joined {r k setup} (hr : s.requests[r]? = some (.awaits k)) (hk : s.setups[k]? = some setup)
      (hcleared : setup.cleared) : Steps s (.joined r) (s.join r setup)
  | publishes {r channel} (hr : s.requests[r]? = some (.holds channel)) :
      Steps s (.publishes r) (s.publishOnChannel r channel)
  | cancelled {k setup channel} (hk : s.setups[k]? = some setup)
      (hconsumer : setup.stage.consumer? = some channel) (hopen : channel ∉ s.closed) :
      Steps s (.cancelled k) (s.brokerCancels k setup channel)
  | closed {channel} (hopen : channel ∉ s.closed) :
      Steps s (.closed channel) (s.emitClose channel)
  | connectionLost : Steps s .connectionLost s.handleConnectionLoss

theorem step_cases {s s' : State} {event : Event} (hs : step s event = some s') :
    Steps s event s' := by
  cases event with
  | request hasPool => cases hs; exact .request
  | opened k channel =>
    simp only [step] at hs
    split at hs
    · next hk =>
      cases channel with
      | some channel => cases hs; exact .opened hk rfl
      | none => cases hs; exact .openFails hk rfl
    · cases hs
  | answered k =>
    simp only [step] at hs
    split at hs
    · next hk =>
      split at hs
      · cases hs
      · cases hs; exact .answered hk rfl ‹_›
    · cases hs
  | refused k =>
    simp only [step] at hs
    split at hs
    · next hk => cases hs; exact .refused hk rfl
    · cases hs
  | resumed k =>
    simp only [step] at hs
    split at hs
    · next hk => cases hs; exact .resumed hk rfl
    · cases hs
  | cleared k =>
    simp only [step] at hs
    split at hs
    · next hk =>
      split at hs
      · next h => cases hs; exact .cleared hk h.1 h.2
      · cases hs
    · cases hs
  | joined r =>
    simp only [step] at hs
    split at hs
    · next hr =>
      split at hs
      · next hk =>
        split at hs
        · next hcleared => cases hs; exact .joined hr hk hcleared
        · cases hs
      · cases hs
    · cases hs
  | publishes r =>
    simp only [step] at hs
    split at hs
    · next hr => cases hs; exact .publishes hr
    · cases hs
  | cancelled k =>
    simp only [step] at hs
    split at hs
    · next hk =>
      split at hs
      · next hconsumer =>
        split at hs
        · cases hs
        · cases hs; exact .cancelled hk hconsumer ‹_›
      · cases hs
    · cases hs
  | closed channel =>
    simp only [step] at hs
    split at hs
    · cases hs
    · cases hs; exact .closed ‹_›
  | connectionLost => cases hs; exact .connectionLost

end ReplyRoute
end RabbitMQ

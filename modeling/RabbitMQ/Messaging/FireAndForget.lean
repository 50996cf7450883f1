import RabbitMQ.Lib.OrderedMap

/-! `publishAsync` and `publishAsyncBatch` from the call of the circuit breaker on. The messages of
a call are written one after the other, without a confirm; where the write buffer of the channel is
full, the call waits for the channel to drain, to close or to fail. -/

namespace RabbitMQ
namespace FireAndForget

/-- What a channel emits to those who wait for it to drain. -/
inductive Occasion where
  | drain
  | close
  | error
  deriving DecidableEq

/-- One of the listeners `onDrain`, `onClose` and `onError` of a call of `publishFireAndForget`. -/
structure Listener where
  channel : Nat
  call : Nat
  index : Nat
  occasion : Occasion
  deriving DecidableEq

/-- A message that was written to a channel. -/
structure Frame where
  channel : Nat
  call : Nat
  index : Nat
  deriving DecidableEq

inductive Failure where
  /-- the circuit is open -/
  | refused
  | getChannel
  | encode
  /-- what `channel.publish` threw -/
  | publish
  /-- 'Channel closed while waiting for drain' -/
  | closed
  /-- the error of the channel, or 'Channel error while waiting for drain' -/
  | channelError
  deriving DecidableEq

inductive Stage where
  /-- `await this.getChannel()` -/
  | acquiring
  /-- `await Promise.all(messages.map(...))` -/
  | encoding
  /-- a turn of the loop -/
  | publishing
  /-- the `await` of `publishFireAndForget` -/
  | draining
  /-- the promise is resolved -/
  | drained
  | resolved
  | rejected (failure : Failure)
  deriving DecidableEq

def Stage.settled : Stage → Bool
  | .resolved | .rejected _ => true
  | _ => false

structure Call where
  /-- `messages.length` -/
  count : Nat
  channel : Option Nat
  /-- how many messages were written -/
  next : Nat
  stage : Stage
  deriving DecidableEq

structure State where
  calls : OrderedMap Nat Call
  listeners : List Listener
  /-- what was written so far, oldest first -/
  wire : List Frame

def start : State := ⟨.empty, [], []⟩

namespace State

def framesOf (s : State) (id : Nat) : List Frame := s.wire.filter (·.call = id)

def put (s : State) (id : Nat) (call : Call) : State := { s with calls := s.calls.set id call }

def write (s : State) (channel id index : Nat) : State :=
  { s with wire := s.wire ++ [⟨channel, id, index⟩] }

/-- `cleanup` -/
def cleanup (s : State) (l : Listener) : State :=
  { s with listeners := s.listeners.filter fun m => ¬ (m.call = l.call ∧ m.index = l.index) }

def listen (s : State) (channel id index : Nat) : State :=
  { s with listeners := s.listeners ++
    [⟨channel, id, index, .drain⟩, ⟨channel, id, index, .close⟩, ⟨channel, id, index, .error⟩] }

end State

/-- What a listener settles its promise with. -/
def Occasion.outcome : Occasion → Stage
  | .drain => .drained
  | .close => .rejected .closed
  | .error => .rejected .channelError

/-- A listener is called. -/
def State.notify (s : State) (l : Listener) : State :=
  let s := s.cleanup l
  match s.calls.get? l.call with
  | none => s
  | some call =>
    if call.stage = .draining ∧ call.next = l.index + 1 then
      s.put l.call { call with stage := l.occasion.outcome }
    else s

/-- `emit` calls those who listen when it begins. -/
def State.emit (s : State) (channel : Nat) (occasion : Occasion) : State :=
  (s.listeners.filter fun l => l.channel = channel ∧ l.occasion = occasion).foldl notify s

/-- The loop after a message was written. -/
def Call.proceed (call : Call) : Call :=
  { call with stage := if call.next < call.count then .publishing else .resolved }

/-- What `channel.publish` does. -/
inductive Wrote where
  | accepted
  /-- the write buffer is full -/
  | full
  | threw
  deriving DecidableEq

def State.publish (s : State) (id channel : Nat) (call : Call) : Wrote → State
  | .threw => s.put id { call with stage := .rejected .publish }
  | .accepted =>
    (s.write channel id call.next).put id ({ call with next := call.next + 1 } : Call).proceed
  | .full =>
    ((s.write channel id call.next).listen channel id call.next).put id { call with next := call.next + 1, stage := .draining }

inductive Event where
  /-- `publishAsync`, of one message, or `publishAsyncBatch`, past its checks -/
  | call (id count : Nat)
  | refused (id : Nat)
  | acquired (id : Nat) (channel : Option Nat)
  | encoded (id : Nat) (ok : Bool)
  | publishes (id : Nat) (wrote : Wrote)
  | emits (channel : Nat) (occasion : Occasion)
  /-- the promise was resolved: the call goes on -/
  | resumes (id : Nat)
  deriving DecidableEq

def step (s : State) : Event → Option State
  | .call id count =>
    if id ∈ s.calls ∨ count = 0 then none
    else some (s.put id ⟨count, none, 0, .acquiring⟩)
  | .refused id =>
    (s.calls.get? id).bind fun call =>
      if call.stage = .acquiring then some (s.put id { call with stage := .rejected .refused })
      else none
  | .acquired id channel =>
    (s.calls.get? id).bind fun call =>
      if call.stage = .acquiring then
        some (s.put id { call with
          channel
          stage := if channel.isSome then .encoding else .rejected .getChannel })
      else none
  | .encoded id ok =>
    (s.calls.get? id).bind fun call =>
      if call.stage = .encoding then
        some (s.put id { call with stage := if ok then .publishing else .rejected .encode })
      else none
  | .publishes id wrote =>
    (s.calls.get? id).bind fun call =>
      if call.stage = .publishing then
        call.channel.map fun channel => s.publish id channel call wrote
      else none
  | .emits channel occasion => some (s.emit channel occasion)
  | .resumes id =>
    (s.calls.get? id).bind fun call =>
      if call.stage = .drained then some (s.put id call.proceed) else none

/-- What a step can be, with the code it runs. -/
inductive Steps (s : State) : Event → State → Prop
  | call {id count} (hfresh : id ∉ s.calls) (hsome : count ≠ 0) :
      Steps s (.call id count) (s.put id ⟨count, none, 0, .acquiring⟩)
  | refused {id call} (hc : s.calls.get? id = some call) (hstage : call.stage = .acquiring) :
      Steps s (.refused id) (s.put id { call with stage := .rejected .refused })
  | acquired {id call channel} (hc : s.calls.get? id = some call)
      (hstage : call.stage = .acquiring) :
      Steps s (.acquired id channel) (s.put id { call with
        channel
        stage := if channel.isSome then .encoding else .rejected .getChannel })
  | encoded {id call ok} (hc : s.calls.get? id = some call) (hstage : call.stage = .encoding) :
      Steps s (.encoded id ok)
        (s.put id { call with stage := if ok then .publishing else .rejected .encode })
  | publishes {id call channel wrote} (hc : s.calls.get? id = some call)
      (hstage : call.stage = .publishing) (hchannel : call.channel = some channel) :
      Steps s (.publishes id wrote) (s.publish id channel call wrote)
  | emits {channel occasion} : Steps s (.emits channel occasion) (s.emit channel occasion)
  | resumes {id call} (hc : s.calls.get? id = some call) (hstage : call.stage = .drained) :
      Steps s (.resumes id) (s.put id call.proceed)

theorem step_cases {s s' : State} {event : Event} (hs : step s event = some s') :
    Steps s event s' := by
  cases event with
  | call id count =>
    simp only [step] at hs
    split at hs
    · cases hs
    · next hnot =>
      cases hs
      exact .call (fun hmem => hnot (.inl hmem)) fun hzero => hnot (.inr hzero)
  | refused id =>
    obtain ⟨call, hc, hs⟩ := Option.bind_eq_some_iff.mp hs
    obtain ⟨hstage, ⟨⟩⟩ := Option.ite_none_right_eq_some.mp hs
    exact .refused hc hstage
  | acquired id channel =>
    obtain ⟨call, hc, hs⟩ := Option.bind_eq_some_iff.mp hs
    obtain ⟨hstage, ⟨⟩⟩ := Option.ite_none_right_eq_some.mp hs
    exact .acquired hc hstage
  | encoded id ok =>
    obtain ⟨call, hc, hs⟩ := Option.bind_eq_some_iff.mp hs
    obtain ⟨hstage, ⟨⟩⟩ := Option.ite_none_right_eq_some.mp hs
    exact .encoded hc hstage
  | publishes id wrote =>
    obtain ⟨call, hc, hs⟩ := Option.bind_eq_some_iff.mp hs
    obtain ⟨hstage, hs⟩ := Option.ite_none_right_eq_some.mp hs
    obtain ⟨channel, hchannel, rfl⟩ := Option.map_eq_some_iff.mp hs
    exact .publishes hc hstage hchannel
  | emits channel occasion => cases hs; exact .emits
  | resumes id =>
    obtain ⟨call, hc, hs⟩ := Option.bind_eq_some_iff.mp hs
    obtain ⟨hstage, ⟨⟩⟩ := Option.ite_none_right_eq_some.mp hs
    exact .resumes hc hstage

end FireAndForget
end RabbitMQ

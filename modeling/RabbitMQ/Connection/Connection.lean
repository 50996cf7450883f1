import Mathlib.Algebra.Group.Nat.Defs
import RabbitMQ.Lib.OrderedMap
import RabbitMQ.Lib.Transition

/-! The connection state machine: dialing, the reconnection timer, and the shutdown.

A function here is the code of a method between two awaits. What is suspended is kept in the state:
the dial every caller of `connect` shares, the calls of `#attemptReconnect` that await it, and the
calls of `disconnect` that await the close of a connection. -/

namespace RabbitMQ
namespace Connection

structure Config where
  /-- The number of endpoints; the constructor refuses an empty list. -/
  endpoints : Nat
  reconnectInterval : Nat
  maxReconnectInterval : Nat
  /-- `none` is `Infinity`. -/
  maxReconnectAttempts : Option Nat

inductive ConnectionState where
  | disconnected
  | connecting
  | connected
  | reconnecting
  | disconnecting
  | failed
  deriving DecidableEq

/-- The call of `#doConnect` behind `#connectPromise`. -/
inductive Dial where
  /-- `await amqp.connect(...)`, in this turn of the loop -/
  | dialing (attempt : Nat)
  /-- the dial landed after a shutdown: `await connection.close()` -/
  | closing (connection : Nat)
  /-- it returned, and its callers have not heard yet -/
  | returned (result : Option Nat)
  deriving DecidableEq

/-- A connection `amqp.connect` resolved with. -/
structure Amqp where
  live : Bool
  closeCalled : Bool
  /-- Whether the 'close' listener is attached. -/
  watched : Bool
  deriving DecidableEq

inductive Emitted where
  | connectionStateChanged (state : ConnectionState)
  | connected (endpoint : Nat)
  | disconnected
  | reconnected
  | reconnectFailed
  deriving DecidableEq

structure State where
  connection : Option Nat
  /-- The delay that the armed timer was given. -/
  reconnectTimeout : Option Nat
  reconnectAttempt : Nat
  connectionState : ConnectionState
  currentEndpointIndex : Nat
  isShuttingDown : Bool
  isReconnecting : Bool
  connectPromise : Option Dial
  /-- How many calls of `#attemptReconnect` await `connectPromise`. -/
  attempts : Nat
  /-- What calls of `#attemptReconnect` are about to resume with. -/
  landed : List (Option Nat)
  connections : OrderedMap Nat Amqp
  /-- The calls of `disconnect` that await the close of a connection. -/
  closing : OrderedMap Nat Nat

def start : State :=
  ⟨none, none, 0, .disconnected, 0, false, false, none, 0, [], .empty, .empty⟩

/-- The backoff before the next attempt. -/
def Config.delay (c : Config) (reconnectAttempt : Nat) : Nat :=
  min (c.reconnectInterval * 2 ^ min reconnectAttempt 4) c.maxReconnectInterval

/-- `#reconnectAttempt >= #maxReconnectAttempts`, never with `Infinity`. -/
def Config.exhausted (c : Config) (reconnectAttempt : Nat) : Bool :=
  c.maxReconnectAttempts.any fun max => max ≤ reconnectAttempt

namespace State

def clearReconnectTimeout (s : State) : State := { s with reconnectTimeout := none }

def setConnectionState (s : State) (state : ConnectionState) : State × List Emitted :=
  if s.connectionState = state then (s, [])
  else ({ s with connectionState := state }, [.connectionStateChanged state])

def scheduleReconnect (s : State) (c : Config) : State × List Emitted :=
  let s := s.clearReconnectTimeout
  if c.exhausted s.reconnectAttempt then
    let (s, out) := setConnectionState { s with isReconnecting := false } .failed
    (s, out ++ [.reconnectFailed])
  else ({ s with reconnectTimeout := some (c.delay s.reconnectAttempt) }, [])

def startReconnection (s : State) (c : Config) : State × List Emitted :=
  if s.isShuttingDown then (s, [])
  else if s.isReconnecting then s.scheduleReconnect c
  else
    let (s, out) := setConnectionState { s with isReconnecting := true } .reconnecting
    let (s, out') := s.scheduleReconnect c
    (s, out ++ [.disconnected] ++ out')

/-- `connect`, up to its first await: the callers of one dial share it. -/
def connect (s : State) : State × List Emitted :=
  match s.connectPromise with
  | some _ => (s, [])
  | none =>
    if s.connectionState = .connected ∧ s.connection.isSome then
      ({ s with connectPromise := some (.returned s.connection) }, [])
    else
      -- an explicit connect re-enables what a disconnect had stopped
      let (s, out) := setConnectionState { s with isShuttingDown := false } .connecting
      ({ s with connectPromise := some (.dialing 0) }, out)

/-- `amqp.connect` resolved. -/
def dialSucceeds (s : State) (connection : Nat) : State × List Emitted :=
  if s.isShuttingDown then
    ({ s with
      connections := s.connections.set connection ⟨true, true, false⟩
      connectPromise := some (.closing connection) }, [])
  else
    let (s, out) := setConnectionState { s with
      connections := s.connections.set connection ⟨true, false, true⟩
      connection := some connection
      reconnectTimeout := none
      isReconnecting := false
      reconnectAttempt := 0 } .connected
    ({ s with connectPromise := some (.returned (some connection)) },
      out ++ [.connected s.currentEndpointIndex])

/-- `amqp.connect` rejected, in this turn of the loop over the endpoints. -/
def dialFails (s : State) (c : Config) (attempt : Nat) : State × List Emitted :=
  let s := { s with currentEndpointIndex := (s.currentEndpointIndex + 1) % c.endpoints }
  if attempt + 1 < c.endpoints then
    ({ s with connectPromise := some (.dialing (attempt + 1)) }, [])
  else
    let s := { s with connection := none, connectPromise := some (.returned none) }
    if s.isShuttingDown then s.setConnectionState .disconnected else s.startReconnection c

/-- The connection that landed after a shutdown is closed. -/
def discarded (s : State) (connection : Nat) : State × List Emitted :=
  setConnectionState { s with
    connections := s.connections.set connection ⟨false, true, false⟩
    connectPromise := some (.returned none) } .disconnected

/-- The dial settled: `#connectPromise` is released and its callers resume. -/
def dialSettles (s : State) (result : Option Nat) : State :=
  { s with
    connectPromise := none
    attempts := 0
    landed := s.landed ++ List.replicate s.attempts result }

/-- The timer fires: `#attemptReconnect`, up to its await. -/
def timerFires (s : State) : State × List Emitted :=
  let s := s.clearReconnectTimeout
  if s.connectionState = .connected then (s, [])
  else
    let (s, out) := connect { s with reconnectAttempt := s.reconnectAttempt + 1 }
    ({ s with attempts := s.attempts + 1 }, out)

/-- A call of `#attemptReconnect` resumes with the connection its dial gave. -/
def attemptResumes (s : State) (result : Option Nat) (rest : List (Option Nat)) :
    State × List Emitted :=
  ({ s with landed := rest }, if result.isSome then [.reconnected] else [])

/-- A connection died; its listener, if it still has one, runs. -/
def connectionCloses (s : State) (c : Config) (connection : Nat) (amqp : Amqp) :
    State × List Emitted :=
  let s := { s with connections := s.connections.set connection { amqp with live := false } }
  if amqp.watched ∧ s.isShuttingDown = false then
    startReconnection { s with connection := none } c
  else (s, [])

/-- `disconnect`, up to the close it awaits. -/
def disconnect (s : State) (call : Nat) : State × List Emitted :=
  let s := { s with isShuttingDown := true, isReconnecting := false, reconnectTimeout := none }
  if s.connectionState = .disconnected then (s, [])
  else
    let (s, out) := s.setConnectionState .disconnecting
    match s.connection with
    | some connection =>
      let live := (s.connections.get? connection).any (·.live)
      -- 'error' and 'close' listeners are removed first
      ({ s with
        connections := s.connections.set connection ⟨live, true, false⟩
        closing := s.closing.set call connection }, out)
    | none =>
      let (s, out') := s.setConnectionState .disconnected
      (s, out ++ out')

/-- The close that a call of `disconnect` awaits settled. -/
def disconnectCloses (s : State) (call connection : Nat) : State × List Emitted :=
  setConnectionState { s with
    connections := s.connections.set connection ⟨false, true, false⟩
    closing := s.closing.erase call
    connection := none } .disconnected

/-- A callback is waiting to run before the next event from outside can. -/
def pending (s : State) : Bool :=
  !s.landed.isEmpty || s.connectPromise.any fun
    | .returned _ => true
    | _ => false

end State

inductive Event where
  | connect
  | disconnect (call : Nat)
  /-- `amqp.connect` resolves with a new connection -/
  | dialSucceeds (connection : Nat)
  | dialFails
  /-- a connection that landed after a shutdown is closed -/
  | discarded
  | dialSettles
  | attemptResumes
  | timerFires
  | connectionCloses (connection : Nat)
  | disconnectCloses (call : Nat)
  deriving DecidableEq

/-- Events of the network and of the timer: they wait for pending callbacks. -/
def Event.external : Event → Bool
  | .dialSucceeds _ | .dialFails | .discarded | .timerFires | .connectionCloses _ => true
  | _ => false

def step (c : Config) (s : State) (event : Event) : Option (State × List Emitted) :=
  if event.external ∧ s.pending then none else
  match event with
  | .connect => some s.connect
  | .disconnect call => if call ∈ s.closing then none else some (s.disconnect call)
  | .dialSucceeds connection =>
    match s.connectPromise with
    | some (.dialing _) =>
      if connection ∈ s.connections then none else some (s.dialSucceeds connection)
    | _ => none
  | .dialFails =>
    match s.connectPromise with
    | some (.dialing attempt) => some (s.dialFails c attempt)
    | _ => none
  | .discarded =>
    match s.connectPromise with
    | some (.closing connection) => some (s.discarded connection)
    | _ => none
  | .dialSettles =>
    match s.connectPromise with
    | some (.returned result) => some (s.dialSettles result, [])
    | _ => none
  | .attemptResumes =>
    match s.landed with
    | result :: rest => some (s.attemptResumes result rest)
    | [] => none
  | .timerFires => if s.reconnectTimeout.isSome then some s.timerFires else none
  | .connectionCloses connection =>
    match s.connections.get? connection with
    | some ⟨true, closeCalled, watched⟩ =>
      some (s.connectionCloses c connection ⟨true, closeCalled, watched⟩)
    | _ => none
  | .disconnectCloses call =>
    match s.closing.get? call with
    | some connection => some (s.disconnectCloses call connection)
    | none => none

/-! ## What each method does -/

/-- An event the facade only passes on. -/
def Emitted.calm : Emitted → Prop
  | .connectionStateChanged _ | .connected _ => True
  | .disconnected | .reconnected | .reconnectFailed => False

@[simp] theorem setConnectionState_fst (s : State) (state : ConnectionState) :
    (s.setConnectionState state).1 = { s with connectionState := state } := by
  unfold State.setConnectionState
  split
  · next h => subst h; rfl
  · rfl

theorem setConnectionState_calm (s : State) (state : ConnectionState) :
    ∀ e ∈ (s.setConnectionState state).2, e.calm := by
  unfold State.setConnectionState
  split
  · exact nofun
  · intro e he
    obtain rfl := List.mem_singleton.mp he
    trivial

/-- The connection after `startReconnection`: it gave up, or a timer is armed. -/
def State.retrying (s : State) (c : Config) : State :=
  if c.exhausted s.reconnectAttempt then
    { s with isReconnecting := false, reconnectTimeout := none, connectionState := .failed }
  else
    { s with
      isReconnecting := true
      reconnectTimeout := some (c.delay s.reconnectAttempt)
      connectionState := if s.isReconnecting then s.connectionState else .reconnecting }

theorem startReconnection_fst {s : State} (h : s.isShuttingDown = false) (c : Config) :
    (s.startReconnection c).1 = s.retrying c := by
  cases hexhausted : c.exhausted s.reconnectAttempt <;> cases hr : s.isReconnecting <;>
    simp [State.startReconnection, State.retrying, State.scheduleReconnect,
      State.clearReconnectTimeout, h, hr, hexhausted]

theorem retrying_armed (s : State) (c : Config) :
    (s.retrying c).reconnectTimeout.isSome ∨ (s.retrying c).connectionState = .failed := by
  unfold State.retrying
  split
  · exact .inr rfl
  · exact .inl rfl

theorem retrying_idle (s : State) (c : Config) (h : s.isReconnecting → s.connectionState ≠ .connected) :
    (s.retrying c).connectionState ≠ .connected := by
  unfold State.retrying
  split
  · simp
  · cases hr : s.isReconnecting with
    | false => simp
    | true => simpa [hr] using h hr

theorem retrying_frame (s : State) (c : Config) :
    s.retrying c = { s with
      isReconnecting := (s.retrying c).isReconnecting
      reconnectTimeout := (s.retrying c).reconnectTimeout
      connectionState := (s.retrying c).connectionState } := by
  unfold State.retrying
  split <;> rfl

/-- What a call of `connect` does before it awaits. -/
inductive Connects (s : State) : State → Prop
  | joins (hdial : s.connectPromise.isSome) : Connects s s
  | already {connection} (hidle : s.connectPromise = none) (hstate : s.connectionState = .connected)
      (hconn : s.connection = some connection) :
      Connects s { s with connectPromise := some (.returned s.connection) }
  | dials (hidle : s.connectPromise = none)
      (hlost : s.connectionState = .connected → s.connection = none) :
      Connects s { s with
        isShuttingDown := false
        connectionState := .connecting
        connectPromise := some (.dialing 0) }

theorem connect_cases (s : State) : Connects s s.connect.1 := by
  unfold State.connect
  split
  · next h => exact .joins (by simp [h])
  · next hidle =>
    split
    · next h =>
      obtain ⟨c, hc⟩ := Option.isSome_iff_exists.mp h.2
      exact .already hidle h.1 hc
    · next h =>
      simp only [setConnectionState_fst]
      exact .dials hidle fun hstate => by
        simpa [hstate] using h

theorem connect_calm (s : State) : ∀ e ∈ s.connect.2, e.calm := by
  unfold State.connect
  split
  · exact nofun
  · split
    · exact nofun
    · exact setConnectionState_calm _ _

theorem dialSucceeds_fst {s : State} (h : s.isShuttingDown = false) (connection : Nat) :
    (s.dialSucceeds connection).1 = { s with
      connections := s.connections.set connection ⟨true, false, true⟩
      connection := some connection
      reconnectTimeout := none
      isReconnecting := false
      reconnectAttempt := 0
      connectionState := .connected
      connectPromise := some (.returned (some connection)) } := by
  simp [State.dialSucceeds, h]

theorem dialSucceeds_calm (s : State) (connection : Nat) :
    ∀ e ∈ (s.dialSucceeds connection).2, e.calm := by
  unfold State.dialSucceeds
  split
  · exact nofun
  · intro e he
    rcases List.mem_append.mp he with he | he
    · exact setConnectionState_calm _ _ e he
    · obtain rfl := List.mem_singleton.mp he
      trivial

theorem timerFires_calm (s : State) : ∀ e ∈ s.timerFires.2, e.calm := by
  unfold State.timerFires
  dsimp only
  split
  · exact nofun
  · exact connect_calm _

/-- The timer of a connection that is not up calls `connect`, and awaits the dial. -/
theorem timerFires_cases {s : State} (h : s.connectionState ≠ .connected) :
    ∃ dialed, Connects { s with
        reconnectTimeout := none
        reconnectAttempt := s.reconnectAttempt + 1 } dialed ∧
      s.timerFires.1 = { dialed with attempts := dialed.attempts + 1 } := by
  refine ⟨_, connect_cases _, ?_⟩
  unfold State.timerFires
  dsimp only [State.clearReconnectTimeout]
  rw [if_neg h]

theorem disconnect_calm (s : State) (call : Nat) : ∀ e ∈ (s.disconnect call).2, e.calm := by
  unfold State.disconnect
  dsimp only
  split
  · simp
  · split
    · exact setConnectionState_calm _ _
    · intro e he
      rcases List.mem_append.mp he with he | he <;> exact setConnectionState_calm _ _ e he

/-- What a step can be, with the code it runs. -/
inductive Steps (c : Config) (s : State) : Event → State × List Emitted → Prop
  | connect : Steps c s .connect s.connect
  | disconnect {call} (hfresh : call ∉ s.closing) : Steps c s (.disconnect call) (s.disconnect call)
  | dialSucceeds {connection attempt} (hquiet : s.pending = false)
      (hdial : s.connectPromise = some (.dialing attempt)) (hfresh : connection ∉ s.connections) :
      Steps c s (.dialSucceeds connection) (s.dialSucceeds connection)
  | dialFails {attempt} (hquiet : s.pending = false)
      (hdial : s.connectPromise = some (.dialing attempt)) :
      Steps c s .dialFails (s.dialFails c attempt)
  | discarded {connection} (hquiet : s.pending = false)
      (hdial : s.connectPromise = some (.closing connection)) :
      Steps c s .discarded (s.discarded connection)
  | dialSettles {result} (hdial : s.connectPromise = some (.returned result)) :
      Steps c s .dialSettles (s.dialSettles result, [])
  | attemptResumes {result rest} (hlanded : s.landed = result :: rest) :
      Steps c s .attemptResumes (s.attemptResumes result rest)
  | timerFires (hquiet : s.pending = false) (harmed : s.reconnectTimeout.isSome) :
      Steps c s .timerFires s.timerFires
  | connectionCloses {connection amqp} (hquiet : s.pending = false)
      (hconn : s.connections.get? connection = some amqp) (hlive : amqp.live = true) :
      Steps c s (.connectionCloses connection) (s.connectionCloses c connection amqp)
  | disconnectCloses {call connection} (hcall : s.closing.get? call = some connection) :
      Steps c s (.disconnectCloses call) (s.disconnectCloses call connection)

theorem step_cases {c : Config} {s : State} {event : Event} {r : State × List Emitted}
    (hs : step c s event = some r) : Steps c s event r := by
  unfold step at hs
  split at hs
  · cases hs
  · rename_i hguard
    have hquiet : event.external = true → s.pending = false := fun he => by simpa [he] using hguard
    cases event with
    | connect => cases hs; exact .connect
    | disconnect call =>
      dsimp only at hs
      split at hs
      · cases hs
      · cases hs; exact .disconnect ‹_›
    | dialSucceeds connection =>
      dsimp only at hs
      split at hs
      · split at hs
        · cases hs
        · cases hs; exact .dialSucceeds (hquiet rfl) ‹_› ‹_›
      · cases hs
    | dialFails =>
      dsimp only at hs
      split at hs
      · cases hs; exact .dialFails (hquiet rfl) ‹_›
      · cases hs
    | discarded =>
      dsimp only at hs
      split at hs
      · cases hs; exact .discarded (hquiet rfl) ‹_›
      · cases hs
    | dialSettles =>
      dsimp only at hs
      split at hs
      · cases hs; exact .dialSettles ‹_›
      · cases hs
    | attemptResumes =>
      dsimp only at hs
      split at hs
      · cases hs; exact .attemptResumes ‹_›
      · cases hs
    | timerFires =>
      dsimp only at hs
      split at hs
      · cases hs; exact .timerFires (hquiet rfl) ‹_›
      · cases hs
    | connectionCloses connection =>
      dsimp only at hs
      split at hs
      · cases hs; exact .connectionCloses (hquiet rfl) ‹_› rfl
      · cases hs
    | disconnectCloses call =>
      dsimp only at hs
      split at hs
      · cases hs; exact .disconnectCloses ‹_›
      · cases hs

theorem landed_of_quiet {s : State} (h : s.pending = false) : s.landed = [] := by
  simp only [State.pending, Bool.or_eq_false_iff, Bool.not_eq_false', List.isEmpty_iff] at h
  exact h.1

theorem not_returned_of_quiet {s : State} (h : s.pending = false) (result : Option Nat) :
    s.connectPromise ≠ some (.returned result) := by
  intro hp
  simp [State.pending, hp] at h

end Connection
end RabbitMQ

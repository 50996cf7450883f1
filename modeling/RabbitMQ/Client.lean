import RabbitMQ.Connection.Connection

/-! The facade on top of a connection: the channel pool, the restore that follows a dial, and the
calls of `connect` and `disconnect`.

The connection and the facade only communicate by events; the facade's listeners run inside the
`emit` of the connection. An event from outside (the broker, a timer) is taken when no callback is
pending: promise continuations run before the next macrotask. The application's own calls may come
at any moment. -/

namespace RabbitMQ
namespace Client

open Connection (Emitted)

structure Config extends Connection.Config where
  /-- Whether an exchange is configured: without one `ensureExchange` returns at once. -/
  exchange : Bool

/-- An installed channel pool: the restore that built it and the connection it was built on. -/
structure Pool where
  restore : Nat
  connection : Nat
  deriving DecidableEq

inductive RestoreStage where
  /-- `await channelPool.initialize()` -/
  | opening
  /-- `await this.#topology.ensureExchange()` -/
  | exchange
  /-- `await this.#consumers.recreateAll()` -/
  | recreating
  /-- it failed, and `await installedPool.close()` or `await channelPool.close()` is next -/
  | closing
  | settled (ok : Bool)
  deriving DecidableEq

def RestoreStage.isSettled : RestoreStage → Bool
  | .settled _ => true
  | _ => false

/-- A call of `#doRestoreState`, with the connection it found. -/
structure Restore where
  connection : Option Nat
  stage : RestoreStage
  deriving DecidableEq

structure ConnectOptions where
  waitForConnection : Bool
  timeout : Option Nat
  deriving DecidableEq

/-- `options.timeout > 0` -/
def ConnectOptions.timed (options : ConnectOptions) : Bool := options.timeout.any (0 < ·)

inductive ConnectStage where
  /-- `await this.#connection.connect()` -/
  | dialing
  | dialed (connection : Option Nat)
  /-- `await this.#restoreState()` -/
  | restoring (restore connection : Nat)
  /-- parked until one of the four events, or its own timer -/
  | parked
  deriving DecidableEq

/-- The call of `#doConnect` behind `#connectPromise`: the options of its first caller, and
everyone who shares it. -/
structure ConnectCall where
  options : ConnectOptions
  callers : List Nat
  stage : ConnectStage
  deriving DecidableEq

inductive DisconnectStage where
  /-- `await this.#consumers.disposeAll()` -/
  | disposing
  /-- `await this.#channelPool.close()` -/
  | closingPool
  /-- `await this.#connection.disconnect()`: in the `try` block, or in the `catch` block -/
  | closingConnection (clean : Bool)
  deriving DecidableEq

inductive ConnectError where
  | attemptsFailed
  | aborted
  | timedOut
  | restoreFailed
  deriving DecidableEq

/-- What the application sees. The two that report a recovery carry what `getConnection()` and the
pool field are at that moment. -/
inductive Output where
  | connected
  | disconnecting
  | disconnected
  | reconnectFailed
  | reconnectError
  | reconnected (connection : Option Nat) (pool : Option Pool)
  /-- a parked `connect` resolves -/
  | resumed (callers : List Nat) (connection : Option Nat) (pool : Option Pool)
  | connectResolved (callers : List Nat) (connection : Option Nat)
  | connectRejected (callers : List Nat) (error : ConnectError)
  deriving DecidableEq

structure State where
  connection : Connection.State
  channelPool : Option Pool
  restorePromise : Option Nat
  restores : OrderedMap Nat Restore
  nextRestore : Nat
  /-- The calls of `#handleReconnection`, by the restore they await. -/
  reconnections : List Nat
  connectCall : Option ConnectCall
  disconnects : OrderedMap Nat DisconnectStage
  /-- Everything shown so far, oldest first. -/
  log : List Output

def start : State := ⟨Connection.start, none, none, .empty, 0, [], none, .empty, []⟩

namespace State

def emit (s : State) (o : Output) : State := { s with log := s.log ++ [o] }

def setRestore (s : State) (restore : Nat) (r : Restore) : State :=
  { s with restores := s.restores.set restore r }

/-- The restore settled; it releases the slot if it still owns it. -/
def settleRestore (s : State) (restore : Nat) (connection : Option Nat) (ok : Bool) : State :=
  { s with
    restores := s.restores.set restore ⟨connection, .settled ok⟩
    restorePromise := if s.restorePromise = some restore then none else s.restorePromise }

/-- `#restoreState`: joins the restore in the slot, or starts one. -/
def restoreState (s : State) : State × Nat :=
  match s.restorePromise with
  | some restore => (s, restore)
  | none =>
    let restore := s.nextRestore
    let s := { s with nextRestore := restore + 1 }
    match s.connection.connection with
    -- 'No active connection to RabbitMQ'
    | none => (s.setRestore restore ⟨none, .settled false⟩, restore)
    | some c =>
      ({ s.setRestore restore ⟨some c, .opening⟩ with restorePromise := some restore }, restore)

/-- `#handleReconnection`, up to its await. -/
def handleReconnection (s : State) : State :=
  let (s, restore) := s.restoreState
  { s with reconnections := restore :: s.reconnections }

/-- `#handleDisconnection`. -/
def handleDisconnection (s : State) : State :=
  { s with restorePromise := none, channelPool := none }.emit .disconnected

/-- What a parked `connect` does when one of the events it waits for is emitted. -/
def abortWaiter (s : State) (error : ConnectError) : State :=
  match s.connectCall with
  | some ⟨_, callers, .parked⟩ =>
    { s with connectCall := none }.emit (.connectRejected callers error)
  | _ => s

/-- `this.emit('reconnected')`, with the waiter's `onReconnected`. -/
def emitReconnected (s : State) : State :=
  let s := s.emit (.reconnected s.connection.connection s.channelPool)
  match s.connectCall with
  | some ⟨_, callers, .parked⟩ =>
    { s with connectCall := none }.emit
      (.resumed callers s.connection.connection s.channelPool)
  | _ => s

/-- A listener of the facade on its connection. -/
def react (s : State) : Emitted → State
  | .connected _ => s.emit .connected
  | .disconnected => s.handleDisconnection
  | .reconnected => s.handleReconnection
  | .reconnectFailed => (s.emit .reconnectFailed).abortWaiter .attemptsFailed
  | .connectionStateChanged _ => s

/-- A step of the connection, with what its listeners do. -/
def absorb (s : State) (r : Connection.State × List Emitted) : State :=
  r.2.foldl react { s with connection := r.1 }

/-- `connect`: the callers share one call of `#doConnect`. -/
def connect (s : State) (caller : Nat) (options : ConnectOptions) : State :=
  match s.connectCall with
  | some call => { s with connectCall := some { call with callers := call.callers ++ [caller] } }
  | none =>
    { s with connectCall := some ⟨options, [caller], .dialing⟩ }.absorb s.connection.connect

/-- The dial settled: everyone who awaited it resumes with its result. -/
def dialSettles (s : State) (result : Option Nat) : State :=
  { s with
    connection := s.connection.dialSettles result
    connectCall := s.connectCall.map fun call =>
      match call.stage with
      | .dialing => { call with stage := .dialed result }
      | _ => call }

/-- `#doConnect` after the dial. -/
def connectDialed (s : State) (options : ConnectOptions) (callers : List Nat) :
    Option Nat → State
  | some c =>
    match s.channelPool with
    | some _ => { s with connectCall := none }.emit (.connectResolved callers (some c))
    | none =>
      let (s, restore) := s.restoreState
      { s with connectCall := some ⟨options, callers, .restoring restore c⟩ }
  | none =>
    if options.waitForConnection = false then
      { s with connectCall := none }.emit (.connectResolved callers none)
    else if s.connection.connectionState = .failed then
      { s with connectCall := none }.emit (.connectRejected callers .attemptsFailed)
    else { s with connectCall := some ⟨options, callers, .parked⟩ }

/-- `#doConnect` after the restore. -/
def connectRestored (s : State) (callers : List Nat) (connection : Nat) (ok : Bool) : State :=
  { s with connectCall := none }.emit
    (if ok then .connectResolved callers (some connection)
      else .connectRejected callers .restoreFailed)

/-- `#handleReconnection` after the restore. -/
def reconnectionRestored (s : State) (restore : Nat) (ok : Bool) : State :=
  let s := { s with reconnections := s.reconnections.erase restore }
  if ok then s.emitReconnected else (s.emit .reconnectError).abortWaiter .restoreFailed

/-- `#setupChannelPool` after `initialize`: the connection may have turned over. -/
def poolInitialized (c : Config) (s : State) (restore connection : Nat) : State :=
  if s.connection.connection = some connection then
    let s := { s with channelPool := some ⟨restore, connection⟩ }
    s.setRestore restore ⟨some connection, if c.exchange then .exchange else .recreating⟩
  else s.setRestore restore ⟨some connection, .closing⟩

/-- The `catch` block of `#doRestoreState` after `ensureExchange` rejected: the pool goes if it is
still the one this restore installed. -/
def exchangeFails (s : State) (restore connection : Nat) : State :=
  if s.channelPool = some ⟨restore, connection⟩ then
    { s with channelPool := none }.setRestore restore ⟨some connection, .closing⟩
  else s.settleRestore restore (some connection) false

/-- `disconnect`, up to its first await. -/
def disconnect (s : State) (call : Nat) : State :=
  let s := (s.emit .disconnecting).abortWaiter .aborted
  { s with disconnects := s.disconnects.set call .disposing }

/-- The end of `disconnect`, announced unless it got there through the `catch` block. -/
def disconnected (s : State) (call : Nat) (clean : Bool) : State :=
  let s := { s with disconnects := s.disconnects.erase call }
  if clean then s.emit .disconnected else s

/-- `await this.#connection.disconnect()` in `disconnect`. -/
def disconnectConnection (s : State) (call : Nat) (clean : Bool) : State :=
  let s := s.absorb (s.connection.disconnect call)
  if call ∈ s.connection.closing then
    { s with disconnects := s.disconnects.set call (.closingConnection clean) }
  else s.disconnected call clean

/-- `disconnect` after `disposeAll`: a throw from the cleanups that follow skips the pool. -/
def disposed (s : State) (call : Nat) (throws : Bool) : State :=
  if throws then s.disconnectConnection call false
  else if s.channelPool.isSome then
    { s with disconnects := s.disconnects.set call .closingPool }
  else s.disconnectConnection call true

/-- `disconnect` after `this.#channelPool.close()`. -/
def channelPoolClosed (s : State) (call : Nat) : State :=
  { s with channelPool := none }.disconnectConnection call true

/-- `disconnect` after `this.#connection.disconnect()`. -/
def connectionClosed (s : State) (call connection : Nat) (clean : Bool) : State :=
  (s.absorb (s.connection.disconnectCloses call connection)).disconnected call clean

/-- The restore is over, and a call that awaits it is about to resume. -/
def ended (s : State) (restore : Nat) : Bool :=
  (s.restores.get? restore).any fun r => r.stage.isSettled

/-- No callback is pending. -/
def quiet (s : State) : Bool :=
  !s.connection.pending && !s.reconnections.any s.ended && !s.connectCall.any fun call =>
    match call.stage with
    | .dialed _ => true
    | .restoring restore _ => s.ended restore
    | _ => false

end State

inductive Event where
  | connect (caller : Nat) (options : ConnectOptions)
  | disconnect (call : Nat)
  /-- a step of the connection on its own -/
  | connection (event : Connection.Event)
  | dialSettles
  /-- `connect` resumes after its dial or its restore -/
  | connectResumes
  /-- the timer of a parked `connect` fires -/
  | connectTimesOut
  | poolInitialized (restore : Nat) (ok : Bool)
  | exchangeAsserted (restore : Nat) (ok : Bool)
  | recreated (restore : Nat)
  | poolClosed (restore : Nat)
  | reconnectionResumes (restore : Nat)
  | disposed (call : Nat) (throws : Bool)
  | channelPoolClosed (call : Nat)
  | connectionClosed (call : Nat)
  deriving DecidableEq

/-- Events of the broker and of timers: they wait for pending callbacks. -/
def Event.external : Event → Bool
  | .connection event => event.external
  | .connectTimesOut | .poolInitialized _ _ | .exchangeAsserted _ _ | .recreated _
  | .poolClosed _ => true
  | _ => false

def step (c : Config) (s : State) (event : Event) : Option State :=
  if event.external ∧ s.quiet = false then none else
  match event with
  | .connect caller options => some (s.connect caller options)
  | .disconnect call => if call ∈ s.disconnects then none else some (s.disconnect call)
  | .connection .connect | .connection (.disconnect _) | .connection .dialSettles
  | .connection (.disconnectCloses _) => none
  | .connection event => (Connection.step c.toConfig s.connection event).map s.absorb
  | .dialSettles =>
    match s.connection.connectPromise with
    | some (.returned result) => some (s.dialSettles result)
    | _ => none
  | .connectResumes =>
    match s.connectCall with
    | some ⟨options, callers, .dialed result⟩ => some (s.connectDialed options callers result)
    | some ⟨_, callers, .restoring restore connection⟩ =>
      match s.restores.get? restore with
      | some ⟨_, .settled ok⟩ => some (s.connectRestored callers connection ok)
      | _ => none
    | _ => none
  | .connectTimesOut =>
    match s.connectCall with
    | some ⟨options, _, .parked⟩ => if options.timed then some (s.abortWaiter .timedOut) else none
    | _ => none
  | .poolInitialized restore ok =>
    match s.restores.get? restore with
    | some ⟨some connection, .opening⟩ =>
      some (if ok then s.poolInitialized c restore connection
        else s.settleRestore restore (some connection) false)
    | _ => none
  | .exchangeAsserted restore ok =>
    match s.restores.get? restore with
    | some ⟨some connection, .exchange⟩ =>
      if ok then
        -- an assertion on a channel of a dead connection does not succeed
        if (s.connection.connections.get? connection).any (·.live) then
          some (s.setRestore restore ⟨some connection, .recreating⟩)
        else none
      else some (s.exchangeFails restore connection)
    | _ => none
  | .recreated restore =>
    match s.restores.get? restore with
    | some ⟨connection, .recreating⟩ => some (s.settleRestore restore connection true)
    | _ => none
  | .poolClosed restore =>
    match s.restores.get? restore with
    | some ⟨connection, .closing⟩ => some (s.settleRestore restore connection false)
    | _ => none
  | .reconnectionResumes restore =>
    match s.restores.get? restore with
    | some ⟨_, .settled ok⟩ =>
      if restore ∈ s.reconnections then some (s.reconnectionRestored restore ok) else none
    | _ => none
  | .disposed call throws =>
    match s.disconnects.get? call with
    | some .disposing => some (s.disposed call throws)
    | _ => none
  | .channelPoolClosed call =>
    match s.disconnects.get? call with
    | some .closingPool => some (s.channelPoolClosed call)
    | _ => none
  | .connectionClosed call =>
    match s.disconnects.get? call, s.connection.closing.get? call with
    | some (.closingConnection clean), some connection =>
      some (s.connectionClosed call connection clean)
    | _, _ => none

/-- A dial was started and not everyone who awaits it has its result. -/
def State.Dialing (s : State) : Prop :=
  s.connection.connectPromise.isSome ∨ s.connection.landed ≠ [] ∨
    ∃ call result, s.connectCall = some call ∧ call.stage = .dialed result

/-- The dial every caller shares came to nothing, or may. -/
def unlanded : Option Connection.Dial → Bool
  | some (.returned (some _)) => false
  | _ => true

/-! ## Quiet states -/

theorem dialed_of_quiet {s : State} (h : s.quiet) {call : ConnectCall} (hcall : s.connectCall = some call)
    (result : Option Nat) : call.stage ≠ .dialed result := by
  intro hst
  simp [State.quiet, hcall, hst] at h

theorem pending_of_quiet {s : State} (h : s.quiet) : s.connection.pending = false := by
  simp only [State.quiet, Bool.and_eq_true, Bool.not_eq_true'] at h
  exact h.1.1

theorem not_ended_of_quiet {s : State} (hquiet : s.quiet) {restore : Nat}
    (hmem : restore ∈ s.reconnections) {conn : Option Nat} {ok : Bool} :
    s.restores.get? restore ≠ some ⟨conn, .settled ok⟩ := by
  intro hr
  simp only [State.quiet, Bool.and_eq_true, Bool.not_eq_true', List.any_eq_false] at hquiet
  exact hquiet.1.2 restore hmem (by simp [State.ended, hr, RestoreStage.isSettled])

/-! ## What the listeners do -/

theorem restoreState_frame (s : State) : ∃ restores nextRestore restorePromise,
    s.restoreState.1 = { s with restores, nextRestore, restorePromise } := by
  unfold State.restoreState
  split
  · exact ⟨_, _, _, rfl⟩
  · dsimp only
    split <;> exact ⟨_, _, _, rfl⟩

theorem handleReconnection_frame (s : State) :
    ∃ restores nextRestore restorePromise reconnections, s.handleReconnection =
      { s with restores, nextRestore, restorePromise, reconnections } := by
  obtain ⟨restores, nextRestore, restorePromise, heq⟩ := restoreState_frame s
  unfold State.handleReconnection
  generalize s.restoreState = r at heq ⊢
  obtain ⟨s₁, restore⟩ := r
  dsimp only at heq ⊢
  subst heq
  exact ⟨_, _, _, _, rfl⟩

/-- A step of the connection that only reports its state. -/
theorem absorb_calm (s : State) {r : Connection.State × List Emitted} (h : ∀ e ∈ r.2, e.calm) :
    ∃ shown, s.absorb r = { s with connection := r.1, log := s.log ++ shown } ∧
      ∀ o ∈ shown, o = .connected := by
  obtain ⟨conn, out⟩ := r
  unfold State.absorb
  dsimp only at h ⊢
  generalize hs₁ : ({ s with connection := conn } : State) = s₁
  have hfold : ∃ shown, out.foldl State.react s₁ = { s₁ with log := s₁.log ++ shown } ∧
      ∀ o ∈ shown, o = .connected := by
    clear hs₁
    induction out generalizing s₁ with
    | nil => exact ⟨[], by simp, nofun⟩
    | cons e out ih =>
      obtain ⟨shown, heq, hshown⟩ := ih (fun e he => h e (List.mem_cons_of_mem _ he)) (s₁.react e)
      have he := h e List.mem_cons_self
      rw [List.foldl_cons, heq]
      cases e with
      | connectionStateChanged state => exact ⟨shown, rfl, hshown⟩
      | connected endpoint =>
        refine ⟨.connected :: shown, ?_, fun o ho => ?_⟩
        · simp [State.react, State.emit]
        · rcases List.mem_cons.mp ho with rfl | ho
          · rfl
          · exact hshown o ho
      | disconnected => cases he
      | reconnected => cases he
      | reconnectFailed => cases he
  obtain ⟨shown, heq, hshown⟩ := hfold
  subst hs₁
  exact ⟨shown, heq, hshown⟩

/-- What the facade makes of a connection that starts its reconnection. -/
def State.losing (s : State) (c : Connection.Config) (conn : Connection.State) : State :=
  let lost := if conn.isReconnecting then s else s.handleDisconnection
  let s := { lost with connection := conn.retrying c }
  if c.exhausted conn.reconnectAttempt then
    (s.emit .reconnectFailed).abortWaiter .attemptsFailed
  else s

theorem absorb_startReconnection (s : State) (c : Connection.Config) {conn : Connection.State}
    (h : conn.isShuttingDown = false) :
    s.absorb (conn.startReconnection c) = s.losing c conn := by
  have hquiet : ∀ (s : State) (conn : Connection.State) (state : Connection.ConnectionState),
      (conn.setConnectionState state).2.foldl State.react s = s := fun s conn state => by
    unfold Connection.State.setConnectionState
    split <;> rfl
  cases hexhausted : c.exhausted conn.reconnectAttempt <;> cases hr : conn.isReconnecting <;>
    simp [State.absorb, Connection.State.startReconnection, Connection.State.scheduleReconnect,
      Connection.State.clearReconnectTimeout, State.losing, Connection.State.retrying, h, hr,
      hexhausted, hquiet, State.react, State.handleDisconnection, State.emit]

/-- Only a parked call of `connect` is aborted. -/
theorem abortWaiter_cases (s : State) (error : ConnectError) :
    ((∀ call, s.connectCall = some call → call.stage ≠ .parked) ∧ s.abortWaiter error = s) ∨
      ∃ options callers, s.connectCall = some ⟨options, callers, .parked⟩ ∧
        s.abortWaiter error = { s with
          connectCall := none
          log := s.log ++ [.connectRejected callers error] } := by
  unfold State.abortWaiter
  split
  · next options callers h => exact .inr ⟨options, callers, h, rfl⟩
  · next h =>
    refine .inl ⟨fun call hcall hstage => ?_, rfl⟩
    obtain ⟨options, callers, stage⟩ := call
    cases hstage
    exact h options callers hcall

/-- A connection that is gone takes the pool and the restore in the slot along. -/
theorem losing_eq {s : State} {conn : Connection.State} (c : Connection.Config)
    (hr : conn.isReconnecting → s.restorePromise = none ∧ s.channelPool = none) :
    ∃ call shown, s.losing c conn = { s with
        connection := conn.retrying c
        channelPool := none
        restorePromise := none
        connectCall := call
        log := s.log ++ shown } ∧
      ((∀ call', s.connectCall = some call' → call'.stage ≠ .parked) → call = s.connectCall) ∧
      (call = none ∨ call = s.connectCall) ∧
      (call.any (fun call => call.stage = .parked) → (conn.retrying c).reconnectTimeout.isSome) ∧
      ∀ o ∈ shown, o = .disconnected ∨ o = .reconnectFailed ∨
        ∃ callers, o = .connectRejected callers .attemptsFailed := by
  have hlost : ∃ shown, { (if conn.isReconnecting then s else s.handleDisconnection) with
      connection := conn.retrying c } = { s with
        connection := conn.retrying c
        channelPool := none
        restorePromise := none
        log := s.log ++ shown } ∧ ∀ o ∈ shown, o = .disconnected := by
    cases hre : conn.isReconnecting with
    | false => exact ⟨[.disconnected], rfl, by simp⟩
    | true =>
      obtain ⟨h₁, h₂⟩ := hr hre
      exact ⟨[], by simp [← h₁, ← h₂], nofun⟩
  obtain ⟨shown, heq, hshown⟩ := hlost
  unfold State.losing
  dsimp only
  rw [heq]
  split
  · next hexhausted =>
    generalize hs₁ : State.emit _ Output.reconnectFailed = s₁
    rcases abortWaiter_cases s₁ .attemptsFailed with ⟨hnot, h⟩ | ⟨options, callers, hcall, h⟩
    · rw [h]
      subst hs₁
      refine ⟨s.connectCall, shown ++ [.reconnectFailed], ?_, fun _ => rfl, .inr rfl, fun hp => ?_,
        fun o ho => ?_⟩
      · simp [State.emit]
      · obtain ⟨call, hcall, hp⟩ := (Option.any_eq_true _ _).mp hp
        exact absurd (of_decide_eq_true hp) (hnot call hcall)
      · rcases List.mem_append.mp ho with ho | ho
        · exact .inl (hshown o ho)
        · exact .inr (.inl (List.mem_singleton.mp ho))
    · rw [h]
      subst hs₁
      refine ⟨none, shown ++ [.reconnectFailed, .connectRejected callers .attemptsFailed], ?_,
        fun hnot => absurd rfl (hnot _ hcall), .inl rfl, nofun, fun o ho => ?_⟩
      · simp [State.emit]
      · simp only [List.mem_append, List.mem_cons, List.not_mem_nil, or_false] at ho
        rcases ho with ho | rfl | rfl
        · exact .inl (hshown o ho)
        · exact .inr (.inl rfl)
        · exact .inr (.inr ⟨callers, rfl⟩)
  · next hexhausted =>
    refine ⟨s.connectCall, shown, rfl, fun _ => rfl, .inr rfl, fun _ => ?_, fun o ho =>
      .inl (hshown o ho)⟩
    simp [Connection.State.retrying, hexhausted]

/-- A connection that is lost arms the timer, or the parked call hears that it gave up. -/
theorem losing_waiter (s : State) (c : Connection.Config) (conn : Connection.State) :
    (s.losing c conn).connection = conn.retrying c ∧
      (s.losing c conn).reconnections = s.reconnections ∧
      (s.losing c conn).restores = s.restores ∧
      (∀ restore, (s.losing c conn).restorePromise = some restore →
        s.restorePromise = some restore) ∧
      ((s.losing c conn).connectCall = s.connectCall ∧
          ((∃ call, s.connectCall = some call ∧ call.stage = .parked) →
            (conn.retrying c).reconnectTimeout.isSome) ∨
        (s.losing c conn).connectCall = none ∧
          ∃ call, s.connectCall = some call ∧ call.stage = .parked) ∧
      ∃ shown, (s.losing c conn).log = s.log ++ shown ∧ ∀ o ∈ shown, o = .disconnected ∨
        o = .reconnectFailed ∨ ∃ callers, o = .connectRejected callers .attemptsFailed := by
  have hslot : ∀ restore, (if conn.isReconnecting then s else s.handleDisconnection).restorePromise =
      some restore → s.restorePromise = some restore := fun restore hr => by
    split at hr
    · exact hr
    · cases hr
  have hcall : (if conn.isReconnecting then s else s.handleDisconnection).connectCall =
      s.connectCall := by
    split <;> rfl
  have hlog : ∃ shown, (if conn.isReconnecting then s else s.handleDisconnection).log =
      s.log ++ shown ∧ ∀ o ∈ shown, o = .disconnected := by
    split
    · exact ⟨[], (List.append_nil _).symm, nofun⟩
    · exact ⟨[.disconnected], rfl, fun o ho => List.mem_singleton.mp ho⟩
  obtain ⟨shown, hlog, hshown⟩ := hlog
  unfold State.losing
  dsimp only
  split
  · generalize hs₁ : State.emit _ Output.reconnectFailed = s₁
    have hconnection : s₁.connection = conn.retrying c := hs₁ ▸ rfl
    have hre : s₁.reconnections = s.reconnections := by
      subst hs₁
      dsimp only [State.emit]
      split <;> rfl
    have hrestores : s₁.restores = s.restores := by
      subst hs₁
      dsimp only [State.emit]
      split <;> rfl
    have hcall₁ : s₁.connectCall = s.connectCall := hs₁ ▸ hcall
    have hlog₁ : s₁.log = s.log ++ (shown ++ [.reconnectFailed]) := by
      subst hs₁
      simp only [State.emit, hlog, List.append_assoc]
    have hslot₁ : ∀ restore, s₁.restorePromise = some restore →
        s.restorePromise = some restore := hs₁ ▸ hslot
    rcases abortWaiter_cases s₁ .attemptsFailed with ⟨hnot, heq⟩ | ⟨_, callers, hparked, heq⟩
    · rw [heq]
      refine ⟨hconnection, hre, hrestores, hslot₁, .inl ⟨hcall₁, fun ⟨call, hc, hst⟩ => ?_⟩, _,
        hlog₁, fun o ho => ?_⟩
      · exact absurd hst (hnot call (hcall₁.trans hc))
      · rcases List.mem_append.mp ho with ho | ho
        · exact .inl (hshown o ho)
        · exact .inr (.inl (List.mem_singleton.mp ho))
    · rw [heq]
      refine ⟨hconnection, hre, hrestores, hslot₁, .inr ⟨rfl, _, hcall₁.symm.trans hparked, rfl⟩,
        shown ++ [.reconnectFailed, .connectRejected callers .attemptsFailed], ?_, fun o ho => ?_⟩
      · simp only [hlog₁, List.append_assoc, List.cons_append, List.nil_append]
      · simp only [List.mem_append, List.mem_cons, List.not_mem_nil, or_false] at ho
        rcases ho with ho | rfl | rfl
        · exact .inl (hshown o ho)
        · exact .inr (.inl rfl)
        · exact .inr (.inr ⟨_, rfl⟩)
  · next hmore =>
    refine ⟨rfl, ?_, ?_, hslot, .inl ⟨hcall, fun _ => ?_⟩, shown, hlog, fun o ho =>
      .inl (hshown o ho)⟩
    · dsimp only
      split <;> rfl
    · dsimp only
      split <;> rfl
    · simp [Connection.State.retrying, hmore]

/-- What a step can be, with the code it runs. -/
inductive Steps (c : Config) (s : State) : Event → State → Prop
  | connect {caller options} : Steps c s (.connect caller options) (s.connect caller options)
  | disconnect {call} (hfresh : call ∉ s.disconnects) : Steps c s (.disconnect call) (s.disconnect call)
  | connection {event r} (hquiet : event.external → s.quiet)
      (hown : event ≠ .connect ∧ (∀ call, event ≠ .disconnect call) ∧ event ≠ .dialSettles ∧
        ∀ call, event ≠ .disconnectCloses call)
      (hs : Connection.Steps c.toConfig s.connection event r) :
      Steps c s (.connection event) (s.absorb r)
  | dialSettles {result} (hdial : s.connection.connectPromise = some (.returned result)) :
      Steps c s .dialSettles (s.dialSettles result)
  | connectDialed {options callers result}
      (hcall : s.connectCall = some ⟨options, callers, .dialed result⟩) :
      Steps c s .connectResumes (s.connectDialed options callers result)
  | connectRestored {options callers restore connection conn ok}
      (hcall : s.connectCall = some ⟨options, callers, .restoring restore connection⟩)
      (hr : s.restores.get? restore = some ⟨conn, .settled ok⟩) :
      Steps c s .connectResumes (s.connectRestored callers connection ok)
  | connectTimesOut {options callers} (hquiet : s.quiet)
      (hcall : s.connectCall = some ⟨options, callers, .parked⟩) (htimed : options.timed) :
      Steps c s .connectTimesOut (s.abortWaiter .timedOut)
  | poolInitialized {restore connection} (hquiet : s.quiet)
      (hr : s.restores.get? restore = some ⟨some connection, .opening⟩) :
      Steps c s (.poolInitialized restore true) (s.poolInitialized c restore connection)
  | poolFails {restore connection} (hquiet : s.quiet)
      (hr : s.restores.get? restore = some ⟨some connection, .opening⟩) :
      Steps c s (.poolInitialized restore false) (s.settleRestore restore (some connection) false)
  | exchangeAsserted {restore connection} (hquiet : s.quiet)
      (hr : s.restores.get? restore = some ⟨some connection, .exchange⟩)
      (hlive : (s.connection.connections.get? connection).any (·.live)) :
      Steps c s (.exchangeAsserted restore true)
        (s.setRestore restore ⟨some connection, .recreating⟩)
  | exchangeFails {restore connection} (hquiet : s.quiet)
      (hr : s.restores.get? restore = some ⟨some connection, .exchange⟩) :
      Steps c s (.exchangeAsserted restore false) (s.exchangeFails restore connection)
  | recreated {restore connection} (hquiet : s.quiet)
      (hr : s.restores.get? restore = some ⟨connection, .recreating⟩) :
      Steps c s (.recreated restore) (s.settleRestore restore connection true)
  | poolClosed {restore connection} (hquiet : s.quiet)
      (hr : s.restores.get? restore = some ⟨connection, .closing⟩) :
      Steps c s (.poolClosed restore) (s.settleRestore restore connection false)
  | reconnectionResumes {restore connection ok}
      (hr : s.restores.get? restore = some ⟨connection, .settled ok⟩)
      (hmem : restore ∈ s.reconnections) :
      Steps c s (.reconnectionResumes restore) (s.reconnectionRestored restore ok)
  | disposed {call throws} (hcall : s.disconnects.get? call = some .disposing) :
      Steps c s (.disposed call throws) (s.disposed call throws)
  | channelPoolClosed {call} (hcall : s.disconnects.get? call = some .closingPool) :
      Steps c s (.channelPoolClosed call) (s.channelPoolClosed call)
  | connectionClosed {call clean connection}
      (hcall : s.disconnects.get? call = some (.closingConnection clean))
      (hclosing : s.connection.closing.get? call = some connection) :
      Steps c s (.connectionClosed call) (s.connectionClosed call connection clean)

theorem step_cases {c : Config} {s s' : State} {event : Event} (hs : step c s event = some s') :
    Steps c s event s' := by
  unfold step at hs
  split at hs
  · cases hs
  · rename_i hguard
    have hquiet : event.external = true → s.quiet = true := fun he => by
      simpa [he] using hguard
    clear hguard
    split at hs
    · cases hs; exact .connect
    · split at hs
      · cases hs
      · cases hs; exact .disconnect ‹_›
    · cases hs
    · cases hs
    · cases hs
    · cases hs
    · rename_i event h₁ h₂ h₃ h₄
      obtain ⟨r, hr, rfl⟩ := Option.map_eq_some_iff.mp hs
      exact .connection hquiet ⟨h₁, h₂, h₃, h₄⟩ (Connection.step_cases hr)
    · split at hs
      · cases hs; exact .dialSettles ‹_›
      · cases hs
    · split at hs
      · cases hs; exact .connectDialed ‹_›
      · split at hs
        · cases hs; exact .connectRestored ‹_› ‹_›
        · cases hs
      · cases hs
    · split at hs
      · split at hs
        · cases hs; exact .connectTimesOut (hquiet rfl) ‹_› ‹_›
        · cases hs
      · cases hs
    · rename_i restore ok
      split at hs
      · cases ok
        · cases hs; exact .poolFails (hquiet rfl) ‹_›
        · cases hs; exact .poolInitialized (hquiet rfl) ‹_›
      · cases hs
    · rename_i restore ok
      split at hs
      · cases ok
        · cases hs; exact .exchangeFails (hquiet rfl) ‹_›
        · simp only [if_true] at hs
          split at hs
          · cases hs; exact .exchangeAsserted (hquiet rfl) ‹_› ‹_›
          · cases hs
      · cases hs
    · split at hs
      · cases hs; exact .recreated (hquiet rfl) ‹_›
      · cases hs
    · split at hs
      · cases hs; exact .poolClosed (hquiet rfl) ‹_›
      · cases hs
    · split at hs
      · split at hs
        · cases hs; exact .reconnectionResumes ‹_› ‹_›
        · cases hs
      · cases hs
    · split at hs
      · cases hs; exact .disposed ‹_›
      · cases hs
    · split at hs
      · cases hs; exact .channelPoolClosed ‹_›
      · cases hs
    · split at hs
      · cases hs; exact .connectionClosed ‹_› ‹_›
      · cases hs

end Client
end RabbitMQ

import RabbitMQ.Client.Waiters

/-! Each call of `connect` and the options it was made with.

The callers of `connect` share one call, and that call has the options of whoever came first. What
the others asked for is kept here beside the facade, with a clock: no time passes beyond the moment
at which the timer of a parked call is due. -/

namespace RabbitMQ
namespace Client

open Transition

variable {c : Config} {s s' : State}

/-- Who is told that there is no connection. -/
def Output.nullTo : Output → List Nat
  | .connectResolved callers none => callers
  | .resumed callers none _ => callers
  | _ => []

/-- What a step adds to the log. -/
def Says (s s' : State) (P : Output → Prop) : Prop :=
  ∃ shown, s'.log = s.log ++ shown ∧ ∀ o ∈ shown, P o

/-- A restore is reported as a recovery after the connection is gone. -/
def Hollow (s : State) : Event → Prop
  | .reconnectionResumes restore => s.connection.connection = none ∧
      (s.restores.get? restore).any fun r => r.stage = .settled true
  | _ => False

instance (s : State) (event : Event) : Decidable (Hollow s event) := by
  unfold Hollow
  split <;> infer_instance

/-- The dial may land, and its promise stays. -/
def Awaits (dial dial' : Option Connection.Dial) : Prop :=
  (unlanded dial' → unlanded dial) ∧ (dial.isSome → dial'.isSome)

theorem awaits_of_eq {dial dial' : Option Connection.Dial} (h : dial' = dial) :
    Awaits dial dial' :=
  h ▸ ⟨id, id⟩

theorem connects_isSome {conn conn' : Connection.State} (H : Connection.Connects conn conn') :
    conn'.connectPromise.isSome := by
  cases H with
  | joins hdial => exact hdial
  | already hidle hstate hconn => rfl
  | dials hidle hlost => rfl

theorem dialSucceeds_isSome (conn : Connection.State) (connection : Nat) :
    (conn.dialSucceeds connection).1.connectPromise.isSome := by
  unfold Connection.State.dialSucceeds
  split <;> rfl

theorem setConnectionState_promise (conn : Connection.State) (state : Connection.ConnectionState) :
    (conn.setConnectionState state).1.connectPromise = conn.connectPromise := by
  rw [Connection.setConnectionState_fst]

/-- What a step does to the call behind `#connectPromise`. -/
inductive CallStep (s : State) : Event → State → Prop
  | keeps {event s'} (hcall : s'.connectCall = s.connectCall)
      (hland : Awaits s.connection.connectPromise s'.connection.connectPromise)
      (hlog : Says s s' fun o => o.nullTo = []) : CallStep s event s'
  | opens {caller options s'} (hnone : s.connectCall = none)
      (hcall : s'.connectCall = some ⟨options, [caller], .dialing⟩)
      (hdial : s'.connection.connectPromise.isSome)
      (hlog : Says s s' fun o => o.nullTo = []) : CallStep s (.connect caller options) s'
  | joins {caller options call s'} (hcall : s.connectCall = some call)
      (hjoin : s' = { s with
        connectCall := some { call with callers := call.callers ++ [caller] } }) :
      CallStep s (.connect caller options) s'
  | dialed {result} (hdial : s.connection.connectPromise = some (.returned result)) :
      CallStep s .dialSettles (s.dialSettles result)
  | restores {event options callers connection restore s'}
      (hcall : s.connectCall = some ⟨options, callers, .dialed (some connection)⟩)
      (hnew : s'.connectCall = some ⟨options, callers, .restoring restore connection⟩)
      (hlog : Says s s' fun o => o.nullTo = []) : CallStep s event s'
  | parks {event options callers s'} (hcall : s.connectCall = some ⟨options, callers, .dialed none⟩)
      (hwait : options.waitForConnection = true)
      (hnew : s'.connectCall = some ⟨options, callers, .parked⟩)
      (hlog : Says s s' fun o => o.nullTo = []) : CallStep s event s'
  | answered {event call s'} (hcall : s.connectCall = some call) (hnone : s'.connectCall = none)
      (hlog : Says s s' fun o => o.nullTo = [] ∨ o.nullTo = call.callers ∧
        (call.stage = .dialed none ∧ call.options.waitForConnection = false ∨
          call.stage = .parked ∧ Hollow s event)) : CallStep s event s'

theorem says_nothing {P : Output → Prop} (h : s'.log = s.log) : Says s s' P :=
  ⟨[], h.trans (List.append_nil _).symm, nofun⟩

theorem says_one {P : Output → Prop} {o : Output} (h : s'.log = s.log ++ [o]) (ho : P o) :
    Says s s' P :=
  ⟨[o], h, fun _ ho' => List.mem_singleton.mp ho' ▸ ho⟩

/-- A step of the connection that its listeners only pass on. -/
theorem callStep_calm {event : Event} {r : Connection.State × List Connection.Emitted}
    (hcalm : ∀ e ∈ r.2, e.calm)
    (hland : Awaits s.connection.connectPromise r.1.connectPromise) :
    CallStep s event (s.absorb r) := by
  obtain ⟨shown, heq, hshown⟩ := absorb_calm s hcalm
  rw [heq]
  refine .keeps rfl hland ⟨shown, rfl, fun o ho => ?_⟩
  rw [hshown o ho]
  rfl

theorem callStep_abortWaiter (event : Event) (error : ConnectError) :
    CallStep s event (s.abortWaiter error) := by
  rcases abortWaiter_cases s error with ⟨-, heq⟩ | ⟨options, callers, hcall, heq⟩
  · rw [heq]
    exact .keeps rfl (awaits_of_eq rfl) (says_nothing rfl)
  · rw [heq]
    exact .answered hcall rfl (says_one rfl (.inl rfl))

theorem callStep_losing (event : Event) (c : Connection.Config) (conn : Connection.State)
    (hland : Awaits s.connection.connectPromise conn.connectPromise) :
    CallStep s event (s.losing c conn) := by
  obtain ⟨hconn, -, -, -, hcall, shown, hlog, hshown⟩ := losing_waiter s c conn
  have hquiet : ∀ o ∈ shown, o.nullTo = [] := fun o ho => by
    rcases hshown o ho with rfl | rfl | ⟨_, rfl⟩ <;> rfl
  rcases hcall with ⟨hsame, -⟩ | ⟨hnone, call, hcall, hparked⟩
  · refine .keeps hsame ?_ ⟨shown, hlog, hquiet⟩
    rw [hconn, Connection.retrying_frame]
    exact hland
  · exact .answered hcall hnone ⟨shown, hlog, fun o ho => .inl (hquiet o ho)⟩

/-- Only the end of the dial takes back what it returned. -/
theorem callStep_connection {event : Connection.Event}
    {r : Connection.State × List Connection.Emitted}
    (hown : event ≠ .connect ∧ (∀ call, event ≠ .disconnect call) ∧ event ≠ .dialSettles ∧
      ∀ call, event ≠ .disconnectCloses call)
    (H : Connection.Steps c.toConfig s.connection event r) :
    CallStep s (.connection event) (s.absorb r) := by
  have hreturned : ∀ {dial'}, s.connection.pending = false → dial'.isSome →
      Awaits s.connection.connectPromise dial' := fun hquiet hsome => by
    refine ⟨fun _ => ?_, fun _ => hsome⟩
    cases hp : s.connection.connectPromise with
    | none => rfl
    | some dial =>
      cases dial with
      | returned result => exact absurd hp (Connection.not_returned_of_quiet hquiet result)
      | _ => rfl
  cases H with
  | connect => exact absurd rfl hown.1
  | disconnect => exact absurd rfl (hown.2.1 _)
  | dialSettles => exact absurd rfl hown.2.2.1
  | disconnectCloses => exact absurd rfl (hown.2.2.2 _)
  | @dialSucceeds connection attempt hquiet hdial =>
    exact callStep_calm (Connection.dialSucceeds_calm _ _)
      (hreturned hquiet (dialSucceeds_isSome _ _))
  | @dialFails attempt hquiet hdial =>
    unfold Connection.State.dialFails
    dsimp only
    split
    · exact callStep_calm nofun (hreturned hquiet rfl)
    · split
      · refine callStep_calm (Connection.setConnectionState_calm _ _) (hreturned hquiet ?_)
        rw [setConnectionState_promise]
        rfl
      · next hdown =>
        rw [absorb_startReconnection _ _ (by simpa using hdown)]
        exact callStep_losing _ _ _ (hreturned hquiet rfl)
  | discarded hquiet hdial =>
    refine callStep_calm (Connection.setConnectionState_calm _ _) (hreturned hquiet ?_)
    unfold Connection.State.discarded
    rw [setConnectionState_promise]
    rfl
  | @attemptResumes result rest hlanded =>
    cases result with
    | none => exact callStep_calm nofun (awaits_of_eq rfl)
    | some x =>
      obtain ⟨restores, nextRestore, restorePromise, reconnections, heq⟩ := handleReconnection_frame
        { s with connection := { s.connection with landed := rest } }
      have hs' : s.absorb (s.connection.attemptResumes (some x) rest) =
        State.handleReconnection { s with connection := { s.connection with landed := rest } } := rfl
      rw [hs', heq]
      exact .keeps rfl (awaits_of_eq rfl) (says_nothing rfl)
  | timerFires hquiet harmed =>
    refine callStep_calm (Connection.timerFires_calm _) ?_
    by_cases hstate : s.connection.connectionState = .connected
    · refine awaits_of_eq ?_
      unfold Connection.State.timerFires
      dsimp only [Connection.State.clearReconnectTimeout]
      rw [if_pos hstate]
    · obtain ⟨dialed, H, heq⟩ := Connection.timerFires_cases hstate
      have hsome := connects_isSome H
      rw [heq]
      exact hreturned hquiet hsome
  | @connectionCloses connection amqp hquiet hconn hlive =>
    unfold Connection.State.connectionCloses
    dsimp only
    split
    · next hw =>
      rw [absorb_startReconnection _ _ (by exact hw.2)]
      exact callStep_losing _ _ _ (awaits_of_eq rfl)
    · exact callStep_calm nofun (awaits_of_eq rfl)

theorem callStep_connectDialed {event : Event} {options : ConnectOptions} {callers : List Nat}
    {result : Option Nat} (hcall : s.connectCall = some ⟨options, callers, .dialed result⟩) :
    CallStep s event (s.connectDialed options callers result) := by
  cases result with
  | some connection =>
    unfold State.connectDialed
    dsimp only
    split
    · exact .answered hcall rfl (says_one rfl (.inl rfl))
    · obtain ⟨restores, nextRestore, restorePromise, heq⟩ := restoreState_frame s
      generalize s.restoreState = r at heq ⊢
      obtain ⟨s₁, restore⟩ := r
      dsimp only at heq ⊢
      subst heq
      exact .restores hcall rfl (says_nothing rfl)
  | none =>
    unfold State.connectDialed
    dsimp only
    split
    · next hwait =>
      exact .answered hcall rfl (says_one rfl (.inr ⟨rfl, .inl ⟨rfl, hwait⟩⟩))
    · next hwait =>
      split
      · exact .answered hcall rfl (says_one rfl (.inl rfl))
      · exact .parks hcall (by simpa using hwait) rfl (says_nothing rfl)

theorem callStep_reconnectionRestored {restore : Nat} {connection : Option Nat} {ok : Bool}
    (hr : s.restores.get? restore = some ⟨connection, .settled ok⟩) :
    CallStep s (.reconnectionResumes restore) (s.reconnectionRestored restore ok) := by
  unfold State.reconnectionRestored
  cases ok with
  | false =>
    dsimp only
    rw [if_neg Bool.false_ne_true]
    generalize hs₁ : State.emit { s with reconnections := s.reconnections.erase restore }
      .reconnectError = s₁
    have hlog : s₁.log = s.log ++ [.reconnectError] := hs₁ ▸ rfl
    rcases abortWaiter_cases s₁ .restoreFailed with ⟨-, heq⟩ | ⟨options, callers, hcall, heq⟩
    · rw [heq]
      subst hs₁
      exact .keeps rfl (awaits_of_eq rfl) (says_one rfl rfl)
    · rw [heq]
      subst hs₁
      refine .answered hcall rfl ⟨[.reconnectError, .connectRejected callers .restoreFailed], ?_,
        fun o ho => .inl ?_⟩
      · simp only [hlog, List.append_assoc, List.cons_append, List.nil_append]
      · simp only [List.mem_cons, List.not_mem_nil, or_false] at ho
        rcases ho with rfl | rfl <;> rfl
  | true =>
    dsimp only [State.emitReconnected, State.emit]
    rw [if_pos rfl]
    split
    · next options callers hcall =>
      refine .answered hcall rfl ⟨[.reconnected s.connection.connection s.channelPool,
        .resumed callers s.connection.connection s.channelPool], ?_, fun o ho => ?_⟩
      · simp only [List.append_assoc, List.cons_append, List.nil_append]
      · simp only [List.mem_cons, List.not_mem_nil, or_false] at ho
        rcases ho with rfl | rfl
        · exact .inl rfl
        · cases hconn : s.connection.connection with
          | none => exact .inr ⟨rfl, .inr ⟨rfl, hconn, by simp [hr]⟩⟩
          | some x => exact .inl rfl
    · exact .keeps rfl (awaits_of_eq rfl) (says_one rfl rfl)

/-- The end of `disconnect` leaves the call alone. -/
theorem disconnected_keeps {s₁ : State} (hcall : s₁.connectCall = s.connectCall)
    (hpromise : s₁.connection.connectPromise = s.connection.connectPromise)
    (hlog : Says s s₁ fun o => o.nullTo = []) (event : Event) (call : Nat) (clean : Bool) :
    CallStep s event (s₁.disconnected call clean) := by
  obtain ⟨shown, hlog, hshown⟩ := hlog
  unfold State.disconnected
  cases clean with
  | false => exact .keeps hcall (awaits_of_eq hpromise) ⟨shown, hlog, hshown⟩
  | true =>
    refine .keeps hcall (awaits_of_eq hpromise) ⟨shown ++ [.disconnected], ?_, fun o ho => ?_⟩
    · exact (congrArg (· ++ [Output.disconnected]) hlog).trans (List.append_assoc _ _ _)
    · rcases List.mem_append.mp ho with ho | ho
      · exact hshown o ho
      · rw [List.mem_singleton.mp ho]
        rfl

theorem callStep_disconnectConnection {s₁ : State} (hcall : s₁.connectCall = s.connectCall)
    (hconn : s₁.connection = s.connection) (hlog : s₁.log = s.log) (event : Event) (call : Nat)
    (clean : Bool) : CallStep s event (s₁.disconnectConnection call clean) := by
  obtain ⟨hpromise, -⟩ := Connection.disconnect_frame s₁.connection call
  obtain ⟨shown, heq, hshown⟩ := absorb_calm s₁ (Connection.disconnect_calm s₁.connection call)
  have hquiet : Says s { s₁ with
      connection := (s₁.connection.disconnect call).1
      log := s₁.log ++ shown } fun o => o.nullTo = [] :=
    ⟨shown, congrArg (· ++ shown) hlog, fun o ho => by rw [hshown o ho]; rfl⟩
  have hpromise : (s₁.connection.disconnect call).1.connectPromise =
      s.connection.connectPromise := hconn ▸ hpromise
  unfold State.disconnectConnection
  rw [heq]
  dsimp only
  split
  · exact .keeps hcall (awaits_of_eq hpromise) hquiet
  · exact disconnected_keeps (by exact hcall) hpromise hquiet event call clean

theorem Steps.call {event : Event} (H : Steps c s event s') : CallStep s event s' := by
  cases H with
  | @connect caller options =>
    unfold State.connect
    split
    · next call hcall => exact .joins hcall rfl
    · next hnone =>
      obtain ⟨shown, heq, hshown⟩ := absorb_calm
        { s with connectCall := some ⟨options, [caller], .dialing⟩ }
        (Connection.connect_calm s.connection)
      rw [heq]
      exact .opens hnone rfl (connects_isSome (Connection.connect_cases _)) ⟨shown, rfl, fun o ho => by rw [hshown o ho]; rfl⟩
  | @disconnect call hfresh =>
    rcases abortWaiter_cases (s.emit .disconnecting) .aborted with
      ⟨-, heq⟩ | ⟨options, callers, hcall, heq⟩
    · unfold State.disconnect
      rw [heq]
      exact .keeps rfl (awaits_of_eq rfl) (says_one rfl rfl)
    · unfold State.disconnect
      rw [heq]
      refine .answered hcall rfl ⟨[.disconnecting, .connectRejected callers .aborted], ?_,
        fun o ho => .inl ?_⟩
      · simp only [State.emit, List.append_assoc, List.cons_append, List.nil_append]
      · simp only [List.mem_cons, List.not_mem_nil, or_false] at ho
        rcases ho with rfl | rfl <;> rfl
  | connection hquiet hown H => exact callStep_connection hown H
  | dialSettles hdial => exact .dialed hdial
  | connectDialed hcall => exact callStep_connectDialed hcall
  | @connectRestored _ _ _ _ _ ok hcall hr =>
    refine .answered hcall rfl (says_one rfl (.inl ?_))
    cases ok <;> rfl
  | connectTimesOut => exact callStep_abortWaiter _ _
  | poolInitialized =>
    unfold State.poolInitialized
    split <;> exact .keeps rfl (awaits_of_eq rfl) (says_nothing rfl)
  | poolFails => exact .keeps rfl (awaits_of_eq rfl) (says_nothing rfl)
  | exchangeAsserted => exact .keeps rfl (awaits_of_eq rfl) (says_nothing rfl)
  | exchangeFails =>
    unfold State.exchangeFails
    split <;> exact .keeps rfl (awaits_of_eq rfl) (says_nothing rfl)
  | recreated => exact .keeps rfl (awaits_of_eq rfl) (says_nothing rfl)
  | poolClosed => exact .keeps rfl (awaits_of_eq rfl) (says_nothing rfl)
  | reconnectionResumes hr => exact callStep_reconnectionRestored hr
  | @disposed call throws hcall =>
    unfold State.disposed
    split
    · exact callStep_disconnectConnection rfl rfl rfl _ call false
    · split
      · exact .keeps rfl (awaits_of_eq rfl) (says_nothing rfl)
      · exact callStep_disconnectConnection rfl rfl rfl _ call true
  | @channelPoolClosed call hcall =>
    generalize hs₁ : ({ s with channelPool := none } : State) = s₁
    have hsame : s₁.connectCall = s.connectCall ∧ s₁.connection = s.connection ∧ s₁.log = s.log := by
      subst hs₁
      exact ⟨rfl, rfl, rfl⟩
    have H := callStep_disconnectConnection hsame.1 hsame.2.1 hsame.2.2 (.channelPoolClosed call)
      call true
    rw [← hs₁] at H
    exact H
  | @connectionClosed call clean connection hcall hclosing =>
    obtain ⟨shown, heq, hshown⟩ := absorb_calm s (Connection.setConnectionState_calm
      { s.connection with
        connections := s.connection.connections.set connection ⟨false, true, false⟩
        closing := s.connection.closing.erase call
        connection := none } .disconnected)
    unfold State.connectionClosed Connection.State.disconnectCloses
    rw [heq]
    simp only [Connection.setConnectionState_fst]
    generalize hs₁ : ({ s with
      connection := { s.connection with
        connection := none
        connectionState := .disconnected
        connections := s.connection.connections.set connection ⟨false, true, false⟩
        closing := s.connection.closing.erase call }
      log := s.log ++ shown } : State) = s₁
    have hlog : Says s s₁ fun o => o.nullTo = [] :=
      ⟨shown, by rw [← hs₁], fun o ho => by rw [hshown o ho]; rfl⟩
    exact disconnected_keeps (by rw [← hs₁]) (by rw [← hs₁]) hlog _ call clean

/-! ## The clock -/

/-- What a caller of `connect` asked for, and when. -/
structure Asked where
  options : ConnectOptions
  since : Nat
  deriving DecidableEq

structure Clocked where
  client : State
  now : Nat
  /-- when the parked call began to wait -/
  parkedAt : Nat
  asked : OrderedMap Nat Asked

inductive Tick where
  | client (event : Event)
  | elapse (ms : Nat)

def clockedStart : Clocked := ⟨start, 0, 0, .empty⟩

def State.parked (s : State) : Bool := s.connectCall.any fun call => call.stage = .parked

/-- When the timer of the parked call is due. -/
def Clocked.due (w : Clocked) : Option Nat :=
  match w.client.connectCall with
  | some ⟨options, _, .parked⟩ => (options.timeout.filter (0 < ·)).map (w.parkedAt + ·)
  | _ => none

/-- Callers are told apart, and a timer does not fire early. -/
def Clocked.admits (w : Clocked) : Event → Bool
  | .connect caller _ => decide (caller ∉ w.asked)
  | .connectTimesOut => w.due.any (· ≤ w.now)
  | _ => true

def Event.asks (event : Event) (asked : OrderedMap Nat Asked) (now : Nat) : OrderedMap Nat Asked :=
  match event with
  | .connect caller options => asked.set caller ⟨options, now⟩
  | _ => asked

def Clocked.after (w : Clocked) (event : Event) (s : State) : Clocked where
  client := s
  now := w.now
  parkedAt := if s.parked ∧ w.client.parked = false then w.now else w.parkedAt
  asked := event.asks w.asked w.now

/-- A step of the facade, or of the clock: time passes when no callback is pending, and not beyond
a timer that is due. -/
def clocked (c : Config) (w : Clocked) : Tick → Option Clocked
  | .client event => if w.admits event then (step c w.client event).map (w.after event) else none
  | .elapse ms =>
    if w.client.quiet ∧ (w.due.all fun d => w.now + ms ≤ d) then some { w with now := w.now + ms }
    else none

/-- What a shared call does for a caller with these options is what they ask for. The timers may
have been set `slack` apart. -/
def ConnectOptions.fits (options shared : ConnectOptions) (slack : Nat) : Bool :=
  decide (options.waitForConnection = shared.waitForConnection) &&
    (!options.waitForConnection || options.timeout.all fun t =>
      decide (t = 0) || shared.timeout.any fun t' => decide (0 < t') && decide (t' ≤ t + slack))

/-- How long before this caller the call began to wait. -/
def Clocked.slack (w : Clocked) (call : ConnectCall) (since : Nat) : Nat :=
  if call.stage = .parked then since - w.parkedAt else 0

/-- The options of the shared call still matter. -/
def State.undecided (s : State) (call : ConnectCall) : Bool :=
  match call.stage with
  | .dialing => unlanded s.connection.connectPromise
  | .dialed none | .parked => true
  | _ => false

/-- A caller joins an undecided call only with options that fit it, and no recovery is reported to a
parked call after the connection is gone. -/
def Agrees (w : Clocked) : Tick → Prop
  | .client (.connect _ options) => ∀ call ∈ w.client.connectCall, w.client.undecided call →
      options.fits call.options (w.slack call w.now)
  | .client event => w.client.parked → ¬ Hollow w.client event
  | .elapse _ => True

instance (w : Clocked) (tick : Tick) : Decidable (Agrees w tick) := by
  unfold Agrees
  split <;> infer_instance

/-! ## What the callers asked for -/

theorem fits_self (options : ConnectOptions) (slack : Nat) : options.fits options slack := by
  obtain ⟨wait, timeout⟩ := options
  cases timeout with
  | none => simp [ConnectOptions.fits]
  | some t =>
    have : t = 0 ∨ 0 < t := t.eq_zero_or_pos
    simpa [ConnectOptions.fits] using .inr this

theorem fits_slack {options shared : ConnectOptions} (h : options.fits shared 0) (slack : Nat) :
    options.fits shared slack := by
  simp only [ConnectOptions.fits, Bool.and_eq_true, Bool.or_eq_true, Option.all_eq_true,
    Option.any_eq_true, decide_eq_true_eq] at h ⊢
  refine ⟨h.1, h.2.imp_right fun htimeout t ht => (htimeout t ht).imp_right ?_⟩
  rintro ⟨t', ht', hpos, hle⟩
  exact ⟨t', ht', hpos, by omega⟩

theorem fits_wait {options shared : ConnectOptions} {slack : Nat}
    (h : options.fits shared slack) : options.waitForConnection = shared.waitForConnection := by
  simp only [ConnectOptions.fits, Bool.and_eq_true, decide_eq_true_eq] at h
  exact h.1

/-- What a fitting timeout gives. -/
theorem fits_timeout {options shared : ConnectOptions} {slack : Nat}
    (h : options.fits shared slack) (hwait : options.waitForConnection = true) {t : Nat}
    (ht : options.timeout = some t) (hpos : 0 < t) :
    ∃ t', shared.timeout = some t' ∧ 0 < t' ∧ t' ≤ t + slack := by
  simp only [ConnectOptions.fits, hwait, ht, Bool.and_eq_true, Bool.not_true, Bool.false_or,
    Option.all_some, Bool.or_eq_true, decide_eq_true_eq] at h
  rcases h.2 with hzero | h
  · omega
  · obtain ⟨t', ht', h⟩ := (Option.any_eq_true _ _).mp h
    simp only [Bool.and_eq_true, decide_eq_true_eq] at h
    exact ⟨t', ht', h⟩

/-- Nobody's options are lost or replaced. -/
theorem asks_get? {w : Clocked} {event : Event} (htimely : w.admits event) {caller : Nat} {a : Asked}
    (ha : w.asked.get? caller = some a) : (event.asks w.asked w.now).get? caller = some a := by
  cases event with
  | connect caller' options =>
    have hne : caller ≠ caller' := fun heq =>
      of_decide_eq_true htimely (heq ▸ OrderedMap.mem_of_get? ha)
    simp only [Event.asks, OrderedMap.get?_set, if_neg hne, ha]
  | _ => exact ha

theorem asks_mem {w : Clocked} {event : Event} (htimely : w.admits event) {caller : Nat}
    (h : caller ∈ w.asked) : caller ∈ event.asks w.asked w.now := by
  obtain ⟨a, ha⟩ := OrderedMap.mem_iff.mp h
  exact OrderedMap.mem_of_get? (asks_get? htimely ha)

/-- And whoever had asked had asked just that. -/
theorem get?_of_asks {w : Clocked} {event : Event} (htimely : w.admits event) {caller : Nat}
    {a : Asked} (h : caller ∈ w.asked)
    (ha : (event.asks w.asked w.now).get? caller = some a) : w.asked.get? caller = some a := by
  obtain ⟨a', ha'⟩ := OrderedMap.mem_iff.mp h
  rw [asks_get? htimely ha', Option.some_inj] at ha
  exact ha ▸ ha'

theorem due_eq_some {w : Clocked} {d : Nat} (h : w.due = some d) : ∃ options callers t,
    w.client.connectCall = some ⟨options, callers, .parked⟩ ∧ options.timeout = some t ∧ 0 < t ∧
      d = w.parkedAt + t := by
  unfold Clocked.due at h
  split at h
  · next options callers hcall =>
    obtain ⟨t, ht, rfl⟩ := Option.map_eq_some_iff.mp h
    obtain ⟨ht, hpos⟩ := Option.filter_eq_some_iff.mp ht
    exact ⟨options, callers, t, hcall, ht, of_decide_eq_true hpos, rfl⟩
  · cases h

theorem due_of_parked {w : Clocked} {options : ConnectOptions} {callers : List Nat} {t : Nat}
    (hcall : w.client.connectCall = some ⟨options, callers, .parked⟩)
    (ht : options.timeout = some t) (hpos : 0 < t) : w.due = some (w.parkedAt + t) := by
  simp [Clocked.due, hcall, ht, hpos]

theorem parked_of_call {call : ConnectCall} (hcall : s.connectCall = some call)
    (hst : call.stage = .parked) : s.parked := by
  simp [State.parked, hcall, hst]

structure Governed (w : Clocked) : Prop where
  dialing : ∀ call, w.client.connectCall = some call → call.stage = .dialing →
    w.client.connection.connectPromise.isSome
  callers : ∀ call, w.client.connectCall = some call → ∀ caller ∈ call.callers, caller ∈ w.asked
  fits : ∀ call, w.client.connectCall = some call → w.client.undecided call →
    ∀ caller ∈ call.callers, ∀ a, w.asked.get? caller = some a →
      a.options.fits call.options (w.slack call a.since)
  parked : ∀ call, w.client.connectCall = some call → call.stage = .parked →
    call.options.waitForConnection = true
  due : ∀ d, w.due = some d → w.now ≤ d
  told : ∀ o ∈ w.client.log, ∀ caller ∈ o.nullTo, ∃ a, w.asked.get? caller = some a ∧
    a.options.waitForConnection = false

theorem governed_start : Governed clockedStart := ⟨nofun, nofun, nofun, nofun, nofun, nofun⟩

/-- A call is opened by its first caller; its options and its place in time stay. -/
theorem CallStep.grown {event : Event} (H : CallStep s event s') {call' : ConnectCall}
    (hcall' : s'.connectCall = some call') :
    (∃ caller options, event = .connect caller options ∧ call' = ⟨options, [caller], .dialing⟩) ∨
      ∃ call, s.connectCall = some call ∧ call'.options = call.options ∧
        (s'.undecided call' → s.undecided call) ∧
        (call.stage = .parked → call'.stage = .parked) ∧
        (call'.stage = .parked → call.stage = .parked ∨
          call.stage = .dialed none ∧ call.options.waitForConnection = true) ∧
        (call'.callers = call.callers ∨ ∃ caller options, event = .connect caller options ∧
          call'.callers = call.callers ++ [caller] ∧ call'.stage = call.stage) := by
  cases H with
  | keeps hcall hland hlog =>
    refine .inr ⟨call', hcall ▸ hcall', rfl, fun h => ?_, id, .inl, .inl rfl⟩
    revert h
    unfold State.undecided
    split
    · exact hland.1
    · exact id
    · exact id
    · exact id
  | opens hnone hcall hdial hlog =>
    cases hcall.symm.trans hcall'
    exact .inl ⟨_, _, rfl, rfl⟩
  | @joins caller options call _ hcall hjoin =>
    subst hjoin
    cases hcall'
    exact .inr ⟨call, hcall, rfl, id, id, .inl, .inr ⟨caller, options, rfl, rfl, rfl⟩⟩
  | @dialed result hdial =>
    obtain ⟨⟨options, callers, stage⟩, hcall, rfl⟩ := Option.map_eq_some_iff.mp hcall'
    refine .inr ⟨_, hcall, ?_⟩
    cases stage with
    | dialing =>
      refine ⟨rfl, fun h => ?_, by simp, by simp, .inl rfl⟩
      cases result with
      | none => simp [State.undecided, hdial, unlanded]
      | some x => cases h
    | dialed result' => exact ⟨rfl, by cases result' <;> exact id, id, .inl, .inl rfl⟩
    | restoring => exact ⟨rfl, id, id, .inl, .inl rfl⟩
    | parked => exact ⟨rfl, id, id, .inl, .inl rfl⟩
  | restores hcall hnew hlog =>
    cases hnew.symm.trans hcall'
    exact .inr ⟨_, hcall, rfl, by rintro ⟨⟩, by rintro ⟨⟩, by rintro ⟨⟩, .inl rfl⟩
  | parks hcall hwait hnew hlog =>
    cases hnew.symm.trans hcall'
    exact .inr ⟨_, hcall, rfl, fun _ => rfl, by simp, fun _ => .inr ⟨rfl, hwait⟩, .inl rfl⟩
  | answered hcall hnone hlog => cases hnone.symm.trans hcall'

/-- A call that dials has a dial in flight. -/
theorem CallStep.dialing {event : Event} (H : CallStep s event s')
    (h : ∀ call, s.connectCall = some call → call.stage = .dialing →
      s.connection.connectPromise.isSome)
    {call' : ConnectCall} (hcall' : s'.connectCall = some call') (hst : call'.stage = .dialing) :
    s'.connection.connectPromise.isSome := by
  cases H with
  | keeps hcall hland hlog => exact hland.2 (h call' (hcall ▸ hcall') hst)
  | opens hnone hcall hdial hlog => exact hdial
  | joins hcall hjoin =>
    subst hjoin
    cases hcall'
    exact h _ hcall hst
  | dialed hdial =>
    obtain ⟨⟨options, callers, stage⟩, hcall, rfl⟩ := Option.map_eq_some_iff.mp hcall'
    cases stage <;> cases hst
  | restores hcall hnew hlog =>
    cases hnew.symm.trans hcall'
    cases hst
  | parks hcall hwait hnew hlog =>
    cases hnew.symm.trans hcall'
    cases hst
  | answered hcall hnone hlog => cases hnone.symm.trans hcall'

/-- Who is told that there is no connection, and out of which call. -/
theorem CallStep.tells {event : Event} (H : CallStep s event s') {o : Output} (ho : o ∈ s'.log)
    {caller : Nat} (htold : caller ∈ o.nullTo) : o ∈ s.log ∨
      ∃ call, s.connectCall = some call ∧ caller ∈ call.callers ∧
        (call.stage = .dialed none ∧ call.options.waitForConnection = false ∨
          call.stage = .parked ∧ Hollow s event) := by
  have hquiet : (Says s s' fun o => o.nullTo = []) → o ∈ s.log := fun ⟨shown, hlog, hshown⟩ => by
    rcases List.mem_append.mp (hlog ▸ ho) with ho | ho
    · exact ho
    · rw [hshown o ho] at htold
      cases htold
  cases H with
  | keeps hcall hland hlog => exact .inl (hquiet hlog)
  | opens hnone hcall hdial hlog => exact .inl (hquiet hlog)
  | joins hcall hjoin =>
    subst hjoin
    exact .inl ho
  | dialed hdial => exact .inl ho
  | restores hcall hnew hlog => exact .inl (hquiet hlog)
  | parks hcall hwait hnew hlog => exact .inl (hquiet hlog)
  | @answered _ call _ hcall hnone hlog =>
    obtain ⟨shown, hlog, hshown⟩ := hlog
    rcases List.mem_append.mp (hlog ▸ ho) with ho | ho
    · exact .inl ho
    · rcases hshown o ho with hnil | ⟨hcallers, hwhy⟩
      · rw [hnil] at htold
        cases htold
      · exact .inr ⟨call, hcall, hcallers ▸ htold, hwhy⟩

theorem Agrees.not_hollow {w : Clocked} {event : Event} (h : Agrees w (.client event))
    (hparked : w.client.parked) : ¬ Hollow w.client event := by
  cases event with
  | connect caller options => exact id
  | _ => exact h hparked

/-- The place in time of a call that was parked before. -/
theorem slack_after {w : Clocked} {event : Event} {call call' : ConnectCall}
    (hcall : w.client.connectCall = some call) (hst : call.stage = .parked)
    (hst' : call'.stage = .parked) (since : Nat) :
    (w.after event s').slack call' since = w.slack call since := by
  have hparked := parked_of_call hcall hst
  simp [Clocked.slack, Clocked.after, hst, hst', hparked]

theorem Governed.after {w : Clocked} (h : Governed w) {event : Event} (htimely : w.admits event)
    (hok : Agrees w (.client event)) (H : CallStep w.client event s') :
    Governed (w.after event s') := by
  refine ⟨fun call' hcall' hst => H.dialing h.dialing hcall' hst,
    fun call' hcall' caller hmem => ?_, fun call' hcall' hund caller hmem a ha => ?_,
    fun call' hcall' hst => ?_, fun d hd => ?_, fun o ho caller htold => ?_⟩
  · rcases H.grown hcall' with ⟨first, options, rfl, rfl⟩ | ⟨call, hcall, -, -, -, -, hcallers⟩
    · exact OrderedMap.mem_set.mpr (.inl (List.mem_singleton.mp hmem))
    · rcases hcallers with hsame | ⟨last, options, rfl, hjoined, -⟩
      · exact asks_mem htimely (h.callers call hcall caller (hsame ▸ hmem))
      · rcases List.mem_append.mp (hjoined ▸ hmem) with hmem | hmem
        · exact asks_mem htimely (h.callers call hcall caller hmem)
        · exact OrderedMap.mem_set.mpr (.inl (List.mem_singleton.mp hmem))
  · rcases H.grown hcall' with ⟨first, options, rfl, rfl⟩ |
      ⟨call, hcall, hoptions, hback, hstays, -, hcallers⟩
    · cases List.mem_singleton.mp hmem
      cases (OrderedMap.get?_set_self w.asked caller ⟨options, w.now⟩).symm.trans ha
      exact fits_self options _
    · replace hund := hback hund
      -- a caller that was there before
      have hold : caller ∈ call.callers →
          a.options.fits call'.options ((w.after event s').slack call' a.since) := fun hmem => by
        have hfits := h.fits call hcall hund caller hmem a
          (get?_of_asks htimely (h.callers call hcall caller hmem) ha)
        rw [hoptions]
        by_cases hst : call.stage = .parked
        · rwa [slack_after hcall hst (hstays hst)]
        · rw [Clocked.slack, if_neg hst] at hfits
          exact fits_slack hfits _
      rcases hcallers with hsame | ⟨last, options, rfl, hjoined, hstage⟩
      · exact hold (hsame ▸ hmem)
      · rcases List.mem_append.mp (hjoined ▸ hmem) with hmem | hmem
        · exact hold hmem
        · cases List.mem_singleton.mp hmem
          cases (OrderedMap.get?_set_self w.asked caller ⟨options, w.now⟩).symm.trans ha
          have hfits := hok call hcall hund
          rw [hoptions]
          by_cases hst : call.stage = .parked
          · rwa [slack_after hcall hst (hstays hst)]
          · rw [Clocked.slack, if_neg hst] at hfits
            exact fits_slack hfits _
  · rcases H.grown hcall' with ⟨first, options, rfl, rfl⟩ |
      ⟨call, hcall, hoptions, -, -, hparks, -⟩
    · cases hst
    · rw [hoptions]
      rcases hparks hst with hst | ⟨-, hwait⟩
      · exact h.parked call hcall hst
      · exact hwait
  · obtain ⟨options, callers, t, hcall', ht, hpos, rfl⟩ := due_eq_some hd
    have hparked' : s'.parked := parked_of_call hcall' rfl
    rcases H.grown hcall' with ⟨first, options, rfl, heq⟩ |
      ⟨⟨options₀, callers₀, stage⟩, hcall, rfl, -, -, hparks, -⟩
    · cases heq
    · rcases hparks rfl with hst | ⟨hst, -⟩
      · cases hst
        have hparked := parked_of_call hcall rfl
        have hdue := h.due _ (due_of_parked hcall ht hpos)
        simpa [Clocked.after, hparked] using hdue
      · cases hst
        have hnot : w.client.parked = false := by simp [State.parked, hcall]
        simp [Clocked.after, hparked', hnot]
  · rcases H.tells ho htold with ho | ⟨call, hcall, hmem, hwhy⟩
    · obtain ⟨a, ha, hwait⟩ := h.told o ho caller htold
      exact ⟨a, asks_get? htimely ha, hwait⟩
    · rcases hwhy with ⟨hst, hwait⟩ | ⟨hst, hhollow⟩
      · obtain ⟨a, ha⟩ := OrderedMap.mem_iff.mp (h.callers call hcall caller hmem)
        have hfits := h.fits call hcall (by simp [State.undecided, hst]) caller hmem a ha
        exact ⟨a, asks_get? htimely ha, (fits_wait hfits).trans hwait⟩
      · exact absurd hhollow (hok.not_hollow (parked_of_call hcall hst))

theorem Governed.clocked {w w' : Clocked} {tick : Tick} (h : Governed w) (hok : Agrees w tick)
    (hs : clocked c w tick = some w') : Governed w' := by
  cases tick with
  | client event =>
    unfold Client.clocked at hs
    dsimp only at hs
    split at hs
    · next htimely =>
      obtain ⟨s', hstep, rfl⟩ := Option.map_eq_some_iff.mp hs
      exact h.after htimely hok (step_cases hstep).call
    · cases hs
  | elapse ms =>
    unfold Client.clocked at hs
    dsimp only at hs
    split at hs
    · next htime =>
      cases hs
      refine ⟨h.dialing, h.callers, h.fits, h.parked, fun d hd => ?_, h.told⟩
      exact of_decide_eq_true ((Option.all_eq_true _ _).mp htime.2 d hd)
    · cases hs

/-! ## What each caller gets -/

/-- Every call of `connect` is governed by its own options. -/
structure Obeyed (c : Config) (w : Clocked) : Prop where
  /-- a caller that waits is never told that there is no connection -/
  told : ∀ o ∈ w.client.log, ∀ caller ∈ o.nullTo, ∀ a, w.asked.get? caller = some a →
    a.options.waitForConnection = false
  /-- a caller that does not wait is told as soon as the dial it joined came to nothing -/
  prompt : ∀ call, w.client.connectCall = some call → ∀ caller ∈ call.callers, ∀ a,
    w.asked.get? caller = some a → a.options.waitForConnection = false →
      (∃ dial, call.stage = .dialing ∧ w.client.connection.connectPromise = some dial) ∨
      (∃ x, call.stage = .dialed (some x)) ∨ (∃ restore x, call.stage = .restoring restore x) ∨
      call.stage = .dialed none ∧ w.client.quiet = false ∧ ∃ w',
        clocked c w (.client .connectResumes) = some w' ∧ w'.client.connectCall = none ∧
          w'.client.log = w.client.log ++ [.connectResolved call.callers none]
  /-- a caller that waits for a time is told at the end of it -/
  inTime : ∀ call, w.client.connectCall = some call → call.stage = .parked →
    ∀ caller ∈ call.callers, ∀ a, w.asked.get? caller = some a →
      ∀ t, a.options.timeout = some t → 0 < t →
        w.now ≤ max w.parkedAt a.since + t ∧
          (w.now = max w.parkedAt a.since + t → w.client.quiet → ∃ w',
            clocked c w (.client .connectTimesOut) = some w' ∧ w'.client.connectCall = none ∧
              w'.client.log = w.client.log ++ [.connectRejected call.callers .timedOut])

theorem resumes_with_null {w : Clocked} {options : ConnectOptions} {callers : List Nat}
    (hcall : w.client.connectCall = some ⟨options, callers, .dialed none⟩)
    (hwait : options.waitForConnection = false) : ∃ w',
      clocked c w (.client .connectResumes) = some w' ∧ w'.client.connectCall = none ∧
        w'.client.log = w.client.log ++ [.connectResolved callers none] := by
  have hstep : step c w.client .connectResumes =
      some (w.client.connectDialed options callers none) := by
    simp [step, Event.external, hcall]
  have hdialed : w.client.connectDialed options callers none =
      { w.client with connectCall := none }.emit (.connectResolved callers none) := by
    simp only [State.connectDialed, hwait, if_true]
  exact ⟨w.after .connectResumes (w.client.connectDialed options callers none),
    by simp [clocked, Clocked.admits, hstep], by rw [hdialed]; exact ⟨rfl, rfl⟩⟩

theorem times_out {w : Clocked} {options : ConnectOptions} {callers : List Nat} {t : Nat}
    (hcall : w.client.connectCall = some ⟨options, callers, .parked⟩)
    (ht : options.timeout = some t) (hpos : 0 < t) (hdue : w.parkedAt + t ≤ w.now)
    (hquiet : w.client.quiet) : ∃ w',
      clocked c w (.client .connectTimesOut) = some w' ∧ w'.client.connectCall = none ∧
        w'.client.log = w.client.log ++ [.connectRejected callers .timedOut] := by
  have htimely : w.admits .connectTimesOut := by
    simp [Clocked.admits, due_of_parked hcall ht hpos, hdue]
  have htimed : options.timed := by simp [ConnectOptions.timed, ht, hpos]
  have hstep : step c w.client .connectTimesOut = some (w.client.abortWaiter .timedOut) := by
    simp [step, Event.external, hquiet, hcall, htimed]
  have haborted : w.client.abortWaiter .timedOut =
      { w.client with connectCall := none }.emit (.connectRejected callers .timedOut) := by
    simp only [State.abortWaiter, hcall]
  exact ⟨w.after .connectTimesOut (w.client.abortWaiter .timedOut),
    by simp [clocked, htimely, hstep], by rw [haborted]; exact ⟨rfl, rfl⟩⟩

theorem Governed.obeyed {w : Clocked} (h : Governed w) : Obeyed c w := by
  refine ⟨fun o ho caller htold a ha => ?_, fun call hcall caller hmem a ha hwait => ?_,
    fun call hcall hst caller hmem a ha t ht hpos => ?_⟩
  · obtain ⟨a', ha', hwait⟩ := h.told o ho caller htold
    cases ha.symm.trans ha'
    exact hwait
  · obtain ⟨options, callers, stage⟩ := call
    have hown : w.client.undecided ⟨options, callers, stage⟩ →
        options.waitForConnection = false := fun hund =>
      (fits_wait (h.fits _ hcall hund caller hmem a ha)).symm.trans hwait
    cases stage with
    | dialing =>
      obtain ⟨dial, hdial⟩ := Option.isSome_iff_exists.mp (h.dialing _ hcall rfl)
      exact .inl ⟨dial, rfl, hdial⟩
    | dialed result =>
      cases result with
      | some x => exact .inr (.inl ⟨x, rfl⟩)
      | none =>
        refine .inr (.inr (.inr ⟨rfl, ?_, resumes_with_null hcall (hown rfl)⟩))
        exact Bool.eq_false_iff.mpr fun hquiet => dialed_of_quiet hquiet hcall none rfl
    | restoring restore x => exact .inr (.inr (.inl ⟨restore, x, rfl⟩))
    | parked =>
      have hno := (h.parked _ hcall rfl).symm.trans (hown rfl)
      cases hno
  · obtain ⟨options, callers, stage⟩ := call
    cases hst
    have hfits := h.fits _ hcall rfl caller hmem a ha
    have hwait := (fits_wait hfits).trans (h.parked _ hcall rfl)
    obtain ⟨t', ht', hpos', hle⟩ := fits_timeout hfits hwait ht hpos
    have hslack : t' ≤ t + (a.since - w.parkedAt) := hle
    have hdue := h.due _ (due_of_parked hcall ht' hpos')
    refine ⟨by omega, fun hnow hquiet => times_out hcall ht' hpos' (by omega) hquiet⟩

/-- Every call of `connect` is governed by its own options, in every run in which nobody joins an
undecided call with options that do not fit it. -/
theorem connect_governed {w : Clocked} (hr : Reach (clocked c) Agrees clockedStart w) :
    Obeyed c w :=
  (hr.invariant governed_start fun h hok hs => h.clocked hok hs).obeyed

/-! ## Runs -/

/-- The first dial fails and the call parks; another caller joins it, and time passes. -/
theorem connect_governed_run : ∃ w, Reach (clocked withoutExchange) Agrees clockedStart w ∧
    w.now = 30 ∧ w.client.connectCall = some ⟨⟨true, some 50⟩, [0, 1], .parked⟩ ∧
      Obeyed withoutExchange w := by
  have hrun : (run (clocked withoutExchange) Agrees clockedStart [
      .client (.connect 0 ⟨true, some 50⟩), .client (.connection .dialFails), .client .dialSettles,
      .client .connectResumes, .elapse 20, .client (.connect 1 ⟨true, some 30⟩),
      .elapse 10]).any (fun w => decide (w.now = 30 ∧
        w.client.connectCall = some ⟨⟨true, some 50⟩, [0, 1], .parked⟩)) := by
    decide +kernel
  obtain ⟨w, hw, h⟩ := (Option.any_eq_true _ _).mp hrun
  have hr := reach_of_run hw
  obtain ⟨hnow, hcall⟩ := of_decide_eq_true h
  exact ⟨w, hr, hnow, hcall, connect_governed hr⟩

/-- Two callers share a dial. The first does not wait, and the second, which does, is told with it
that there is no connection. -/
theorem connect_not_governed : ∃ w, Reach (clocked withoutExchange) anyStep clockedStart w ∧
    ¬ Obeyed withoutExchange w := by
  have hrun : (run (clocked withoutExchange) anyStep clockedStart [
      .client (.connect 0 ⟨false, none⟩), .client (.connect 1 ⟨true, none⟩),
      .client (.connection .dialFails), .client .dialSettles,
      .client .connectResumes]).any (fun w => decide (
        .connectResolved [0, 1] none ∈ w.client.log ∧
          w.asked.get? 1 = some ⟨⟨true, none⟩, 0⟩)) := by
    decide +kernel
  obtain ⟨w, hw, h⟩ := (Option.any_eq_true _ _).mp hrun
  obtain ⟨hlog, hasked⟩ := of_decide_eq_true h
  exact ⟨w, reach_of_run hw, fun hobeyed =>
    nomatch hobeyed.told _ hlog 1 (.tail _ (.head _)) _ hasked⟩

end Client
end RabbitMQ

import Mathlib.Data.List.Perm.Subperm
import Mathlib.Data.List.Nodup
import Mathlib.Data.Nat.ModEq
import RabbitMQ.Connection.Lifecycle

/-! What follows the loss of an established connection, as long as nobody calls `connect` or
`disconnect`: the rounds of dials, their budget and their order. -/

namespace RabbitMQ
namespace Connection

open Transition

variable {c : Config} {s s' : State}

/-! ## Established connections -/

/-- The connection is up: the last outage is over, and its counters are reset. -/
structure Up (s : State) : Prop where
  connectionState : s.connectionState = .connected
  isReconnecting : s.isReconnecting = false
  reconnectAttempt : s.reconnectAttempt = 0
  reconnectTimeout : s.reconnectTimeout = none
  isShuttingDown : s.isShuttingDown = false
  connectPromise : s.connectPromise = none ∨ ∃ result, s.connectPromise = some (.returned result)

/-- The connection is established, with its listeners. -/
def State.Watches (s : State) (connection : Nat) : Prop :=
  s.connection = some connection ∧ ∀ amqp ∈ s.connections.get? connection, amqp.watched

/-- Whatever was called before, an endpoint is next, and a connection that is established is up. -/
structure Fresh (c : Config) (s : State) : Prop where
  index : s.currentEndpointIndex < c.endpoints
  known : ∀ x, s.connection = some x → x ∈ s.connections
  up : ∀ x, s.Watches x → Up s

/-- Without a connection. -/
theorem Fresh.of_none (hindex : s.currentEndpointIndex < c.endpoints) (hnone : s.connection = none) :
    Fresh c s :=
  ⟨hindex, by simp [hnone], by simp [State.Watches, hnone]⟩

theorem fresh_start (hc : 0 < c.endpoints) : Fresh c start := .of_none hc rfl

/-- Without the connection, or without its listeners. -/
theorem Fresh.lost (h : Fresh c s) (hindex : s'.currentEndpointIndex = s.currentEndpointIndex)
    (hconn : ∀ x, s'.connection = some x → x ∈ s'.connections)
    (hlost : ∀ x, ¬ s'.Watches x) : Fresh c s' :=
  ⟨hindex ▸ h.index, hconn, fun x hx => absurd hx (hlost x)⟩

theorem Fresh.not_watches (h : Fresh c s) {attempt : Nat}
    (hdial : s.connectPromise = some (.dialing attempt)) (x : Nat) : ¬ s.Watches x := by
  intro hx
  rcases (h.up x hx).connectPromise with hnone | ⟨result, hreturned⟩
  · cases hdial.symm.trans hnone
  · cases hdial.symm.trans hreturned

theorem Connects.fresh (H : Connects s s') (h : Fresh c s) : Fresh c s' := by
  cases H with
  | joins => exact h
  | @already connection hidle hstate hconn =>
    refine ⟨h.index, h.known, fun x hx => ?_⟩
    obtain ⟨h₁, h₂, h₃, h₄, h₅, -⟩ := h.up x hx
    exact ⟨h₁, h₂, h₃, h₄, h₅, .inr ⟨_, rfl⟩⟩
  | dials hidle hlost =>
    refine h.lost rfl h.known fun x hx => ?_
    cases (hlost (h.up x hx).connectionState).symm.trans hx.1

theorem State.Watches.of_set {connection : Nat} {amqp : Amqp} {x : Nat}
    (hx : s'.Watches x) (hconn : s'.connection = s.connection)
    (hset : s'.connections = s.connections.set connection amqp)
    (hamqp : amqp.watched → s.Watches connection) : s.Watches x := by
  obtain ⟨heq, hwatched⟩ := hx
  by_cases hxc : x = connection
  · subst hxc
    rw [hset, OrderedMap.get?_set_self] at hwatched
    exact hamqp (hwatched amqp rfl)
  · refine ⟨hconn ▸ heq, fun a ha => hwatched a ?_⟩
    rw [hset, OrderedMap.get?_set, if_neg hxc]
    exact ha

theorem Steps.fresh {event : Event} {r : State × List Emitted} (H : Steps c s event r)
    (h : Fresh c s) : Fresh c r.1 := by
  cases H with
  | connect => exact (connect_cases s).fresh h
  | @disconnect call =>
    unfold State.disconnect
    dsimp only
    split
    · next hstate =>
      refine h.lost rfl h.known fun x hx => ?_
      cases hstate.symm.trans (h.up x hx).connectionState
    · simp only [setConnectionState_fst]
      split
      · next x hx =>
        refine h.lost rfl (fun y hy => ?_) fun y hy => ?_
        · exact OrderedMap.mem_set.mpr (.inr (h.known y hy))
        · obtain ⟨hconn, hwatched⟩ := hy
          cases hx.symm.trans hconn
          dsimp only at hwatched
          rw [OrderedMap.get?_set_self] at hwatched
          cases hwatched _ rfl
      · next hnone =>
        refine h.lost rfl (fun y hy => ?_) fun y hy => ?_
        · cases hnone.symm.trans hy
        · cases hnone.symm.trans hy.1
  | @dialSucceeds connection attempt hquiet hdial hfresh =>
    cases hdown : s.isShuttingDown with
    | true =>
      unfold State.dialSucceeds
      rw [if_pos hdown]
      refine h.lost rfl (fun y hy => OrderedMap.mem_set.mpr (.inr (h.known y hy))) fun x hx => ?_
      exact h.not_watches hdial x (hx.of_set rfl rfl (by simp))
    | false =>
      rw [dialSucceeds_fst hdown]
      refine ⟨h.index, fun x hx => ?_, fun x hx => ⟨rfl, rfl, rfl, rfl, hdown, .inr ⟨_, rfl⟩⟩⟩
      cases hx
      exact OrderedMap.mem_set.mpr (.inl rfl)
  | @dialFails attempt hquiet hdial =>
    have hindex : (s.currentEndpointIndex + 1) % c.endpoints < c.endpoints :=
      Nat.mod_lt _ (Nat.zero_lt_of_lt h.index)
    unfold State.dialFails
    dsimp only
    split
    · exact ⟨hindex, h.known, fun x hx => absurd hx (h.not_watches hdial x)⟩
    · split
      · simp only [setConnectionState_fst]
        exact .of_none hindex rfl
      · next hdown =>
        rw [startReconnection_fst (by simpa using hdown), retrying_frame]
        exact .of_none hindex rfl
  | @discarded connection hquiet hdial =>
    unfold State.discarded
    rw [setConnectionState_fst]
    refine h.lost rfl (fun y hy => OrderedMap.mem_set.mpr (.inr (h.known y hy))) fun x hx => ?_
    have hx := State.Watches.of_set (s := s) hx rfl rfl (by simp)
    rcases (h.up x hx).connectPromise with hnone | ⟨result, hreturned⟩
    · cases hdial.symm.trans hnone
    · cases hdial.symm.trans hreturned
  | dialSettles hdial =>
    refine ⟨h.index, h.known, fun x hx => ?_⟩
    obtain ⟨h₁, h₂, h₃, h₄, h₅, -⟩ := h.up x hx
    exact ⟨h₁, h₂, h₃, h₄, h₅, .inl rfl⟩
  | attemptResumes =>
    refine ⟨h.index, h.known, fun x hx => ?_⟩
    obtain ⟨h₁, h₂, h₃, h₄, h₅, h₆⟩ := h.up x hx
    exact ⟨h₁, h₂, h₃, h₄, h₅, h₆⟩
  | timerFires hquiet harmed =>
    have hdown : ∀ x, ¬ s.Watches x := fun x hx => by
      rw [(h.up x hx).reconnectTimeout] at harmed
      cases harmed
    by_cases hstate : s.connectionState = .connected
    · unfold State.timerFires
      dsimp only [State.clearReconnectTimeout]
      rw [if_pos hstate]
      exact h.lost rfl h.known hdown
    · obtain ⟨dialed, H, heq⟩ := timerFires_cases hstate
      have hk : Fresh c { s with
          reconnectTimeout := none
          reconnectAttempt := s.reconnectAttempt + 1 } := h.lost rfl h.known hdown
      have hdialed := H.fresh hk
      rw [heq]
      refine hdialed.lost rfl hdialed.known fun x hx => hdown x ?_
      cases H with
      | joins => exact hx
      | already => exact hx
      | dials => exact hx
  | @connectionCloses connection amqp hquiet hconn hlive =>
    unfold State.connectionCloses
    dsimp only
    split
    · next hwatched =>
      rw [startReconnection_fst (by exact hwatched.2), retrying_frame]
      exact .of_none h.index rfl
    · next hnot =>
      refine ⟨h.index, fun y hy => OrderedMap.mem_set.mpr (.inr (h.known y hy)), fun x hx => ?_⟩
      by_cases hxc : x = connection
      · -- its listener runs, for a connection that is up is not shutting down
        subst hxc
        obtain ⟨heq, hwatched⟩ := hx
        dsimp only at hwatched
        rw [OrderedMap.get?_set_self] at hwatched
        have hw : amqp.watched := hwatched ⟨false, amqp.closeCalled, amqp.watched⟩ rfl
        have hup := h.up x ⟨heq, fun a ha => by cases hconn.symm.trans ha; exact hw⟩
        exact absurd ⟨hw, hup.isShuttingDown⟩ hnot
      · have hx' : s.Watches x := by
          refine ⟨hx.1, fun a ha => hx.2 a ?_⟩
          dsimp only
          rw [OrderedMap.get?_set, if_neg hxc]
          exact ha
        obtain ⟨h₁, h₂, h₃, h₄, h₅, h₆⟩ := h.up x hx'
        exact ⟨h₁, h₂, h₃, h₄, h₅, h₆⟩
  | disconnectCloses =>
    unfold State.disconnectCloses
    rw [setConnectionState_fst]
    exact .of_none h.index rfl

theorem fresh_of_reach (hc : 0 < c.endpoints) (hr : Reach (next c) anyStep start s) : Fresh c s := by
  refine hr.invariant (fresh_start hc) fun h _ hs => ?_
  obtain ⟨out, H⟩ := next_cases hs
  exact H.fresh h

/-! ## What an outage shows -/

inductive Act where
  /-- the timer fires -/
  | fires
  /-- `amqp.connect(…)`, for an endpoint -/
  | dials (endpoint : Nat)
  /-- the dial of the last endpoint of a round has failed -/
  | fails
  | connected (endpoint : Nat)
  | disconnected
  | reconnected
  | reconnectFailed
  deriving DecidableEq

/-- The events, without the changes of state between them. -/
def Emitted.act? : Emitted → Option Act
  | .connectionStateChanged _ => none
  | .connected endpoint => some (.connected endpoint)
  | .disconnected => some .disconnected
  | .reconnected => some .reconnected
  | .reconnectFailed => some .reconnectFailed

def emits (out : List Emitted) : List Act := out.filterMap Emitted.act?

/-- What a step shows: the timer, the dial that it ends or starts, and the events. -/
def acts (event : Event) (s s' : State) (out : List Emitted) : List Act :=
  (if event = .timerFires then [.fires] else []) ++
    (match s.connectPromise, s'.connectPromise with
      | some (.dialing attempt), some (.dialing attempt') =>
        if attempt = attempt' then [] else [.dials s'.currentEndpointIndex]
      | _, some (.dialing _) => [.dials s'.currentEndpointIndex]
      | some (.dialing _), some (.returned none) => [.fails]
      | _, _ => []) ++ emits out

def observed (c : Config) (s : State) (event : Event) : Option (State × List Act) :=
  (step c s event).map fun r => (r.1, acts event s r.1 r.2)

/-- Nobody calls `connect` or `disconnect`, no call of `disconnect` returns from its await, and no
connection with a listener closes. -/
def Unattended (s : State) : Event → Prop
  | .connect | .disconnect _ | .disconnectCloses _ => False
  | .connectionCloses connection =>
    ∀ amqp ∈ s.connections.get? connection, amqp.watched = false
  | _ => True

instance (s : State) : DecidablePred (Unattended s) := fun event => by
  unfold Unattended
  split <;> infer_instance

/-- The endpoints of the dials. -/
def dialed (log : List Act) : List Nat :=
  log.filterMap fun
    | .dials endpoint => some endpoint
    | _ => none

/-- So many endpoints in their cyclic order. -/
def cyclic (c : Config) (first n : Nat) : List Nat :=
  (List.range n).map fun i => (first + i) % c.endpoints

/-- The dials of each round that failed; the first list is of a round that is not over. -/
def failedRounds : List Nat → List Act → List (List Nat)
  | _, [] => []
  | _, .fires :: log => failedRounds [] log
  | round, .dials endpoint :: log => failedRounds (round ++ [endpoint]) log
  | round, .fails :: log => round :: failedRounds [] log
  | round, _ :: log => failedRounds round log

/-- An outage, since an established connection closed when endpoint `first` was the next to dial:
the timer, the rounds and their budget, the order of the dials, and how it ends. -/
structure Budgeted (c : Config) (budget first : Nat) (s : State) (log : List Act) : Prop where
  timer : s.reconnectTimeout.isSome → ∀ attempt, s.connectPromise ≠ some (.dialing attempt)
  rounds : log.count .fires ≤ budget
  order : dialed log = cyclic c first (dialed log).length
  round : ∀ round ∈ failedRounds [] log, round.Perm (List.range c.endpoints)
  disconnected : log.count .disconnected = 1
  reconnectFailed : log.count .reconnectFailed =
    if (failedRounds [] log).length = budget then 1 else 0
  failed : .reconnectFailed ∈ log → s.connectionState = .failed ∧ s.reconnectTimeout = none
  connected : ∀ endpoint, .connected endpoint ∈ log → s.connectionState = .connected ∧
    s.reconnectTimeout = none ∧ s.reconnectAttempt = 0 ∧
      ∀ attempt, s.connectPromise ≠ some (.dialing attempt)

/-! ## Its shape -/

/-- The log of a round that has dialed so many endpoints. -/
def roundOf (c : Config) (first n : Nat) : List Act := .fires :: (cyclic c first n).map .dials

/-- The log of an outage after so many failed rounds. -/
def roundsOf (c : Config) (first : Nat) : Nat → List Act
  | 0 => [.disconnected]
  | n + 1 => roundsOf c first n ++ roundOf c first c.endpoints ++ [.fails]

/-- Where an outage is. -/
inductive Phase (c : Config) (budget first : Nat) (s : State) (log : List Act) : Prop
  | waiting {n : Nat} (hbudget : n < budget) (htimer : s.reconnectTimeout.isSome)
      (hdial : ∀ dial ∈ s.connectPromise, dial = .returned none)
      (hattempt : s.reconnectAttempt = n) (hindex : s.currentEndpointIndex = first)
      (hstate : s.connectionState ≠ .connected) (hre : s.isReconnecting = true)
      (hdown : s.isShuttingDown = false) (hlanded : ∀ result ∈ s.landed, result = none)
      (hlog : log = roundsOf c first n)
  | dialing {n attempt : Nat} (hbudget : n < budget) (hround : attempt < c.endpoints)
      (htimer : s.reconnectTimeout = none) (hdial : s.connectPromise = some (.dialing attempt))
      (hattempt : s.reconnectAttempt = n + 1)
      (hindex : s.currentEndpointIndex = (first + attempt) % c.endpoints)
      (hstate : s.connectionState ≠ .connected) (hre : s.isReconnecting = true)
      (hdown : s.isShuttingDown = false) (hlanded : s.landed = [])
      (hlog : log = roundsOf c first n ++ roundOf c first (attempt + 1))
  | connected {n attempt : Nat} {after : List Act} (hbudget : n < budget)
      (hround : attempt < c.endpoints) (htimer : s.reconnectTimeout = none)
      (hdial : ∀ dial ∈ s.connectPromise, ∃ result, dial = .returned result)
      (hattempt : s.reconnectAttempt = 0) (hstate : s.connectionState = .connected)
      (hafter : ∀ act ∈ after, act = .reconnected)
      (hlog : log = roundsOf c first n ++ roundOf c first (attempt + 1) ++
        .connected ((first + attempt) % c.endpoints) :: after)
  | gaveUp (htimer : s.reconnectTimeout = none)
      (hdial : ∀ dial ∈ s.connectPromise, dial = .returned none)
      (hstate : s.connectionState = .failed) (hlanded : ∀ result ∈ s.landed, result = none)
      (hlog : log = roundsOf c first budget ++ [.reconnectFailed])

variable {budget first : Nat} {log : List Act}

@[simp] theorem emits_setConnectionState (s : State) (state : ConnectionState) :
    emits (s.setConnectionState state).2 = [] := by
  unfold State.setConnectionState
  split <;> rfl

@[simp] theorem emits_append (out out' : List Emitted) : emits (out ++ out') = emits out ++ emits out' :=
  List.filterMap_append

@[simp] theorem emits_connect (s : State) : emits s.connect.2 = [] := by
  unfold State.connect
  split
  · rfl
  · split
    · rfl
    · exact emits_setConnectionState _ _

@[simp] theorem emits_timerFires (s : State) : emits s.timerFires.2 = [] := by
  unfold State.timerFires
  dsimp only
  split
  · rfl
  · exact emits_connect _

theorem emits_dialSucceeds (h : s.isShuttingDown = false) (connection : Nat) :
    emits (s.dialSucceeds connection).2 = [.connected s.currentEndpointIndex] := by
  unfold State.dialSucceeds
  rw [if_neg (by simp [h])]
  dsimp only
  rw [emits_append, emits_setConnectionState, setConnectionState_fst]
  rfl

theorem emits_scheduleReconnect (s : State) (c : Config) : emits (s.scheduleReconnect c).2 =
    if c.exhausted s.reconnectAttempt then [.reconnectFailed] else [] := by
  unfold State.scheduleReconnect
  dsimp only [State.clearReconnectTimeout]
  split
  · rw [emits_append, emits_setConnectionState]
    rfl
  · rfl

/-- The loss is announced once, and so is its end when the budget is spent. -/
theorem emits_startReconnection (h : s.isShuttingDown = false) (c : Config) :
    emits (s.startReconnection c).2 = (if s.isReconnecting then [] else [.disconnected]) ++
      if c.exhausted s.reconnectAttempt then [.reconnectFailed] else [] := by
  unfold State.startReconnection
  rw [if_neg (by simp [h])]
  split
  · exact emits_scheduleReconnect s c
  · dsimp only
    rw [emits_append, emits_append, emits_setConnectionState, emits_scheduleReconnect,
      setConnectionState_fst]
    rfl

theorem exhausted_eq (hc : c.maxReconnectAttempts = some budget) (n : Nat) :
    c.exhausted n = decide (budget ≤ n) := by
  rw [Config.exhausted, hc]
  rfl

theorem roundOf_succ (c : Config) (first n : Nat) :
    roundOf c first (n + 1) = roundOf c first n ++ [.dials ((first + n) % c.endpoints)] := by
  rw [roundOf, roundOf, cyclic, cyclic, List.range_succ, List.map_append, List.map_append]
  rfl

/-- The outage has lost one more round, or its first: it waits for the timer, or gives up. -/
theorem phase_retrying (hc : c.maxReconnectAttempts = some budget) (hbudget : s.reconnectAttempt ≤ budget)
    (hdial : ∀ dial ∈ s.connectPromise, dial = .returned none)
    (hindex : s.currentEndpointIndex = first)
    (hstate : s.isReconnecting = true → s.connectionState ≠ .connected)
    (hdown : s.isShuttingDown = false) (hlanded : s.landed = []) :
    Phase c budget first (s.retrying c) (roundsOf c first s.reconnectAttempt ++
      if c.exhausted s.reconnectAttempt then [.reconnectFailed] else []) := by
  rw [exhausted_eq hc]
  by_cases hspent : budget ≤ s.reconnectAttempt
  · have hretrying : s.retrying c = { s with
        isReconnecting := false, reconnectTimeout := none, connectionState := .failed } := by
      rw [State.retrying, if_pos (by rw [exhausted_eq hc]; exact decide_eq_true hspent)]
    rw [hretrying, if_pos (decide_eq_true hspent), Nat.le_antisymm hbudget hspent]
    refine .gaveUp rfl hdial rfl (fun result hresult => ?_) rfl
    dsimp only at hresult
    rw [hlanded] at hresult
    cases hresult
  · have hretrying : s.retrying c = { s with
        isReconnecting := true
        reconnectTimeout := some (c.delay s.reconnectAttempt)
        connectionState := if s.isReconnecting then s.connectionState else .reconnecting } := by
      rw [State.retrying, if_neg (by rw [exhausted_eq hc]; simpa using hspent)]
    have hleft : decide (budget ≤ s.reconnectAttempt) = false := decide_eq_false hspent
    rw [hretrying, hleft, if_neg Bool.false_ne_true, List.append_nil]
    refine .waiting (Nat.lt_of_not_le hspent) rfl hdial rfl hindex ?_ rfl hdown
      (fun result hresult => ?_) rfl
    · dsimp only
      split
      · next hre => exact hstate hre
      · simp
    · dsimp only at hresult
      rw [hlanded] at hresult
      cases hresult

/-- An established connection closes. -/
theorem phase_closes (hc : c.maxReconnectAttempts = some budget) (h : Fresh c s) {x : Nat}
    (hx : s.Watches x) {r : State × List Emitted} (H : Steps c s (.connectionCloses x) r) :
    Phase c budget s.currentEndpointIndex r.1 (acts (.connectionCloses x) s r.1 r.2) := by
  cases H with
  | @connectionCloses _ amqp hquiet hconn hlive =>
    have hup := h.up x hx
    have hw : amqp.watched ∧ s.isShuttingDown = false := ⟨hx.2 amqp hconn, hup.isShuttingDown⟩
    have hdial : s.connectPromise = none :=
      hup.connectPromise.resolve_right fun ⟨result, hr⟩ => not_returned_of_quiet hquiet result hr
    unfold State.connectionCloses
    dsimp only
    rw [if_pos hw, startReconnection_fst (by exact hw.2)]
    have hacts : ∀ (t : State) out, t.connectPromise = none →
        acts (.connectionCloses x) s t out = emits out := by
      intro t out ht
      rw [acts, if_neg nofun, hdial, ht]
      rfl
    rw [hacts _ _ (by rw [retrying_frame]; exact hdial), emits_startReconnection (by exact hw.2)]
    dsimp only
    rw [hup.isReconnecting, if_neg Bool.false_ne_true, hup.reconnectAttempt]
    have hphase := phase_retrying (s := { s with
      connections := s.connections.set x { amqp with live := false }
      connection := none }) hc (by rw [hup.reconnectAttempt]; exact Nat.zero_le _)
      (by rw [hdial]; exact nofun) rfl (by rw [hup.isReconnecting]; exact nofun) hw.2
      (landed_of_quiet hquiet)
    dsimp only at hphase
    rw [hup.reconnectAttempt, hup.isReconnecting] at hphase
    exact hphase

/-- With no dial started or ended, a step shows its events. -/
theorem acts_same {event : Event} (hevent : event ≠ .timerFires) {t : State}
    (hsame : t.connectPromise = s.connectPromise) (out : List Emitted) :
    acts event s t out = emits out := by
  rw [acts, if_neg hevent, hsame]
  rcases s.connectPromise with _ | (attempt | x | _ | result)
  case some.dialing =>
    dsimp only
    rw [if_pos rfl]
    rfl
  all_goals rfl

/-- A phase does not depend on the connections there are. -/
theorem Phase.of_connections (h : Phase c budget first s log) (connections : OrderedMap Nat Amqp) :
    Phase c budget first { s with connections := connections } log := by
  cases h with
  | waiting hbudget htimer hdial hattempt hindex hstate hre hdown hlanded hlog =>
    exact .waiting hbudget htimer hdial hattempt hindex hstate hre hdown hlanded hlog
  | dialing hbudget hround htimer hdial hattempt hindex hstate hre hdown hlanded hlog =>
    exact .dialing hbudget hround htimer hdial hattempt hindex hstate hre hdown hlanded hlog
  | connected hbudget hround htimer hdial hattempt hstate hafter hlog =>
    exact .connected hbudget hround htimer hdial hattempt hstate hafter hlog
  | gaveUp htimer hdial hstate hlanded hlog => exact .gaveUp htimer hdial hstate hlanded hlog

theorem Phase.not_dialing (h : Phase c budget first s log)
    (htimer : s.reconnectTimeout.isSome) (attempt : Nat) :
    s.connectPromise ≠ some (.dialing attempt) := by
  intro hd
  cases h with
  | waiting _ _ hdial => cases hdial _ hd
  | dialing _ _ hnone | connected _ _ hnone | gaveUp hnone =>
    rw [hnone] at htimer
    cases htimer

/-- In a dial, the outage is in a round. -/
theorem Phase.in_round (h : Phase c budget first s log) {attempt : Nat}
    (hd : s.connectPromise = some (.dialing attempt)) :
    ∃ n < budget, attempt < c.endpoints ∧ s.reconnectTimeout = none ∧ s.reconnectAttempt = n + 1 ∧
      s.currentEndpointIndex = (first + attempt) % c.endpoints ∧ s.connectionState ≠ .connected ∧
      s.isReconnecting = true ∧ s.isShuttingDown = false ∧ s.landed = [] ∧
      log = roundsOf c first n ++ roundOf c first (attempt + 1) := by
  cases h with
  | @dialing n attempt' hbudget hround htimer hdial hattempt hindex hstate hre hdown hlanded hlog =>
    cases hdial.symm.trans hd
    exact ⟨n, hbudget, hround, htimer, hattempt, hindex, hstate, hre, hdown, hlanded, hlog⟩
  | waiting _ _ hdial | gaveUp _ hdial => cases hdial _ hd
  | connected _ _ _ hdial =>
    obtain ⟨result, hr⟩ := hdial _ hd
    cases hr

/-- A connection that nobody listens to closes in silence. -/
theorem Phase.connectionCloses (h : Phase c budget first s log) {connection : Nat} {amqp : Amqp}
    (hconn : s.connections.get? connection = some amqp)
    (hevent : Unattended s (.connectionCloses connection)) :
    Phase c budget first (s.connectionCloses c connection amqp).1
      (log ++ acts (.connectionCloses connection) s (s.connectionCloses c connection amqp).1
        (s.connectionCloses c connection amqp).2) := by
  have hcloses : s.connectionCloses c connection amqp =
      ({ s with connections := s.connections.set connection { amqp with live := false } }, []) := by
    unfold State.connectionCloses
    dsimp only
    rw [if_neg fun hw => Bool.noConfusion (hw.1.symm.trans (hevent amqp hconn))]
  have hacts : acts (.connectionCloses connection) s { s with
      connections := s.connections.set connection { amqp with live := false } } [] = [] :=
    acts_same (by nofun) rfl []
  rw [hcloses, hacts, List.append_nil]
  exact h.of_connections _

/-- The outage is over. -/
theorem Phase.dialSucceeds (h : Phase c budget first s log) {attempt : Nat}
    (hdial : s.connectPromise = some (.dialing attempt)) (connection : Nat) :
    Phase c budget first (s.dialSucceeds connection).1
      (log ++ acts (.dialSucceeds connection) s (s.dialSucceeds connection).1
        (s.dialSucceeds connection).2) := by
  obtain ⟨n, hbudget, hround, htimer, hattempt, hindex, hstate, hre, hdown, hlanded, rfl⟩ :=
    h.in_round hdial
  have hacts : acts (.dialSucceeds connection) s (s.dialSucceeds connection).1
      (s.dialSucceeds connection).2 = [.connected ((first + attempt) % c.endpoints)] := by
    rw [acts, if_neg nofun, hdial, emits_dialSucceeds hdown, dialSucceeds_fst hdown, hindex]
    rfl
  rw [hacts, dialSucceeds_fst hdown]
  refine .connected hbudget hround rfl (fun dial hd => ⟨_, (Option.some.inj hd).symm⟩) rfl rfl ?_ rfl
  exact fun act hact => absurd hact List.not_mem_nil

/-- The next endpoint of the round is dialed. -/
theorem Phase.nextDialed (h : Phase c budget first s log) {attempt : Nat}
    (hdial : s.connectPromise = some (.dialing attempt)) (hmore : attempt + 1 < c.endpoints) :
    Phase c budget first (s.dialFails c attempt).1
      (log ++ acts .dialFails s (s.dialFails c attempt).1 (s.dialFails c attempt).2) := by
  obtain ⟨n, hbudget, hround, htimer, hattempt, hindex, hstate, hre, hdown, hlanded, rfl⟩ :=
    h.in_round hdial
  have hnext : (s.currentEndpointIndex + 1) % c.endpoints = (first + (attempt + 1)) % c.endpoints := by
    rw [hindex, Nat.mod_add_mod, Nat.add_assoc]
  have hfails : s.dialFails c attempt = ({ s with
      currentEndpointIndex := (s.currentEndpointIndex + 1) % c.endpoints
      connectPromise := some (.dialing (attempt + 1)) }, []) := by
    rw [State.dialFails]
    dsimp only
    rw [if_pos hmore]
  rw [hfails]
  have hacts : ∀ t : State, t.connectPromise = some (.dialing (attempt + 1)) →
      acts .dialFails s t [] = [.dials t.currentEndpointIndex] := by
    intro t ht
    rw [acts, if_neg nofun, hdial, ht]
    dsimp only
    rw [if_neg (Nat.ne_of_lt (Nat.lt_succ_self attempt))]
    rfl
  rw [hacts _ rfl]
  dsimp only
  rw [hnext, List.append_assoc, ← roundOf_succ]
  exact .dialing hbudget hmore htimer rfl hattempt rfl hstate hre hdown hlanded rfl

/-- The round is lost with its last endpoint. -/
theorem Phase.roundLost (hc : c.maxReconnectAttempts = some budget) (hfirst : first < c.endpoints)
    (h : Phase c budget first s log) {attempt : Nat}
    (hdial : s.connectPromise = some (.dialing attempt)) (hmore : ¬attempt + 1 < c.endpoints) :
    Phase c budget first (s.dialFails c attempt).1
      (log ++ acts .dialFails s (s.dialFails c attempt).1 (s.dialFails c attempt).2) := by
  obtain ⟨n, hbudget, hround, htimer, hattempt, hindex, hstate, hre, hdown, hlanded, rfl⟩ :=
    h.in_round hdial
  have hnext : (s.currentEndpointIndex + 1) % c.endpoints = (first + (attempt + 1)) % c.endpoints := by
    rw [hindex, Nat.mod_add_mod, Nat.add_assoc]
  have hlast : attempt + 1 = c.endpoints := by omega
  have hback : (s.currentEndpointIndex + 1) % c.endpoints = first := by
    rw [hnext, hlast, Nat.add_mod_right, Nat.mod_eq_of_lt hfirst]
  have hfails : s.dialFails c attempt = State.startReconnection { s with
      currentEndpointIndex := (s.currentEndpointIndex + 1) % c.endpoints
      connection := none
      connectPromise := some (.returned none) } c := by
    rw [State.dialFails]
    dsimp only
    rw [if_neg hmore, if_neg (by simp [hdown])]
  rw [hfails, startReconnection_fst (by exact hdown)]
  have hacts : ∀ (t : State) out, t.connectPromise = some (.returned none) →
      acts .dialFails s t out = .fails :: emits out := by
    intro t out ht
    rw [acts, if_neg nofun, hdial, ht]
    rfl
  rw [hacts _ _ (by rw [retrying_frame]), emits_startReconnection (by exact hdown)]
  dsimp only
  rw [hre, if_pos rfl]
  have hphase := phase_retrying (s := { s with
      currentEndpointIndex := (s.currentEndpointIndex + 1) % c.endpoints
      connection := none
      connectPromise := some (.returned none) }) hc (by rw [hattempt]; exact hbudget)
    (fun dial hd => (Option.some.inj hd).symm) hback (fun _ => hstate) hdown hlanded
  dsimp only at hphase
  rw [hattempt, hre, roundsOf] at hphase
  rw [hattempt, hlast]
  simpa only [List.append_assoc, List.nil_append, List.cons_append] using hphase

theorem Phase.dialSettles (h : Phase c budget first s log) {result : Option Nat}
    (hdial : s.connectPromise = some (.returned result)) :
    Phase c budget first (s.dialSettles result)
      (log ++ acts .dialSettles s (s.dialSettles result) []) := by
  have hacts : acts .dialSettles s (s.dialSettles result) [] = [] := by
    rw [acts, if_neg nofun, hdial]
    rfl
  rw [hacts, List.append_nil]
  have hlanded' : (∀ result ∈ s.landed, result = none) → result = none →
      ∀ result' ∈ (s.dialSettles result).landed, result' = none := by
    intro hlanded hresult result' hmem
    rcases List.mem_append.mp hmem with hmem | hmem
    · exact hlanded result' hmem
    · exact (List.eq_of_mem_replicate hmem).trans hresult
  cases h with
  | waiting hbudget htimer hd hattempt hindex hstate hre hdown hlanded hlog =>
    have hresult : result = none := by cases hd _ hdial; rfl
    exact .waiting hbudget htimer nofun hattempt hindex hstate hre hdown
      (hlanded' hlanded hresult) hlog
  | dialing _ _ _ hd => cases hd.symm.trans hdial
  | connected hbudget hround htimer hd hattempt hstate hafter hlog =>
    exact .connected hbudget hround htimer nofun hattempt hstate hafter hlog
  | gaveUp htimer hd hstate hlanded hlog =>
    have hresult : result = none := by cases hd _ hdial; rfl
    exact .gaveUp htimer nofun hstate (hlanded' hlanded hresult) hlog

/-- Only the attempt that connected says so. -/
theorem Phase.attemptResumes (h : Phase c budget first s log) {result : Option Nat} {rest : List (Option Nat)}
    (hlanded : s.landed = result :: rest) :
    Phase c budget first (s.attemptResumes result rest).1
      (log ++ acts .attemptResumes s (s.attemptResumes result rest).1
        (s.attemptResumes result rest).2) := by
  have hmem : result ∈ s.landed := hlanded ▸ List.mem_cons_self
  have hrest : ∀ result ∈ rest, result ∈ s.landed := fun _ hr =>
    hlanded ▸ List.mem_cons_of_mem _ hr
  have hacts : acts .attemptResumes s { s with landed := rest }
      (if result.isSome then [.reconnected] else []) =
        if result.isSome then [.reconnected] else [] := by
    refine (acts_same (by nofun) rfl _).trans ?_
    split <;> rfl
  have hsilent : (∀ result ∈ s.landed, result = none) →
      (if result.isSome then [Act.reconnected] else []) = [] := by
    intro hnone
    rw [hnone result hmem]
    rfl
  rw [State.attemptResumes]
  dsimp only
  cases h with
  | waiting hbudget htimer hd hattempt hindex hstate hre hdown hnone hlog =>
    rw [hacts, hsilent hnone, List.append_nil]
    exact .waiting hbudget htimer hd hattempt hindex hstate hre hdown
      (fun r hr => hnone r (hrest r hr)) hlog
  | dialing _ _ _ _ _ _ _ _ _ hnone => cases hnone.symm.trans hlanded
  | @connected n attempt after hbudget hround htimer hd hattempt hstate hafter hlog =>
    rw [hacts, hlog, List.append_assoc, List.cons_append]
    refine .connected hbudget hround htimer hd hattempt hstate ?_ rfl
    intro act hact
    rcases List.mem_append.mp hact with hact | hact
    · exact hafter act hact
    · split at hact
      · exact List.mem_singleton.mp hact
      · cases hact
  | gaveUp htimer hd hstate hnone hlog =>
    rw [hacts, hsilent hnone, List.append_nil]
    exact .gaveUp htimer hd hstate (fun r hr => hnone r (hrest r hr)) hlog

/-- A new round begins. -/
theorem Phase.timerFires (hfirst : first < c.endpoints) (h : Phase c budget first s log)
    (hquiet : s.pending = false) (harmed : s.reconnectTimeout.isSome) :
    Phase c budget first s.timerFires.1
      (log ++ acts .timerFires s s.timerFires.1 s.timerFires.2) := by
  cases h with
  | dialing _ _ hnone | connected _ _ hnone | gaveUp hnone =>
    rw [hnone] at harmed
    cases harmed
  | @waiting n hbudget htimer hd hattempt hindex hstate hre hdown hlanded hlog =>
    have hidle : s.connectPromise = none := by
      rcases hp : s.connectPromise with _ | dial
      · rfl
      · cases hd dial hp
        exact absurd hp (not_returned_of_quiet hquiet none)
    have hlast := emits_timerFires s
    obtain ⟨dialed, H, heq⟩ := timerFires_cases hstate
    cases H with
    | joins hsome =>
      rw [show ({ s with reconnectTimeout := none, reconnectAttempt := s.reconnectAttempt + 1 } :
        State).connectPromise = none from hidle] at hsome
      cases hsome
    | already _ hconnected => exact absurd hconnected hstate
    | dials =>
      have hacts : acts .timerFires s s.timerFires.1 s.timerFires.2 =
          roundOf c first (0 + 1) := by
        rw [acts, if_pos rfl, hlast, heq, hidle, roundOf_succ, ← hindex, Nat.add_zero,
          Nat.mod_eq_of_lt (hindex ▸ hfirst)]
        rfl
      rw [hacts, heq, hlog]
      have hnone := landed_of_quiet hquiet
      refine .dialing hbudget (Nat.zero_lt_of_lt hfirst) rfl rfl ?_ ?_ nofun hre rfl hnone rfl
      · exact congrArg (· + 1) hattempt
      · exact hindex.trans (Nat.mod_eq_of_lt hfirst).symm

theorem Phase.step (hc : c.maxReconnectAttempts = some budget) (hfirst : first < c.endpoints)
    (h : Phase c budget first s log) {event : Event} (hevent : Unattended s event)
    {r : State × List Emitted} (H : Steps c s event r) :
    Phase c budget first r.1 (log ++ acts event s r.1 r.2) := by
  cases H with
  | connect | disconnect | disconnectCloses => cases hevent
  | connectionCloses _ hconn => exact h.connectionCloses hconn hevent
  | dialSucceeds _ hdial => exact h.dialSucceeds hdial _
  | @dialFails attempt _ hdial =>
    by_cases hmore : attempt + 1 < c.endpoints
    · exact h.nextDialed hdial hmore
    · exact h.roundLost hc hfirst hdial hmore
  | discarded _ hdial =>
    cases h with
    | waiting _ _ hd | gaveUp _ hd => cases hd _ hdial
    | dialing _ _ _ hd => cases hd.symm.trans hdial
    | connected _ _ _ hd =>
      obtain ⟨result, hr⟩ := hd _ hdial
      cases hr
  | dialSettles hdial => exact h.dialSettles hdial
  | attemptResumes hlanded => exact h.attemptResumes hlanded
  | timerFires hquiet harmed => exact h.timerFires hfirst hquiet harmed

/-! ## What the shape says -/

theorem length_cyclic (c : Config) (first n : Nat) : (cyclic c first n).length = n := by
  rw [cyclic, List.length_map, List.length_range]

theorem cyclic_add (c : Config) (first n m : Nat) :
    cyclic c first (n * c.endpoints + m) = cyclic c first (n * c.endpoints) ++ cyclic c first m := by
  rw [cyclic, List.range_add, List.map_append, List.map_map]
  congr 1
  refine List.map_congr_left fun i _ => ?_
  change (first + (n * c.endpoints + i)) % c.endpoints = (first + i) % c.endpoints
  rw [Nat.add_left_comm, Nat.add_comm, Nat.add_mul_mod_self_right]

/-- A full turn is through every endpoint once. -/
theorem cyclic_perm (c : Config) (first : Nat) :
    (cyclic c first c.endpoints).Perm (List.range c.endpoints) := by
  have hnodup : (cyclic c first c.endpoints).Nodup := by
    refine List.Nodup.map_on (fun i hi j hj heq => ?_) List.nodup_range
    exact (Nat.ModEq.add_left_cancel' first heq).eq_of_lt_of_lt (List.mem_range.mp hi)
      (List.mem_range.mp hj)
  refine (List.subperm_of_subset hnodup fun endpoint hmem => ?_).perm_of_length_le ?_
  · obtain ⟨i, hi, rfl⟩ := List.mem_map.mp hmem
    exact List.mem_range.mpr (Nat.mod_lt _ (Nat.zero_lt_of_lt (List.mem_range.mp hi)))
  · rw [length_cyclic, List.length_range]

theorem dialed_append (log log' : List Act) : dialed (log ++ log') = dialed log ++ dialed log' :=
  List.filterMap_append

theorem dialed_dials (l : List Nat) : dialed (l.map .dials) = l := by
  rw [dialed, List.filterMap_map]
  exact List.filterMap_some

theorem dialed_roundOf (c : Config) (first n : Nat) :
    dialed (roundOf c first n) = cyclic c first n := dialed_dials _

theorem dialed_roundsOf (c : Config) (first n : Nat) :
    dialed (roundsOf c first n) = cyclic c first (n * c.endpoints) := by
  induction n with
  | zero =>
    rw [Nat.zero_mul]
    rfl
  | succ n ih =>
    rw [roundsOf, dialed_append, dialed_append, ih, dialed_roundOf, Nat.succ_mul, cyclic_add]
    exact List.append_nil _

theorem failedRounds_dials (round l : List Nat) (log : List Act) :
    failedRounds round (l.map .dials ++ log) = failedRounds (round ++ l) log := by
  induction l generalizing round with
  | nil => rw [List.append_nil]; rfl
  | cons endpoint l ih =>
    rw [List.map_cons, List.cons_append, failedRounds, ih, List.append_assoc]
    rfl

theorem failedRounds_roundsOf (c : Config) (first n : Nat) (log : List Act) :
    failedRounds [] (roundsOf c first n ++ log) =
      List.replicate n (cyclic c first c.endpoints) ++ failedRounds [] log := by
  induction n generalizing log with
  | zero => rfl
  | succ n ih =>
    rw [roundsOf, List.append_assoc, List.append_assoc, ih, roundOf, List.cons_append, failedRounds,
      failedRounds_dials, List.replicate_succ', List.append_assoc]
    rfl

theorem count_dials {act : Act} (hact : ∀ endpoint, act ≠ .dials endpoint) (l : List Nat) :
    (l.map Act.dials).count act = 0 := by
  refine List.count_eq_zero_of_not_mem fun hmem => ?_
  obtain ⟨endpoint, -, heq⟩ := List.mem_map.mp hmem
  exact hact endpoint heq.symm

theorem count_roundsOf (act : Act) (hact : ∀ endpoint, act ≠ .dials endpoint) (n : Nat) :
    (roundsOf c first n).count act = [Act.disconnected].count act + n * [Act.fires, .fails].count act := by
  have hround : (roundOf c first c.endpoints).count act = [Act.fires].count act := by
    rw [roundOf, ← List.singleton_append, List.count_append, count_dials hact, Nat.add_zero]
  have hsplit : [Act.fires, .fails].count act = [Act.fires].count act + [Act.fails].count act := by
    rw [← List.count_append]
    rfl
  induction n with
  | zero => rw [Nat.zero_mul]; rfl
  | succ n ih =>
    rw [roundsOf, List.count_append, List.count_append, ih, hround, Nat.succ_mul, hsplit]
    omega

theorem count_roundOf (act : Act) (hact : ∀ endpoint, act ≠ .dials endpoint) (n : Nat) :
    (roundOf c first n).count act = [Act.fires].count act := by
  rw [roundOf, ← List.singleton_append, List.count_append, count_dials hact, Nat.add_zero]

/-- The log of an outage: its failed rounds, and what follows the last of them. -/
theorem Phase.log_eq (h : Phase c budget first s log) : ∃ n attempts rest,
    log = roundsOf c first n ++ rest ∧ n ≤ budget ∧ dialed rest = cyclic c first attempts ∧
      failedRounds [] rest = [] ∧ rest.count .fires ≤ budget - n ∧ rest.count .disconnected = 0 ∧
      rest.count .reconnectFailed = if n = budget then 1 else 0 := by
  cases h with
  | @waiting n hbudget htimer hdial hattempt hindex hstate hre hdown hlanded hlog =>
    refine ⟨n, 0, [], hlog.trans (List.append_nil _).symm, hbudget.le, rfl, rfl, Nat.zero_le _, rfl, ?_⟩
    rw [if_neg hbudget.ne]
    rfl
  | @dialing n attempt hbudget hround htimer hdial hattempt hindex hstate hre hdown hlanded hlog =>
    refine ⟨n, attempt + 1, _, hlog, hbudget.le, dialed_roundOf .., ?_, ?_, ?_, ?_⟩
    · have hover := failedRounds_dials [] (cyclic c first (attempt + 1)) []
      rw [List.append_nil] at hover
      exact hover
    · rw [count_roundOf .fires nofun]
      exact Nat.sub_pos_of_lt hbudget
    · rw [count_roundOf .disconnected nofun]
      rfl
    · rw [count_roundOf .reconnectFailed nofun, if_neg hbudget.ne]
      rfl
  | @connected n attempt after hbudget hround htimer hdial hattempt hstate hafter hlog =>
    have hquiet : ∀ act, (∀ endpoint, act ≠ .connected endpoint) → act ≠ .reconnected →
        (Act.connected ((first + attempt) % c.endpoints) :: after).count act = 0 := by
      intro act hne hne'
      refine List.count_eq_zero_of_not_mem fun hmem => ?_
      rcases List.mem_cons.mp hmem with heq | hmem
      · exact hne _ heq
      · exact hne' (hafter act hmem)
    refine ⟨n, attempt + 1, _, hlog.trans (List.append_assoc ..), hbudget.le, ?_, ?_, ?_, ?_, ?_⟩
    · have hnone : dialed (.connected ((first + attempt) % c.endpoints) :: after) = [] := by
        refine List.filterMap_eq_nil_iff.mpr fun act hact => ?_
        rcases List.mem_cons.mp hact with rfl | hact
        · rfl
        · rw [hafter act hact]
      rw [dialed_append, dialed_roundOf, hnone, List.append_nil]
    · have hnone : ∀ (after : List Act) round, (∀ act ∈ after, act = .reconnected) →
          failedRounds round after = [] := by
        intro after round hafter
        induction after with
        | nil => cases round <;> rfl
        | cons act after ih =>
          rw [hafter act List.mem_cons_self, failedRounds]
          · exact ih fun act hact => hafter act (List.mem_cons_of_mem _ hact)
          all_goals exact nofun
      rw [roundOf, List.cons_append, failedRounds, failedRounds_dials, failedRounds]
      · exact hnone after _ hafter
      all_goals exact nofun
    · rw [List.count_append, count_roundOf .fires nofun, hquiet .fires nofun nofun]
      exact Nat.sub_pos_of_lt hbudget
    · rw [List.count_append, count_roundOf .disconnected nofun, hquiet .disconnected nofun nofun]
      rfl
    · rw [List.count_append, count_roundOf .reconnectFailed nofun,
        hquiet .reconnectFailed nofun nofun, if_neg hbudget.ne]
      rfl
  | gaveUp htimer hdial hstate hlanded hlog =>
    refine ⟨budget, 0, _, hlog, le_rfl, rfl, rfl, ?_, rfl, ?_⟩
    · exact Nat.zero_le _
    · rw [if_pos rfl]
      rfl

theorem not_mem_roundOf {act : Act} (hfires : act ≠ .fires)
    (hdials : ∀ endpoint, act ≠ .dials endpoint) (n : Nat) : act ∉ roundOf c first n := by
  intro hmem
  rcases List.mem_cons.mp hmem with heq | hmem
  · exact hfires heq
  · obtain ⟨endpoint, -, heq⟩ := List.mem_map.mp hmem
    exact hdials endpoint heq.symm

theorem not_mem_roundsOf {act : Act} (hfires : act ≠ .fires)
    (hdials : ∀ endpoint, act ≠ .dials endpoint) (hfails : act ≠ .fails)
    (hdisconnected : act ≠ .disconnected) (n : Nat) : act ∉ roundsOf c first n := by
  intro hmem
  induction n with
  | zero => exact hdisconnected (List.mem_singleton.mp hmem)
  | succ n ih =>
    rcases List.mem_append.mp hmem with hmem | hmem
    · rcases List.mem_append.mp hmem with hmem | hmem
      · exact ih hmem
      · exact not_mem_roundOf hfires hdials _ hmem
    · exact hfails (List.mem_singleton.mp hmem)

theorem Phase.failed (h : Phase c budget first s log) (hmem : .reconnectFailed ∈ log) :
    s.connectionState = .failed ∧ s.reconnectTimeout = none := by
  have hrounds : ∀ n, Act.reconnectFailed ∉ roundsOf c first n :=
    not_mem_roundsOf nofun nofun nofun nofun
  have hround : ∀ n, Act.reconnectFailed ∉ roundOf c first n := not_mem_roundOf nofun nofun
  cases h with
  | waiting _ _ _ _ _ _ _ _ _ hlog => exact absurd (hlog ▸ hmem) (hrounds _)
  | dialing _ _ _ _ _ _ _ _ _ _ hlog =>
    rcases List.mem_append.mp (hlog ▸ hmem) with hmem | hmem
    · exact absurd hmem (hrounds _)
    · exact absurd hmem (hround _)
  | connected _ _ _ _ _ _ hafter hlog =>
    rcases List.mem_append.mp (hlog ▸ hmem) with hmem | hmem
    · rcases List.mem_append.mp hmem with hmem | hmem
      · exact absurd hmem (hrounds _)
      · exact absurd hmem (hround _)
    · rcases List.mem_cons.mp hmem with heq | hmem
      · cases heq
      · cases hafter _ hmem
  | gaveUp htimer _ hstate => exact ⟨hstate, htimer⟩

theorem Phase.up (h : Phase c budget first s log) {endpoint : Nat}
    (hmem : .connected endpoint ∈ log) : s.connectionState = .connected ∧
      s.reconnectTimeout = none ∧ s.reconnectAttempt = 0 ∧
      ∀ attempt, s.connectPromise ≠ some (.dialing attempt) := by
  have hrounds : ∀ n, Act.connected endpoint ∉ roundsOf c first n :=
    not_mem_roundsOf nofun nofun nofun nofun
  have hround : ∀ n, Act.connected endpoint ∉ roundOf c first n := not_mem_roundOf nofun nofun
  cases h with
  | waiting _ _ _ _ _ _ _ _ _ hlog => exact absurd (hlog ▸ hmem) (hrounds _)
  | dialing _ _ _ _ _ _ _ _ _ _ hlog =>
    rcases List.mem_append.mp (hlog ▸ hmem) with hmem | hmem
    · exact absurd hmem (hrounds _)
    · exact absurd hmem (hround _)
  | connected _ _ htimer hdial hattempt hstate =>
    refine ⟨hstate, htimer, hattempt, fun attempt hd => ?_⟩
    obtain ⟨_, hr⟩ := hdial _ hd
    cases hr
  | gaveUp _ _ _ _ hlog =>
    rcases List.mem_append.mp (hlog ▸ hmem) with hmem | hmem
    · exact absurd hmem (hrounds _)
    · cases List.mem_singleton.mp hmem

theorem Phase.budgeted (h : Phase c budget first s log) : Budgeted c budget first s log := by
  obtain ⟨n, attempts, rest, hlog, hn, hdialed, hfailed, hfires, hlost, hgaveUp⟩ := h.log_eq
  have hrounds : failedRounds [] log = List.replicate n (cyclic c first c.endpoints) := by
    rw [hlog, failedRounds_roundsOf, hfailed, List.append_nil]
  have hall : dialed log = cyclic c first (n * c.endpoints + attempts) := by
    rw [hlog, dialed_append, dialed_roundsOf, hdialed, cyclic_add]
  refine ⟨h.not_dialing, ?_, ?_, fun round hround => ?_, ?_, ?_, h.failed, fun _ => h.up⟩
  · rw [hlog, List.count_append, count_roundsOf .fires nofun]
    have hone : [Act.disconnected].count .fires + n * [Act.fires, .fails].count .fires = n := by
      change 0 + n * 1 = n
      omega
    rw [hone]
    omega
  · rw [hall, length_cyclic]
  · rw [hrounds] at hround
    exact List.eq_of_mem_replicate hround ▸ cyclic_perm c first
  · rw [hlog, List.count_append, count_roundsOf .disconnected nofun, hlost]
    change 1 + n * 0 + 0 = 1
    omega
  · rw [hrounds, List.length_replicate, hlog, List.count_append, count_roundsOf .reconnectFailed nofun, hgaveUp]
    change 0 + n * 0 + _ = _
    omega

/-- After an established connection closes, whatever was done before, and as long as nobody calls
`connect` or `disconnect`: no timer is armed during a dial; it fires once a round, within the budget;
the dials are in the cyclic order of the endpoints, one for each endpoint in every round that failed;
the loss is announced once; the connection gives up, once, if and only if the rounds of the whole
budget failed; and a dial that succeeds ends the rounds and resets the budget. -/
theorem reconnect_budget (hc : c.maxReconnectAttempts = some budget) (hends : 0 < c.endpoints)
    {s₀ : State} (hr : Reach (next c) anyStep start s₀) {x : Nat} (hx : s₀.Watches x)
    {closed : State × List Act} (hs : observed c s₀ (.connectionCloses x) = some closed)
    {w : State × List Act}
    (hw : Reach (logged (observed c)) (fun w event => Unattended w.1 event) closed w) :
    Budgeted c budget s₀.currentEndpointIndex w.1 w.2 := by
  have hfresh := fresh_of_reach hends hr
  obtain ⟨r, hstep, rfl⟩ := Option.map_eq_some_iff.mp hs
  have hphase := phase_closes hc hfresh hx (step_cases hstep)
  refine Phase.budgeted (hw.invariant
    (I := fun w => Phase c budget s₀.currentEndpointIndex w.1 w.2) hphase fun h hok hnext => ?_)
  obtain ⟨t, out, hobserved, rfl⟩ := logged_eq_some hnext
  obtain ⟨r, hstep, heq⟩ := Option.map_eq_some_iff.mp hobserved
  obtain ⟨rfl, rfl⟩ := Prod.mk.inj heq
  exact h.step hc hfresh.index hok (step_cases hstep)

private def twoNodes : Config := ⟨2, 1000, 30000, some 2⟩

/-- One round fails; the first dial of the second round succeeds. -/
theorem reconnect_budget_run : ∃ w : State × List Act, Budgeted twoNodes 2 0 w.1 w.2 ∧
    w.2 = [.disconnected, .fires, .dials 0, .dials 1, .fails, .fires, .dials 0, .connected 0,
      .reconnected] := by
  have hrun : (run (next twoNodes) anyStep start [.connect, .dialSucceeds 0, .dialSettles]).any
      fun s => decide (s.currentEndpointIndex = 0 ∧ s.connection = some 0 ∧
          s.connections.get? 0 = some ⟨true, false, true⟩) &&
        (observed twoNodes s (.connectionCloses 0)).any fun closed =>
          (run (logged (observed twoNodes)) (fun w event => Unattended w.1 event) closed
            [.timerFires, .dialFails, .dialFails, .dialSettles, .attemptResumes, .timerFires,
              .dialSucceeds 1, .dialSettles, .attemptResumes]).any fun w =>
            decide (w.2 = [.disconnected, .fires, .dials 0, .dials 1, .fails, .fires, .dials 0,
              .connected 0, .reconnected]) := by
    decide +kernel
  obtain ⟨s, hs, h⟩ := (Option.any_eq_true _ _).mp hrun
  obtain ⟨hestablished, h⟩ := (Bool.and_eq_true _ _).mp h
  obtain ⟨hindex, hconn, hget⟩ := of_decide_eq_true hestablished
  obtain ⟨closed, hcloses, h⟩ := (Option.any_eq_true _ _).mp h
  obtain ⟨w, hw, hlog⟩ := (Option.any_eq_true _ _).mp h
  have hx : s.Watches 0 := ⟨hconn, fun amqp ha => by cases hget.symm.trans ha; rfl⟩
  have hbudgeted := reconnect_budget rfl (by decide) (reach_of_run hs) hx hcloses (reach_of_run hw)
  rw [hindex] at hbudgeted
  exact ⟨w, hbudgeted, of_decide_eq_true hlog⟩

end Connection
end RabbitMQ

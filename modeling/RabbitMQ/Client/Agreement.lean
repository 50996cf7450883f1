import RabbitMQ.Client.Truthful
import RabbitMQ.Client.Waiters

/-! The installed pool and the connection that is held.

A restore installs its pool under an identity test on the connection, so the two agree at that
moment. A connection that drops takes the pool along; one that `disconnect` closes, or that a dial
replaces, does not. -/

namespace RabbitMQ
namespace Client

open Transition

variable {c : Config} {s s' : State}

/-- The restore is still in progress. -/
def State.unsettled (s : State) (restore : Nat) : Bool :=
  (s.restores.get? restore).any fun r => !r.stage.isSettled

/-- The installed pool belongs to a restore that is still in progress. -/
def State.Provisional (s : State) : Prop := ∀ pool ∈ s.channelPool, s.unsettled pool.restore

instance (s : State) : Decidable s.Provisional :=
  inferInstanceAs (Decidable (∀ pool ∈ s.channelPool, _))

/-- No connection is taken away silently from under a pool whose restore is over, and a restore that
ends well with its pool installed still has its connection. -/
def Grounded (c : Config) (s : State) : Event → Prop
  | .connectionClosed _ => s.Provisional
  | .connection (.dialSucceeds _) => s.connection.isShuttingDown = false → s.Provisional
  | .connection .dialFails =>
    s.connection.isShuttingDown → s.lastEndpoint c → s.Provisional
  | .recreated restore => ∀ pool ∈ s.channelPool, pool.restore = restore →
    s.connection.connection = some pool.connection
  | _ => True

instance (c : Config) (s : State) (event : Event) : Decidable (Grounded c s event) :=
  match event with
  | .connectionClosed _ | .connection (.dialSucceeds _) | .connection .dialFails | .recreated _ => by
    dsimp only [Grounded]; infer_instance
  | .connection .connect | .connection (.disconnect _) | .connection .discarded
  | .connection .dialSettles | .connection .attemptResumes | .connection .timerFires
  | .connection (.connectionCloses _) | .connection (.disconnectCloses _) | .connect ..
  | .disconnect _ | .dialSettles | .connectResumes | .connectTimesOut | .poolInitialized ..
  | .exchangeAsserted .. | .poolClosed _ | .reconnectionResumes _ | .disposed ..
  | .channelPoolClosed _ => instDecidableTrue

structure Built (s : State) : Prop where
  fresh : ∀ restore ∈ s.restores, restore < s.nextRestore
  vacant : s.connection.isReconnecting →
    s.connection.connection = none ∧ s.restorePromise = none ∧ s.channelPool = none
  built : ∀ pool, s.channelPool = some pool → ∃ stage,
    s.restores.get? pool.restore = some ⟨some pool.connection, stage⟩ ∧ stage.pastFence
  agrees : ∀ pool, s.channelPool = some pool →
    s.connection.connection = some pool.connection ∨ s.unsettled pool.restore

theorem built_start : Built start := ⟨nofun, nofun, nofun, nofun⟩

/-! ## What leaves the restores alone -/

theorem Built.update (h : Built s) {conn : Connection.State} {pool : Option Pool}
    {slot : Option Nat} {reconnections : List Nat} {connectCall : Option ConnectCall}
    {disconnects : OrderedMap Nat DisconnectStage} {log : List Output}
    (hvacant : conn.isReconnecting → conn.connection = none ∧ slot = none ∧ pool = none)
    (hpool : ∀ p, pool = some p → s.channelPool = some p ∧
      (conn.connection = s.connection.connection ∨ s.unsettled p.restore)) :
    Built { s with
      connection := conn
      channelPool := pool
      restorePromise := slot
      reconnections
      connectCall
      disconnects
      log } where
  fresh := h.fresh
  vacant := hvacant
  built p hp := h.built p (hpool p hp).1
  agrees p hp := by
    obtain ⟨hbefore, hconn | hunsettled⟩ := hpool p hp
    · rw [hconn]
      exact h.agrees p hbefore
    · exact .inr hunsettled

/-- The connection is as it was, up to its own bookkeeping. -/
theorem Built.same (h : Built s) {conn : Connection.State} {reconnections : List Nat}
    {connectCall : Option ConnectCall} {disconnects : OrderedMap Nat DisconnectStage}
    {log : List Output} (hconn : conn.connection = s.connection.connection)
    (hre : conn.isReconnecting → s.connection.isReconnecting) :
    Built { s with connection := conn, reconnections, connectCall, disconnects, log } := by
  refine h.update (fun hr => ?_) fun p hp => ⟨hp, .inl hconn⟩
  rw [hconn]
  exact h.vacant (hre hr)

theorem Built.relog (h : Built s) {reconnections : List Nat} {connectCall : Option ConnectCall}
    {disconnects : OrderedMap Nat DisconnectStage} {log : List Output} :
    Built { s with reconnections, connectCall, disconnects, log } :=
  h.same rfl id

theorem Built.absorb_calm (h : Built s) {r : Connection.State × List Connection.Emitted}
    (hcalm : ∀ e ∈ r.2, e.calm) (hconn : r.1.connection = s.connection.connection)
    (hre : r.1.isReconnecting → s.connection.isReconnecting) : Built (s.absorb r) := by
  obtain ⟨shown, heq, -⟩ := Client.absorb_calm s hcalm
  rw [heq]
  exact h.same hconn hre

/-- A connection is installed or given up, and no listener touches the pool. -/
theorem Built.absorb_provisional (h : Built s) {r : Connection.State × List Connection.Emitted}
    (hcalm : ∀ e ∈ r.2, e.calm) (hprovisional : s.Provisional)
    (hre : r.1.isReconnecting → s.connection.isReconnecting ∧ r.1.connection = none) :
    Built (s.absorb r) := by
  obtain ⟨shown, heq, -⟩ := Client.absorb_calm s hcalm
  rw [heq]
  refine h.update (fun hr => ?_) fun p hp => ⟨hp, .inr (hprovisional p hp)⟩
  obtain ⟨hbefore, hnone⟩ := hre hr
  exact ⟨hnone, (h.vacant hbefore).2⟩

/-- A connection that is lost takes the pool along. -/
theorem Built.losing (h : Built s) (c : Connection.Config) {conn : Connection.State}
    (hlost : conn.connection = none) (hr : conn.isReconnecting = s.connection.isReconnecting) :
    Built (s.losing c conn) := by
  have hnothing : conn.isReconnecting → s.restorePromise = none ∧ s.channelPool = none :=
    fun hre => (h.vacant (hr ▸ hre)).2
  obtain ⟨call, shown, heq, -⟩ := losing_eq c hnothing
  have hnone : (conn.retrying c).connection = none := by
    rw [Connection.retrying_frame conn c]
    exact hlost
  rw [heq]
  exact h.update (fun _ => ⟨hnone, rfl, rfl⟩) nofun

theorem Built.emit (h : Built s) (o : Output) : Built (s.emit o) := h.relog

theorem Built.abortWaiter (h : Built s) (error : ConnectError) : Built (s.abortWaiter error) := by
  rcases abortWaiter_cases s error with ⟨-, heq⟩ | ⟨_, callers, -, heq⟩
  · rw [heq]
    exact h
  · rw [heq]
    exact h.relog

theorem Built.emitReconnected (h : Built s) : Built s.emitReconnected := by
  unfold State.emitReconnected
  dsimp only
  split
  · exact h.relog
  · exact h.relog

/-! ## Restores -/

/-- A restore that begins has a number of its own. -/
theorem Built.begin (h : Built s) {r : Restore} {slot : Option Nat}
    (hslot : s.connection.isReconnecting → slot = none) :
    Built { s with
      restores := s.restores.set s.nextRestore r
      nextRestore := s.nextRestore + 1
      restorePromise := slot } := by
  have hother : ∀ pool, s.channelPool = some pool →
      (s.restores.set s.nextRestore r).get? pool.restore = s.restores.get? pool.restore := by
    intro pool hpool
    obtain ⟨_, hget, -⟩ := h.built pool hpool
    have hlt := h.fresh _ (OrderedMap.mem_of_get? hget)
    rw [OrderedMap.get?_set, if_neg (Nat.ne_of_lt hlt)]
  refine ⟨?_, ?_, ?_, ?_⟩
  · intro restore hmem
    rcases OrderedMap.mem_set.mp hmem with rfl | hmem
    · exact Nat.lt_succ_self _
    · exact Nat.lt_succ_of_lt (h.fresh restore hmem)
  · intro hre
    exact ⟨(h.vacant hre).1, hslot hre, (h.vacant hre).2.2⟩
  · intro pool hpool
    rw [hother pool hpool]
    exact h.built pool hpool
  · intro pool hpool
    simp only [State.unsettled, hother pool hpool]
    exact h.agrees pool hpool

theorem Built.restoreState (h : Built s) : Built s.restoreState.1 := by
  unfold State.restoreState
  split
  · exact h
  · next hslot =>
    dsimp only
    split
    · exact h.begin fun _ => hslot
    · next conn hconn =>
      refine h.begin fun hre => ?_
      cases hconn.symm.trans (h.vacant hre).1

theorem Built.handleReconnection (h : Built s) : Built s.handleReconnection := by
  have hk := h.restoreState
  unfold State.handleReconnection
  generalize s.restoreState = r at hk ⊢
  exact hk.relog

/-- A restore moves on, with its own pool or with that of another one. -/
theorem Built.setRestore (h : Built s) {restore conn : Nat} {old stage : RestoreStage}
    (hold : s.restores.get? restore = some ⟨some conn, old⟩) {pool : Option Pool}
    (hvacant : s.connection.isReconnecting → pool = none)
    (hpool : ∀ p, pool = some p →
      p = ⟨restore, conn⟩ ∧ stage.pastFence ∧ stage.isSettled = false ∨
        p.restore ≠ restore ∧ s.channelPool = some p) :
    Built ({ s with channelPool := pool }.setRestore restore ⟨some conn, stage⟩) := by
  refine ⟨?_, ?_, ?_, ?_⟩
  · intro r hmem
    rcases OrderedMap.mem_set.mp hmem with rfl | hmem
    · exact h.fresh r (OrderedMap.mem_of_get? hold)
    · exact h.fresh r hmem
  · intro hre
    exact ⟨(h.vacant hre).1, (h.vacant hre).2.1, hvacant hre⟩
  · intro p hp
    rcases hpool p hp with ⟨rfl, hpast, -⟩ | ⟨hne, hbefore⟩
    · exact ⟨stage, OrderedMap.get?_set_self _ _ _, hpast⟩
    · simp only [State.setRestore, OrderedMap.get?_set, if_neg hne]
      exact h.built p hbefore
  · intro p hp
    rcases hpool p hp with ⟨rfl, -, hunsettled⟩ | ⟨hne, hbefore⟩
    · right
      simp only [State.unsettled, State.setRestore, OrderedMap.get?_set_self, Option.any_some,
        hunsettled, Bool.not_false]
    · simp only [State.unsettled, State.setRestore, OrderedMap.get?_set, if_neg hne]
      exact h.agrees p hbefore

/-- The pool of a restore in another stage is not the one that is installed. -/
theorem Built.other (h : Built s) {restore : Nat} {conn : Option Nat} {stage : RestoreStage}
    (hr : s.restores.get? restore = some ⟨conn, stage⟩) (hstage : stage.pastFence = false)
    {pool : Pool} (hpool : s.channelPool = some pool) : pool.restore ≠ restore := by
  rintro rfl
  obtain ⟨_, hget, hpast⟩ := h.built pool hpool
  cases hr.symm.trans hget
  rw [hstage] at hpast
  cases hpast

/-- A restore is over; its pool is gone, or is built on the connection that is held. -/
theorem Built.settleRestore (h : Built s) {restore : Nat} {conn : Option Nat} {old : RestoreStage}
    (hold : s.restores.get? restore = some ⟨conn, old⟩) {ok : Bool}
    (hpool : ∀ p, s.channelPool = some p → p.restore = restore →
      ok = true ∧ s.connection.connection = some p.connection) :
    Built (s.settleRestore restore conn ok) := by
  refine ⟨?_, ?_, ?_, ?_⟩
  · intro r hmem
    rcases OrderedMap.mem_set.mp hmem with rfl | hmem
    · exact h.fresh r (OrderedMap.mem_of_get? hold)
    · exact h.fresh r hmem
  · intro hre
    obtain ⟨hconn, hslot, hnone⟩ := h.vacant hre
    refine ⟨hconn, ?_, hnone⟩
    simp [State.settleRestore, hslot]
  · intro p hp
    obtain ⟨stage, hget, hpast⟩ := h.built p hp
    simp only [State.settleRestore, OrderedMap.get?_set]
    split
    · next heq =>
      obtain ⟨rfl, -⟩ := hpool p hp heq
      subst heq
      cases hold.symm.trans hget
      exact ⟨_, rfl, rfl⟩
    · exact ⟨stage, hget, hpast⟩
  · intro p hp
    by_cases heq : p.restore = restore
    · exact .inl (hpool p hp heq).2
    · simp only [State.unsettled, State.settleRestore, OrderedMap.get?_set, if_neg heq]
      exact h.agrees p hp

/-! ## Steps -/

theorem Built.connection (h : Built s) {event : Connection.Event}
    {r : Connection.State × List Connection.Emitted} (hok : Grounded c s (.connection event))
    (hown : event ≠ .connect ∧ (∀ call, event ≠ .disconnect call) ∧ event ≠ .dialSettles ∧
      ∀ call, event ≠ .disconnectCloses call)
    (H : Connection.Steps c.toConfig s.connection event r) : Built (s.absorb r) := by
  cases H with
  | connect => exact absurd rfl hown.1
  | disconnect => exact absurd rfl (hown.2.1 _)
  | dialSettles => exact absurd rfl hown.2.2.1
  | disconnectCloses => exact absurd rfl (hown.2.2.2 _)
  | @dialSucceeds connection attempt hq hdial hfresh =>
    cases hdown : s.connection.isShuttingDown with
    | true =>
      unfold Connection.State.dialSucceeds
      rw [if_pos hdown]
      exact h.absorb_calm (by simp) rfl id
    | false =>
      refine h.absorb_provisional (Connection.dialSucceeds_calm _ _) (hok hdown) ?_
      rw [Connection.dialSucceeds_fst hdown]
      simp
  | @dialFails attempt hq hdial =>
    unfold Connection.State.dialFails
    dsimp only
    split
    · exact h.absorb_calm (by simp) rfl id
    · next hlast =>
      split
      · next hdown =>
        have hprovisional : s.Provisional :=
          hok hdown (by simpa [State.lastEndpoint, hdial] using hlast)
        refine h.absorb_provisional (Connection.setConnectionState_calm _ _) hprovisional ?_
        rw [Connection.setConnectionState_fst]
        exact fun hre => ⟨hre, rfl⟩
      · next hdown =>
        rw [absorb_startReconnection _ _ (by simpa using hdown)]
        exact h.losing c.toConfig rfl rfl
  | @discarded connection hq hdial =>
    refine h.absorb_calm (Connection.setConnectionState_calm _ _) ?_ ?_
    · simp [Connection.State.discarded]
    · simp [Connection.State.discarded]
  | @attemptResumes result rest hlanded =>
    have hup : Built { s with connection := { s.connection with landed := rest } } := h.same rfl id
    cases result with
    | none => exact hup
    | some x => exact hup.handleReconnection
  | timerFires hq harmed =>
    obtain ⟨-, hconn, hre⟩ := Connection.timerFires_same s.connection
    exact h.absorb_calm (Connection.timerFires_calm _) hconn fun hr => hre ▸ hr
  | @connectionCloses connection amqp hq hconn hlive =>
    unfold Connection.State.connectionCloses
    dsimp only
    split
    · next hwatched =>
      rw [absorb_startReconnection _ _ (by exact hwatched.2)]
      exact h.losing c.toConfig rfl rfl
    · exact h.absorb_calm (by simp) rfl id

theorem Built.connect (h : Built s) (caller : Nat) (options : ConnectOptions) :
    Built (s.connect caller options) := by
  unfold State.connect
  split
  · exact h.relog
  · have H := Connection.connect_cases s.connection
    have hcall : Built { s with connectCall := some ⟨options, [caller], .dialing⟩ } := h.relog
    exact hcall.absorb_calm (Connection.connect_calm _) H.same.1 fun hr => H.same.2 ▸ hr

theorem Built.connectDialed (h : Built s) (options : ConnectOptions) (callers : List Nat)
    (result : Option Nat) : Built (s.connectDialed options callers result) := by
  unfold State.connectDialed
  split
  · split
    · exact h.relog
    · have hk := h.restoreState
      exact hk.relog
  · split
    · exact h.relog
    · split <;> exact h.relog

/-- The identity test: the pool is installed only on the connection that is held. -/
theorem Built.poolInitialized (h : Built s) {restore connection : Nat}
    (hr : s.restores.get? restore = some ⟨some connection, .opening⟩) :
    Built (s.poolInitialized c restore connection) := by
  unfold State.poolInitialized
  split
  · next hconn =>
    refine h.setRestore hr (fun hre => ?_) fun p hp => .inl ⟨(Option.some_inj.mp hp).symm, ?_⟩
    · cases hconn.symm.trans (h.vacant hre).1
    · split <;> exact ⟨rfl, rfl⟩
  · exact h.setRestore hr (fun hre => (h.vacant hre).2.2) fun p hp => .inr ⟨h.other hr rfl hp, hp⟩

theorem Built.exchangeFails (h : Built s) {restore connection : Nat}
    (hr : s.restores.get? restore = some ⟨some connection, .exchange⟩) :
    Built (s.exchangeFails restore connection) := by
  unfold State.exchangeFails
  split
  · exact h.setRestore hr (fun _ => rfl) nofun
  · next hpool =>
    refine h.settleRestore hr fun p hp heq => ?_
    obtain ⟨_, hget, -⟩ := h.built p hp
    obtain ⟨r, conn⟩ := p
    cases heq
    cases hr.symm.trans hget
    exact absurd hp hpool

theorem Built.reconnectionRestored (h : Built s) (restore : Nat) (ok : Bool) :
    Built (s.reconnectionRestored restore ok) := by
  have hk : Built { s with reconnections := s.reconnections.erase restore } := h.relog
  unfold State.reconnectionRestored
  cases ok with
  | true => exact hk.emitReconnected
  | false => exact (hk.emit .reconnectError).abortWaiter .restoreFailed

theorem Built.disconnected (h : Built s) (call : Nat) (clean : Bool) :
    Built (s.disconnected call clean) := by
  unfold State.disconnected
  cases clean with
  | true => exact h.relog
  | false => exact h.relog

theorem Built.disconnectConnection (h : Built s) (call : Nat) (clean : Bool) :
    Built (s.disconnectConnection call clean) := by
  obtain ⟨hsame, hre⟩ := Connection.disconnect_fst s.connection call
  have hk : Built (s.absorb (s.connection.disconnect call)) :=
    h.absorb_calm (Connection.disconnect_calm _ _) hsame (by simp [hre])
  unfold State.disconnectConnection
  dsimp only
  split
  · exact hk.relog
  · exact hk.disconnected call clean

theorem Built.connectionClosed (h : Built s) (hprovisional : s.Provisional) (call connection : Nat)
    (clean : Bool) : Built (s.connectionClosed call connection clean) := by
  refine Built.disconnected ?_ call clean
  unfold Connection.State.disconnectCloses
  refine h.absorb_provisional (Connection.setConnectionState_calm _ _) hprovisional ?_
  rw [Connection.setConnectionState_fst]
  exact fun hre => ⟨hre, rfl⟩

theorem Steps.built {event : Event} (H : Steps c s event s') (hok : Grounded c s event)
    (h : Built s) : Built s' := by
  cases H with
  | connect => exact h.connect _ _
  | disconnect hfresh =>
    have hk := (h.emit .disconnecting).abortWaiter .aborted
    exact hk.relog
  | connection hquiet hown H => exact h.connection hok hown H
  | dialSettles hdial => exact h.same rfl id
  | connectDialed hcall => exact h.connectDialed _ _ _
  | connectRestored hcall hr => exact h.relog
  | connectTimesOut hquiet hcall htimed => exact h.abortWaiter _
  | poolInitialized hquiet hr => exact h.poolInitialized hr
  | poolFails hquiet hr =>
    exact h.settleRestore hr fun p hp heq => absurd heq (h.other hr rfl hp)
  | @exchangeAsserted restore connection hquiet hr hlive =>
    refine h.setRestore hr (fun hre => (h.vacant hre).2.2) fun p hp => ?_
    by_cases heq : p.restore = restore
    · obtain ⟨_, hget, -⟩ := h.built p hp
      obtain ⟨r, conn⟩ := p
      cases heq
      cases hr.symm.trans hget
      exact .inl ⟨rfl, rfl, rfl⟩
    · exact .inr ⟨heq, hp⟩
  | exchangeFails hquiet hr => exact h.exchangeFails hr
  | recreated hquiet hr => exact h.settleRestore hr fun p hp heq => ⟨rfl, hok p hp heq⟩
  | poolClosed hquiet hr =>
    exact h.settleRestore hr fun p hp heq => absurd heq (h.other hr rfl hp)
  | reconnectionResumes hr hmem => exact h.reconnectionRestored _ _
  | @disposed call throws hcall =>
    unfold State.disposed
    split
    · exact h.disconnectConnection call false
    · split
      · exact h.relog
      · exact h.disconnectConnection call true
  | @channelPoolClosed call hcall =>
    have hk : Built { s with channelPool := none } :=
      h.update (fun hre => ⟨(h.vacant hre).1, (h.vacant hre).2.1, rfl⟩) nofun
    exact hk.disconnectConnection call true
  | connectionClosed hcall hclosing => exact h.connectionClosed hok _ _ _

/-! ## Runs -/

/-- No `connect`, `disconnect` or restore is in progress. -/
def State.Idle (s : State) : Prop :=
  s.connectCall = none ∧ s.disconnects.entries = [] ∧
    ∀ entry ∈ s.restores.entries, entry.2.stage.isSettled

instance (s : State) : Decidable s.Idle := inferInstanceAs (Decidable (_ ∧ _ ∧ _))

/-- The pool that is installed while nothing is in progress was built on the connection that is
held. -/
theorem pool_on_held_connection (hr : Reach (step c) (Grounded c) start s) (hidle : s.Idle)
    {pool : Pool} (hpool : s.channelPool = some pool) :
    s.connection.connection = some pool.connection := by
  have h := hr.invariant built_start fun h hok hs => (step_cases hs).built hok h
  rcases h.agrees pool hpool with hconn | hunsettled
  · exact hconn
  · obtain ⟨r, hget, hopen⟩ := (Option.any_eq_true _ _).mp hunsettled
    have hsettled := hidle.2.2 _ (OrderedMap.get?_eq_some_iff.mp hget)
    rw [hsettled] at hopen
    cases hopen

/-- A client without an exchange that connects, and restores its state. -/
def connects : List Event :=
  [.connect 0 ⟨false, none⟩, .connection (.dialSucceeds 0), .dialSettles, .connectResumes,
    .poolInitialized 0 true, .recreated 0, .connectResumes]

/-- The connection drops, and the timer dials another one. -/
theorem pool_on_redialed_connection :
    ∃ s, Reach (step withoutExchange) (Grounded withoutExchange) start s ∧
      s.channelPool = some ⟨1, 1⟩ ∧ s.connection.connection = some 1 := by
  have hrun : (run (step withoutExchange) (Grounded withoutExchange) start
      (connects ++ [.connection (.connectionCloses 0), .connection .timerFires,
        .connection (.dialSucceeds 1), .dialSettles, .connection .attemptResumes,
        .poolInitialized 1 true, .recreated 1, .reconnectionResumes 1])).any
        (fun s => decide (s.Idle ∧ s.channelPool = some ⟨1, 1⟩)) := by
    decide +kernel
  obtain ⟨s, hs, h⟩ := (Option.any_eq_true _ _).mp hrun
  obtain ⟨hidle, hpool⟩ := of_decide_eq_true h
  have hr := reach_of_run hs
  exact ⟨s, hr, hpool, pool_on_held_connection hr hidle hpool⟩

/-- A `connect` dials and restores while `disconnect` awaits the close of the old connection, which
then takes the new one away. -/
theorem pool_on_lost_connection :
    ∃ s, Reach (step withoutExchange) anyStep start s ∧ s.Idle ∧
      s.channelPool = some ⟨1, 1⟩ ∧ s.connection.connection = none := by
  have hrun : (run (step withoutExchange) anyStep start
      (connects ++ [.disconnect 0, .disposed 0 false, .channelPoolClosed 0, .connect 1 ⟨false, none⟩,
        .connection (.dialSucceeds 1), .dialSettles, .connectResumes, .poolInitialized 1 true,
        .recreated 1, .connectResumes, .connectionClosed 0])).any
        (fun s => decide (s.Idle ∧ s.channelPool = some ⟨1, 1⟩ ∧ s.connection.connection = none)) := by
    decide +kernel
  obtain ⟨s, hs, h⟩ := (Option.any_eq_true _ _).mp hrun
  exact ⟨s, reach_of_run hs, of_decide_eq_true h⟩

end Client
end RabbitMQ

import RabbitMQ.Client
import RabbitMQ.Connection.Lifecycle

/-! What the facade reports when it has recovered.

A restore checks that its connection is still the installed one right after it opened its channels;
from there on nothing looks again. So 'reconnected' is right as long as nothing takes the installed
connection or pool away while a restore that somebody awaits is past that check. A connection that
drops under the exchange assertion does no harm: the assertion fails with it. -/

namespace RabbitMQ
namespace Client

open Transition
open Connection (Ages Emitted)

variable {c : Config} {s s' : State}

/-- A report of a recovery shows a connection, and a pool built on it. -/
def Output.Truthful : Output → Prop
  | .reconnected connection pool | .resumed _ connection pool =>
    ∃ c p, connection = some c ∧ pool = some p ∧ p.connection = c
  | _ => True

def RestoreStage.pastFence : RestoreStage → Bool
  | .exchange | .recreating | .settled true => true
  | _ => false

/-- `#handleReconnection` awaits the restore, or may join it. -/
def State.Awaited (s : State) (restore : Nat) : Prop :=
  restore ∈ s.reconnections ∨ s.restorePromise = some restore

instance (s : State) (restore : Nat) : Decidable (s.Awaited restore) :=
  inferInstanceAs (Decidable (_ ∨ _))

/-- The restores past their fence on the installed connection. -/
def State.resting (s : State) : OrderedMap Nat Restore :=
  s.restores.filter fun _ r =>
    r.stage.pastFence && r.connection.isSome && decide (r.connection = s.connection.connection)

/-- None of them is awaited. -/
def State.Restless (s : State) : Prop := ∀ restore ∈ s.resting.keys, ¬ s.Awaited restore

instance (s : State) : Decidable s.Restless :=
  inferInstanceAs (Decidable (∀ restore ∈ s.resting.keys, ¬ s.Awaited restore))

/-- `amqp.connect` is at the last endpoint. -/
def State.lastEndpoint (s : State) (c : Config) : Bool :=
  s.connection.connectPromise.any fun
    | .dialing attempt => decide (c.endpoints ≤ attempt + 1)
    | _ => false

/-- A step that takes the installed connection or pool away is not taken under a restore that is
past its fence; but a connection may drop under its own exchange assertion. -/
def Steady (c : Config) (s : State) : Event → Prop
  | .connection (.connectionCloses x) =>
    (s.connection.connections.get? x).any (·.watched) → s.connection.isShuttingDown = false →
      ∀ restore ∈ s.reconnections, ∀ r ∈ s.resting.get? restore,
        r.stage = .exchange ∧ r.connection = some x
  | .connection (.dialSucceeds _) => s.connection.isShuttingDown = false → s.Restless
  | .connection .dialFails => s.lastEndpoint c → s.Restless
  | .channelPoolClosed _ | .connectionClosed _ => s.Restless
  | _ => True

instance (c : Config) (s : State) (event : Event) : Decidable (Steady c s event) := by
  unfold Steady
  split <;> infer_instance

/-- The restore counts on the connection it found: it is past its fence, and an exchange assertion
can still succeed. -/
def State.Counts (s : State) (r : Restore) : Prop :=
  r.stage.pastFence ∧ (r.stage = .exchange → r.connection.any s.connection.alive)

structure Founded (s : State) : Prop where
  known : ∀ c, s.connection.connection = some c → c ∈ s.connection.connections
  based : ∀ restore c stage, s.restores.get? restore = some ⟨some c, stage⟩ →
    c ∈ s.connection.connections
  vacant : s.connection.isReconnecting →
    s.connection.connection = none ∧ s.restorePromise = none ∧ s.channelPool = none
  slot : ∀ restore, s.restorePromise = some restore →
    ∃ r, s.restores.get? restore = some r ∧ r.stage.isSettled = false
  alone : ∀ restore c stage, s.restores.get? restore = some ⟨some c, stage⟩ →
    stage = .opening ∨ stage = .exchange ∨ stage = .recreating →
    s.connection.connection = some c → s.restorePromise = some restore
  rests : ∀ restore r, s.restores.get? restore = some r → s.Counts r → s.Awaited restore →
    ∃ c, r.connection = some c ∧ s.connection.connection = some c ∧
      s.channelPool = some ⟨restore, c⟩
  truthful : ∀ o ∈ s.log, o.Truthful

theorem founded_start : Founded start :=
  ⟨nofun, nofun, nofun, nofun, nofun, nofun, nofun⟩

theorem mem_resting {restore : Nat} {r : Restore} :
    s.resting.get? restore = some r ↔ s.restores.get? restore = some r ∧ r.stage.pastFence ∧
      ∃ c, r.connection = some c ∧ s.connection.connection = some c := by
  unfold State.resting
  rw [OrderedMap.get?_filter]
  simp only [Bool.and_eq_true, decide_eq_true_eq, Option.isSome_iff_exists]
  constructor
  · rintro ⟨hr, ⟨hp, c, hc⟩, heq⟩
    exact ⟨hr, hp, c, hc, heq ▸ hc⟩
  · rintro ⟨hr, hp, c, hc, hconn⟩
    exact ⟨hr, ⟨hp, c, hc⟩, hc.trans hconn.symm⟩

/-- With nothing resting, no restore that is awaited counts on anything. -/
theorem Founded.restless (h : Founded s) (hrest : s.Restless) {restore : Nat} {r : Restore}
    (hr : s.restores.get? restore = some r) (hcounts : s.Counts r) : ¬ s.Awaited restore := by
  intro hawaited
  obtain ⟨x, hx, hconn, -⟩ := h.rests restore r hr hcounts hawaited
  have hmem : s.resting.get? restore = some r := mem_resting.mpr ⟨hr, hcounts.1, x, hx, hconn⟩
  exact hrest restore (OrderedMap.mem_of_get? hmem) hawaited

/-- A restore that counts on a connection did so before the connection aged. -/
theorem Founded.counts (h : Founded s) (hages : Ages s.connection s'.connection) {restore : Nat}
    {r : Restore} (hr : s.restores.get? restore = some r) (hcounts : s'.Counts r) :
    s.Counts r := by
  refine ⟨hcounts.1, fun hst => ?_⟩
  obtain ⟨x, hx, ha⟩ := (Option.any_eq_true _ _).mp (hcounts.2 hst)
  obtain ⟨_, stage⟩ := r
  obtain rfl : _ = some x := hx
  exact hages.alive x (h.based restore x stage hr) ha

/-! ## Steps of the connection -/

/-- The connection ages with the installed connection in place. -/
theorem Founded.update (h : Founded s) {conn : Connection.State} {nextRestore : Nat}
    {connectCall : Option ConnectCall} {disconnects : OrderedMap Nat DisconnectStage}
    {log : List Output} (hages : Ages s.connection conn)
    (hsame : conn.connection = s.connection.connection)
    (hre : conn.isReconnecting → s.connection.isReconnecting) (hlog : ∀ o ∈ log, o.Truthful) :
    Founded { s with connection := conn, nextRestore, connectCall, disconnects, log } where
  known x hx := hages.known x (h.known x (hsame ▸ hx))
  based restore x stage hr := hages.known x (h.based restore x stage hr)
  vacant hr := by
    rw [hsame]
    exact h.vacant (hre hr)
  slot := h.slot
  alone restore x stage hr hst hx := h.alone restore x stage hr hst (hsame ▸ hx)
  rests restore r hr hcounts hawaited := by
    rw [hsame]
    exact h.rests restore r hr (h.counts hages hr hcounts) hawaited
  truthful := hlog

/-- The installed connection is gone, or a new one takes its place. -/
theorem Founded.replace (h : Founded s) {conn : Connection.State} {pool : Option Pool}
    {slot : Option Nat} {connectCall : Option ConnectCall}
    {disconnects : OrderedMap Nat DisconnectStage} {log : List Output}
    (hages : Ages s.connection conn)
    (hnew : ∀ x, conn.connection = some x → x ∈ conn.connections ∧ x ∉ s.connection.connections)
    (hslot : slot = s.restorePromise ∨ slot = none)
    (hvacant : conn.isReconnecting → conn.connection = none ∧ slot = none ∧ pool = none)
    (hrest : ∀ restore r, s.restores.get? restore = some r →
      State.Counts { s with connection := conn } r → ¬ (restore ∈ s.reconnections ∨ slot = some restore))
    (hlog : ∀ o ∈ log, o.Truthful) :
    Founded { s with
      connection := conn
      channelPool := pool
      restorePromise := slot
      connectCall
      disconnects
      log } where
  known x hx := (hnew x hx).1
  based restore x stage hr := hages.known x (h.based restore x stage hr)
  vacant := hvacant
  slot restore hr := by
    rcases hslot with rfl | rfl
    · exact h.slot restore hr
    · cases hr
  alone restore x stage hr _ hx := absurd (h.based restore x stage hr) (hnew x hx).2
  rests restore r hr hcounts hawaited := absurd hawaited (hrest restore r hr hcounts)
  truthful := hlog

theorem truthful_append (h : ∀ o ∈ s.log, o.Truthful) {shown : List Output}
    (hshown : ∀ o ∈ shown, o.Truthful) : ∀ o ∈ s.log ++ shown, o.Truthful := fun o ho =>
  (List.mem_append.mp ho).elim (h o) (hshown o)

theorem Founded.absorb_calm (h : Founded s) {r : Connection.State × List Emitted}
    (hcalm : ∀ e ∈ r.2, e.calm) (hages : Ages s.connection r.1)
    (hsame : r.1.connection = s.connection.connection)
    (hre : r.1.isReconnecting → s.connection.isReconnecting) : Founded (s.absorb r) := by
  obtain ⟨shown, heq, hshown⟩ := Client.absorb_calm s hcalm
  rw [heq]
  refine h.update hages hsame hre (truthful_append h.truthful fun o ho => ?_)
  rw [hshown o ho]
  trivial

/-- A connection that is lost takes the pool and the slot along. -/
theorem Founded.losing (h : Founded s) {conn : Connection.State}
    (hlost : conn.connection = none) (hages : Ages s.connection conn)
    (hr : conn.isReconnecting = s.connection.isReconnecting)
    (hrest : ∀ restore r, s.restores.get? restore = some r →
      State.Counts { s with connection := conn } r → restore ∉ s.reconnections) :
    Founded (s.losing c.toConfig conn) := by
  have hnothing : conn.isReconnecting → s.restorePromise = none ∧ s.channelPool = none :=
    fun hre => (h.vacant (hr ▸ hre)).2
  obtain ⟨call, shown, heq, -, -, -, hshown⟩ := losing_eq c.toConfig hnothing
  have hframe := Connection.retrying_frame conn c.toConfig
  have hnone : (conn.retrying c.toConfig).connection = none := by rw [hframe]; exact hlost
  have hconns : (conn.retrying c.toConfig).connections = conn.connections := by rw [hframe]
  have halive : (conn.retrying c.toConfig).alive = conn.alive := by
    funext x
    simp only [Connection.State.alive, hconns]
  rw [heq]
  refine h.replace ⟨fun x hx => ?_, fun x hx ha => ?_⟩ (fun x hx => ?_) (.inr rfl)
    (fun _ => ⟨hnone, rfl, rfl⟩) (fun restore r hget hcounts hawaited => ?_)
    (truthful_append h.truthful fun o ho => ?_)
  · rw [hconns]
    exact hages.known x hx
  · rw [halive] at ha
    exact hages.alive x hx ha
  · cases hnone.symm.trans hx
  · refine hrest restore r hget ⟨hcounts.1, fun hst => ?_⟩ (hawaited.resolve_right (by simp))
    rw [← halive]
    exact hcounts.2 hst
  · rcases hshown o ho with rfl | rfl | ⟨callers, rfl⟩ <;> trivial

/-! ## Restores -/

theorem Founded.restoreState (h : Founded s) :
    Founded s.restoreState.1 ∧ s.restoreState.1.connection = s.connection ∧
      (s.restoreState.1.restorePromise = some s.restoreState.2 ∨
        s.restoreState.1.restores.get? s.restoreState.2 = some ⟨none, .settled false⟩) := by
  unfold State.restoreState
  cases hslot : s.restorePromise with
  | some restore => exact ⟨h, rfl, .inl hslot⟩
  | none =>
    have hother : ∀ {restore : Nat} {new r : Restore},
        (s.restores.set s.nextRestore new).get? restore = some r →
          restore = s.nextRestore ∧ r = new ∨ s.restores.get? restore = some r := by
      intro restore new r hr
      rw [OrderedMap.get?_set] at hr
      split at hr
      · next heq => exact .inl ⟨heq, (Option.some.inj hr).symm⟩
      · exact .inr hr
    cases hc : s.connection.connection with
    | none =>
      simp only [hc]
      refine ⟨⟨h.known, fun restore x stage hr => ?_, fun hre => ?_, by rintro _ ⟨⟩, ?_, ?_,
        h.truthful⟩, rfl, .inr (OrderedMap.get?_set_self _ _ _)⟩
      · rcases hother hr with ⟨-, heq⟩ | hr
        · cases heq
        · exact h.based restore x stage hr
      · exact ⟨(h.vacant hre).1, rfl, (h.vacant hre).2.2⟩
      · intro restore x stage _ _ hx
        cases hc.symm.trans hx
      · intro restore r hr hcounts hawaited
        rcases hother hr with ⟨-, rfl⟩ | hr
        · cases hcounts.1
        · exact h.rests restore r hr hcounts (.inl (hawaited.resolve_right (by rintro ⟨⟩)))
    | some conn =>
      simp only [hc]
      refine ⟨⟨h.known, fun restore x stage hr => ?_, fun hre => ?_, ?_, ?_, ?_, h.truthful⟩, rfl,
        .inl trivial⟩
      · rcases hother hr with ⟨-, heq⟩ | hr
        · cases heq
          exact h.known conn hc
        · exact h.based restore x stage hr
      · cases hc.symm.trans (h.vacant hre).1
      · intro restore hr
        cases hr
        exact ⟨_, OrderedMap.get?_set_self _ _ _, rfl⟩
      · intro restore x stage hr hst hx
        rcases hother hr with ⟨rfl, -⟩ | hr
        · rfl
        · cases hslot.symm.trans (h.alone restore x stage hr hst hx)
      · intro restore r hr hcounts hawaited
        rcases hother hr with ⟨-, rfl⟩ | hget
        · cases hcounts.1
        · refine h.rests restore r hget hcounts (.inl (hawaited.resolve_right fun heq => ?_))
          cases heq
          have hnew := hr.symm.trans (OrderedMap.get?_set_self _ _ _)
          cases hnew
          cases hcounts.1

theorem Founded.handleReconnection (h : Founded s) : Founded s.handleReconnection := by
  obtain ⟨hk, -, hjoined⟩ := h.restoreState
  unfold State.handleReconnection
  generalize s.restoreState = r at hk hjoined ⊢
  obtain ⟨s₁, restore⟩ := r
  refine ⟨hk.known, hk.based, hk.vacant, hk.slot, hk.alone, fun restore' r hr hcounts hawaited => ?_,
    hk.truthful⟩
  refine hk.rests restore' r hr hcounts ?_
  rcases hawaited with hmem | hslot
  · rcases List.mem_cons.mp hmem with rfl | hmem
    · rcases hjoined with hslot | hfailed
      · exact .inr hslot
      · cases hr.symm.trans hfailed
        cases hcounts.1
    · exact .inl hmem
  · exact .inr hslot

/-- A restore is over and releases the slot. -/
theorem Founded.settleRestore (h : Founded s) {restore : Nat} {conn : Option Nat}
    {old : RestoreStage} (hold : s.restores.get? restore = some ⟨conn, old⟩) {ok : Bool}
    (hok : ok → old = .recreating) : Founded (s.settleRestore restore conn ok) where
  known := h.known
  based r x stage hr := by
    simp only [State.settleRestore, OrderedMap.get?_set] at hr
    split at hr
    · cases hr
      exact h.based restore x old hold
    · exact h.based r x stage hr
  vacant hre := by
    obtain ⟨hconn, hslot, hpool⟩ := h.vacant hre
    exact ⟨hconn, by simp [State.settleRestore, hslot], hpool⟩
  slot r hr := by
    simp only [State.settleRestore] at hr
    split at hr
    · cases hr
    · next hslot =>
      refine (h.slot r hr).imp fun v hv => ⟨?_, hv.2⟩
      simp only [State.settleRestore]
      rw [OrderedMap.get?_set, if_neg]
      · exact hv.1
      · rintro rfl
        exact hslot hr
  alone r x stage hr hst hx := by
    simp only [State.settleRestore, OrderedMap.get?_set] at hr ⊢
    split at hr
    · cases hr
      simp at hst
    · next hne =>
      have hslot := h.alone r x stage hr hst hx
      rw [if_neg]
      · exact hslot
      · intro heq
        exact hne (Option.some.inj (hslot.symm.trans heq))
  rests r v hr hcounts hawaited := by
    have hbefore : s.Awaited r := by
      refine hawaited.imp_right fun hslot => ?_
      simp only [State.settleRestore] at hslot
      split at hslot
      · cases hslot
      · exact hslot
    simp only [State.settleRestore, OrderedMap.get?_set] at hr
    split at hr
    · next heq =>
      subst heq
      cases hr
      cases ok with
      | false => cases hcounts.1
      | true =>
        obtain rfl := hok rfl
        exact h.rests r ⟨conn, .recreating⟩ hold ⟨rfl, by simp⟩ hbefore
    · exact h.rests r v hr hcounts hbefore
  truthful := h.truthful

/-- A restore moves on without a change to the pool, or with its own. -/
theorem Founded.setRestore (h : Founded s) {restore conn : Nat} {old stage : RestoreStage}
    (hold : s.restores.get? restore = some ⟨some conn, old⟩) (hunsettled : stage.isSettled = false)
    {pool : Option Pool}
    (hvacant : s.connection.isReconnecting → pool = none)
    (halone : stage = .opening ∨ stage = .exchange ∨ stage = .recreating →
      old = .opening ∨ old = .exchange ∨ old = .recreating)
    (hself : s.Counts ⟨some conn, stage⟩ → s.Awaited restore →
      s.connection.connection = some conn ∧ pool = some ⟨restore, conn⟩)
    (hothers : ∀ restore' r, restore' ≠ restore → s.restores.get? restore' = some r →
      s.Counts r → s.Awaited restore' → pool = s.channelPool) :
    Founded ({ s with channelPool := pool }.setRestore restore ⟨some conn, stage⟩) where
  known := h.known
  based r x st hr := by
    simp only [State.setRestore, OrderedMap.get?_set] at hr
    split at hr
    · cases hr
      exact h.based restore conn old hold
    · exact h.based r x st hr
  vacant hre := by
    obtain ⟨hconn, hslot, -⟩ := h.vacant hre
    exact ⟨hconn, hslot, hvacant hre⟩
  slot r hr := by
    simp only [State.setRestore, OrderedMap.get?_set]
    split
    · exact ⟨_, rfl, hunsettled⟩
    · exact h.slot r hr
  alone r x st hr hst hx := by
    simp only [State.setRestore, OrderedMap.get?_set] at hr
    split at hr
    · next heq =>
      subst heq
      cases hr
      exact h.alone r conn old hold (halone hst) hx
    · exact h.alone r x st hr hst hx
  rests r v hr hcounts hawaited := by
    simp only [State.setRestore, OrderedMap.get?_set] at hr
    split at hr
    · next heq =>
      subst heq
      cases hr
      obtain ⟨hconn, hpool⟩ := hself hcounts hawaited
      exact ⟨conn, rfl, hconn, hpool⟩
    · next hne =>
      obtain ⟨x, hx, hconn, hpool⟩ := h.rests r v hr hcounts hawaited
      exact ⟨x, hx, hconn, (hothers r v hne hr hcounts hawaited).trans hpool⟩
  truthful := h.truthful

/-! ## Steps of the facade -/

/-- Nothing but calls and reports changes. -/
theorem Founded.relog (h : Founded s) {connectCall : Option ConnectCall}
    {disconnects : OrderedMap Nat DisconnectStage} {log : List Output}
    (hlog : ∀ o ∈ log, o.Truthful) : Founded { s with connectCall, disconnects, log } :=
  h.update (.of_eq rfl) rfl id hlog

theorem Founded.emit (h : Founded s) {o : Output} (ho : o.Truthful) : Founded (s.emit o) :=
  h.relog (truthful_append h.truthful fun _ ho' => List.mem_singleton.mp ho' ▸ ho)

theorem Founded.abortWaiter (h : Founded s) (error : ConnectError) :
    Founded (s.abortWaiter error) := by
  rcases abortWaiter_cases s error with ⟨-, heq⟩ | ⟨_, callers, -, heq⟩
  · rw [heq]
    exact h
  · rw [heq]
    exact h.relog (truthful_append h.truthful fun o ho => List.mem_singleton.mp ho ▸ trivial)

theorem Founded.emitReconnected (h : Founded s)
    (htrue : ∃ c p, s.connection.connection = some c ∧ s.channelPool = some p ∧ p.connection = c) :
    Founded s.emitReconnected := by
  have he : Founded (s.emit (.reconnected s.connection.connection s.channelPool)) := h.emit htrue
  unfold State.emitReconnected
  dsimp only
  split
  · exact (he.relog he.truthful).emit htrue
  · exact he

theorem Founded.connection (h : Founded s) {event : Connection.Event}
    {r : Connection.State × List Emitted} (hquiet : event.external → s.quiet)
    (hok : Steady c s (.connection event))
    (hown : event ≠ .connect ∧ (∀ call, event ≠ .disconnect call) ∧ event ≠ .dialSettles ∧
      ∀ call, event ≠ .disconnectCloses call)
    (H : Connection.Steps c.toConfig s.connection event r) : Founded (s.absorb r) := by
  cases H with
  | connect => exact absurd rfl hown.1
  | disconnect => exact absurd rfl (hown.2.1 _)
  | dialSettles => exact absurd rfl hown.2.2.1
  | disconnectCloses => exact absurd rfl (hown.2.2.2 _)
  | @dialSucceeds connection attempt hq hdial hfresh =>
    cases hdown : s.connection.isShuttingDown with
    | true =>
      unfold Connection.State.dialSucceeds
      rw [if_pos hdown]
      exact h.absorb_calm (by simp) (.of_set rfl fun hc => absurd hc hfresh) rfl id
    | false =>
      obtain ⟨shown, heq, hshown⟩ := Client.absorb_calm s
        (Connection.dialSucceeds_calm s.connection connection)
      have hages : Ages s.connection (s.connection.dialSucceeds connection).1 := by
        rw [Connection.dialSucceeds_fst hdown]
        exact .of_set rfl fun hc => absurd hc hfresh
      rw [heq]
      refine h.replace hages (fun x hx => ?_) (.inl rfl) (fun hre => ?_)
        (fun restore r hr hcounts hawaited => ?_) (truthful_append h.truthful fun o ho => ?_)
      · rw [Connection.dialSucceeds_fst hdown] at hx ⊢
        obtain rfl := Option.some.inj hx
        exact ⟨OrderedMap.mem_set.mpr (.inl rfl), hfresh⟩
      · rw [Connection.dialSucceeds_fst hdown] at hre
        cases hre
      · exact h.restless (hok hdown) hr (h.counts hages hr hcounts) hawaited
      · rw [hshown o ho]
        trivial
  | @dialFails attempt hq hdial =>
    unfold Connection.State.dialFails
    dsimp only
    split
    · exact h.absorb_calm (by simp) (.of_eq rfl) rfl id
    · next hlast =>
      have hrest : s.Restless := hok (by simpa [State.lastEndpoint, hdial] using hlast)
      split
      · next hdown =>
        obtain ⟨shown, heq, hshown⟩ := Client.absorb_calm s (Connection.setConnectionState_calm
          { s.connection with
            currentEndpointIndex := (s.connection.currentEndpointIndex + 1) % c.endpoints
            connection := none
            connectPromise := some (.returned none) } .disconnected)
        rw [heq]
        simp only [Connection.setConnectionState_fst]
        refine h.replace (.of_eq rfl) (by simp) (.inl rfl) (fun hre => ⟨rfl, (h.vacant hre).2⟩)
          (fun restore r hr hcounts hawaited => ?_) (truthful_append h.truthful fun o ho => ?_)
        · exact h.restless hrest hr (h.counts (.of_eq rfl) hr hcounts) hawaited
        · rw [hshown o ho]
          trivial
      · next hdown =>
        rw [absorb_startReconnection _ _ (by simpa using hdown)]
        refine h.losing rfl (.of_eq rfl) rfl fun restore r hr hcounts hmem => ?_
        exact h.restless hrest hr (h.counts (.of_eq rfl) hr hcounts) (.inl hmem)
  | @discarded connection hq hdial =>
    refine h.absorb_calm (Connection.setConnectionState_calm _ _) ?_ ?_ ?_
    · unfold Connection.State.discarded
      rw [Connection.setConnectionState_fst]
      exact .of_set rfl (by simp)
    · simp [Connection.State.discarded]
    · simp [Connection.State.discarded]
  | @attemptResumes result rest hlanded =>
    have hup : Founded { s with connection := { s.connection with landed := rest } } :=
      h.update (.of_eq rfl) rfl id h.truthful
    cases result with
    | none => exact hup
    | some x => exact hup.handleReconnection
  | timerFires hq harmed =>
    obtain ⟨hages, hconn, hre⟩ := Connection.timerFires_same s.connection
    exact h.absorb_calm (Connection.timerFires_calm _) hages hconn fun hr => hre ▸ hr
  | @connectionCloses connection amqp hq hconn hlive =>
    have hages : ∀ conn : Connection.State, conn.connections =
        s.connection.connections.set connection { amqp with live := false } →
          Ages s.connection conn := fun conn heq => .of_set heq (by simp)
    unfold Connection.State.connectionCloses
    dsimp only
    split
    · next hwatched =>
      rw [absorb_startReconnection _ _ (by exact hwatched.2)]
      refine h.losing rfl (hages _ rfl) rfl fun restore r hr hcounts hmem => ?_
      have hbefore := h.counts (hages _ rfl) hr hcounts
      obtain ⟨x, hx, hinstalled, -⟩ := h.rests restore r hr hbefore (.inl hmem)
      -- a drop takes the exchange assertion along, and nothing else
      obtain ⟨hst, hself⟩ := hok (by simpa [hconn] using hwatched.1) hwatched.2 restore hmem r
        (mem_resting.mpr ⟨hr, hbefore.1, x, hx, hinstalled⟩)
      have halive := hcounts.2 hst
      rw [hself] at halive
      simp [Connection.State.alive] at halive
    · exact h.absorb_calm (by simp) (hages _ rfl) rfl id

theorem Founded.connect (h : Founded s) (caller : Nat) (options : ConnectOptions) :
    Founded (s.connect caller options) := by
  unfold State.connect
  split
  · exact h.relog h.truthful
  · have H := Connection.connect_cases s.connection
    have hcall : Founded { s with connectCall := some ⟨options, [caller], .dialing⟩ } :=
      h.relog h.truthful
    exact hcall.absorb_calm (Connection.connect_calm _) H.ages H.same.1 fun hr => H.same.2 ▸ hr

theorem Founded.connectDialed (h : Founded s) (options : ConnectOptions) (callers : List Nat)
    (result : Option Nat) : Founded (s.connectDialed options callers result) := by
  have hanswer : ∀ o : Output, o.Truthful → Founded ({ s with connectCall := none }.emit o) :=
    fun o ho => Founded.emit (h.relog h.truthful) ho
  unfold State.connectDialed
  split
  · split
    · exact hanswer _ trivial
    · have hk := h.restoreState.1
      exact hk.relog hk.truthful
  · split
    · exact hanswer _ trivial
    · split
      · exact hanswer _ trivial
      · exact h.relog h.truthful

theorem Founded.poolInitialized (h : Founded s) (hquiet : s.quiet) {restore connection : Nat}
    (hr : s.restores.get? restore = some ⟨some connection, .opening⟩) :
    Founded (s.poolInitialized c restore connection) := by
  unfold State.poolInitialized
  split
  · next hconn =>
    refine h.setRestore hr (by split <;> rfl) (fun hre => ?_) (fun _ => .inl rfl)
      (fun _ _ => ⟨hconn, rfl⟩) fun restore' r hne hr' hcounts hawaited => ?_
    · cases hconn.symm.trans (h.vacant hre).1
    · exfalso
      -- whoever counts on this connection owns the slot, and this restore does
      have hslot := h.alone restore connection .opening hr (.inl rfl) hconn
      obtain ⟨x, hx, hinstalled, -⟩ := h.rests restore' r hr' hcounts hawaited
      obtain ⟨_, stage⟩ := r
      obtain rfl : _ = some x := hx
      cases stage with
      | opening => cases hcounts.1
      | closing => cases hcounts.1
      | exchange =>
        have hslot' := h.alone restore' x .exchange hr' (.inr (.inl rfl)) hinstalled
        exact hne (Option.some.inj (hslot'.symm.trans hslot))
      | recreating =>
        have hslot' := h.alone restore' x .recreating hr' (.inr (.inr rfl)) hinstalled
        exact hne (Option.some.inj (hslot'.symm.trans hslot))
      | settled ok =>
        rcases hawaited with hmem | hslot'
        · exact not_ended_of_quiet hquiet hmem hr'
        · obtain ⟨_, hr'', hunsettled⟩ := h.slot restore' hslot'
          cases hr'.symm.trans hr''
          cases hunsettled
  · next hstale =>
    exact h.setRestore hr rfl (fun hre => (h.vacant hre).2.2) (by simp)
      (fun hcounts => nomatch hcounts.1) fun _ _ _ _ _ _ => rfl

theorem Founded.exchangeFails (h : Founded s) {restore connection : Nat}
    (hr : s.restores.get? restore = some ⟨some connection, .exchange⟩) :
    Founded (s.exchangeFails restore connection) := by
  unfold State.exchangeFails
  split
  · next hpool =>
    refine h.setRestore hr rfl (fun _ => rfl) (by simp) (fun hcounts => nomatch hcounts.1)
      fun restore' r hne hr' hcounts hawaited => ?_
    obtain ⟨x, -, -, hpool'⟩ := h.rests restore' r hr' hcounts hawaited
    cases hpool.symm.trans hpool'
    exact absurd rfl hne
  · exact h.settleRestore hr nofun

theorem Founded.reconnectionRestored (h : Founded s) {restore : Nat} {connection : Option Nat}
    {ok : Bool} (hr : s.restores.get? restore = some ⟨connection, .settled ok⟩)
    (hmem : restore ∈ s.reconnections) : Founded (s.reconnectionRestored restore ok) := by
  have hk : Founded { s with reconnections := s.reconnections.erase restore } :=
    ⟨h.known, h.based, h.vacant, h.slot, h.alone, fun restore' r hr' hcounts hawaited =>
      h.rests restore' r hr' hcounts (hawaited.imp_left List.mem_of_mem_erase), h.truthful⟩
  unfold State.reconnectionRestored
  cases ok with
  | true =>
    obtain ⟨x, -, hconn, hpool⟩ := h.rests restore _ hr ⟨rfl, nofun⟩ (.inl hmem)
    exact hk.emitReconnected ⟨x, _, hconn, hpool, rfl⟩
  | false =>
    have he : Founded (State.emit { s with reconnections := s.reconnections.erase restore }
        .reconnectError) := hk.emit trivial
    exact he.abortWaiter .restoreFailed

theorem Founded.disconnected (h : Founded s) (call : Nat) (clean : Bool) :
    Founded (s.disconnected call clean) := by
  have hk : Founded { s with disconnects := s.disconnects.erase call } := h.relog h.truthful
  unfold State.disconnected
  cases clean with
  | true => exact hk.emit trivial
  | false => exact hk

theorem Founded.disconnectConnection (h : Founded s) (call : Nat) (clean : Bool) :
    Founded (s.disconnectConnection call clean) := by
  obtain ⟨hsame, hre⟩ := Connection.disconnect_fst s.connection call
  have hk : Founded (s.absorb (s.connection.disconnect call)) :=
    h.absorb_calm (Connection.disconnect_calm _ _) (Connection.disconnect_ages _ _) hsame
      (by simp [hre])
  unfold State.disconnectConnection
  dsimp only
  split
  · exact hk.relog hk.truthful
  · exact hk.disconnected call clean

theorem Founded.connectionClosed (h : Founded s) (hrest : s.Restless) (call connection : Nat)
    (clean : Bool) : Founded (s.connectionClosed call connection clean) := by
  refine Founded.disconnected ?_ call clean
  obtain ⟨shown, heq, hshown⟩ := Client.absorb_calm s
    (Connection.setConnectionState_calm { s.connection with
      connections := s.connection.connections.set connection ⟨false, true, false⟩
      closing := s.connection.closing.erase call
      connection := none } .disconnected)
  have hages : Ages s.connection (s.connection.disconnectCloses call connection).1 := by
    unfold Connection.State.disconnectCloses
    rw [Connection.setConnectionState_fst]
    exact .of_set rfl nofun
  unfold Connection.State.disconnectCloses at hages ⊢
  rw [heq]
  simp only [Connection.setConnectionState_fst] at hages ⊢
  refine h.replace hages nofun (.inl rfl) (fun hre => ⟨rfl, (h.vacant hre).2⟩)
    (fun restore r hr hcounts hawaited => ?_) (truthful_append h.truthful fun o ho => ?_)
  · exact h.restless hrest hr (h.counts hages hr hcounts) hawaited
  · rw [hshown o ho]
    trivial

theorem Steps.founded {event : Event} (H : Steps c s event s') (hok : Steady c s event)
    (h : Founded s) : Founded s' := by
  cases H with
  | connect => exact h.connect _ _
  | disconnect hfresh =>
    have hk := (h.emit (o := .disconnecting) trivial).abortWaiter .aborted
    exact hk.relog hk.truthful
  | connection hquiet hown H => exact h.connection hquiet hok hown H
  | dialSettles hdial => exact h.update (.of_eq rfl) rfl id h.truthful
  | connectDialed hcall => exact h.connectDialed _ _ _
  | @connectRestored _ _ _ _ _ ok hcall hr =>
    exact Founded.emit (h.relog h.truthful) (by cases ok <;> trivial)
  | connectTimesOut hquiet hcall htimed => exact h.abortWaiter _
  | poolInitialized hquiet hr => exact h.poolInitialized hquiet hr
  | poolFails hquiet hr => exact h.settleRestore hr nofun
  | exchangeAsserted hquiet hr hlive =>
    refine h.setRestore hr rfl (fun hre => (h.vacant hre).2.2) (fun _ => .inr (.inl rfl))
      (fun _ hawaited => ?_) fun _ _ _ _ _ _ => rfl
    obtain ⟨x, hx, hconn, hpool⟩ := h.rests _ _ hr ⟨rfl, fun _ => hlive⟩ hawaited
    cases hx
    exact ⟨hconn, hpool⟩
  | exchangeFails hquiet hr => exact h.exchangeFails hr
  | recreated hquiet hr => exact h.settleRestore hr fun _ => rfl
  | poolClosed hquiet hr => exact h.settleRestore hr nofun
  | reconnectionResumes hr hmem => exact h.reconnectionRestored hr hmem
  | @disposed call throws hcall =>
    unfold State.disposed
    split
    · exact h.disconnectConnection call false
    · split
      · exact h.relog h.truthful
      · exact h.disconnectConnection call true
  | @channelPoolClosed call hcall =>
    have hk : Founded { s with channelPool := none } :=
      ⟨h.known, h.based, fun hre => ⟨(h.vacant hre).1, (h.vacant hre).2.1, rfl⟩, h.slot, h.alone,
        fun _ _ hr hcounts hawaited => absurd hawaited (h.restless hok hr hcounts), h.truthful⟩
    exact hk.disconnectConnection call true
  | connectionClosed hcall hclosing => exact h.connectionClosed hok _ _ _

/-- Every report of a recovery is truthful, in every run in which nothing takes the installed
connection or pool away under a restore that is past its fence. -/
theorem reconnected_truthful (hr : Reach (step c) (Steady c) start s) {o : Output}
    (ho : o ∈ s.log) : o.Truthful :=
  (hr.invariant founded_start fun h hok hs => (step_cases hs).founded hok h).truthful o ho

/-! ## Runs -/

def oneEndpoint : Config := ⟨⟨1, 1000, 30000, none⟩, true⟩

/-- A call of `connect` parks, and the next dial gets as far as `recreateAll`. -/
def recovering : List Event :=
  [.connect 0 ⟨true, none⟩, .connection .dialFails, .dialSettles, .connectResumes,
    .connection .timerFires, .connection (.dialSucceeds 0), .dialSettles,
    .connection .attemptResumes, .poolInitialized 0 true, .exchangeAsserted 0 true]

theorem reconnected_truthful_run : ∃ s, Reach (step oneEndpoint) (Steady oneEndpoint) start s ∧
    Output.resumed [0] (some 0) (some ⟨0, 0⟩) ∈ s.log ∧ ∀ o ∈ s.log, o.Truthful := by
  have hrun : (run (step oneEndpoint) (Steady oneEndpoint) start
      (recovering ++ [.recreated 0, .reconnectionResumes 0])).any
        (fun s => decide (Output.resumed [0] (some 0) (some ⟨0, 0⟩) ∈ s.log)) := by
    decide +kernel
  obtain ⟨s, hs, ho⟩ := (Option.any_eq_true _ _).mp hrun
  have hr := reach_of_run hs
  exact ⟨s, hr, of_decide_eq_true ho, fun o ho => reconnected_truthful hr ho⟩

/-- The connection drops while `recreateAll` awaits its consumers: 'reconnected' is emitted with
neither a connection nor a pool, and the parked call resolves with null. -/
theorem reconnected_untruthful : ∃ s, Reach (step oneEndpoint) anyStep start s ∧
    (∃ o ∈ s.log, ¬ o.Truthful) ∧ Output.reconnected none none ∈ s.log ∧
      Output.resumed [0] none none ∈ s.log := by
  have hrun : (run (step oneEndpoint) anyStep start (recovering ++
      [.connection (.connectionCloses 0), .recreated 0, .reconnectionResumes 0])).any
        (fun s => decide (Output.reconnected none none ∈ s.log ∧
          Output.resumed [0] none none ∈ s.log)) := by
    decide +kernel
  obtain ⟨s, hs, ho⟩ := (Option.any_eq_true _ _).mp hrun
  obtain ⟨hre, hresumed⟩ := of_decide_eq_true ho
  refine ⟨s, reach_of_run hs, ⟨_, hre, ?_⟩, hre, hresumed⟩
  rintro ⟨_, _, h, -⟩
  cases h

end Client
end RabbitMQ

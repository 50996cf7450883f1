import RabbitMQ.Client.Refinement

/-! What a call of `disconnect` leaves behind. -/

namespace RabbitMQ
namespace Client

open Transition
open Connection (Emitted)

variable {c : Config} {s₀ s₁ s s' t : State} {event : Event}

/-- Nobody calls `connect`. -/
def Unasked (_ : State) (event : Event) : Prop := event.isConnect = false

instance (s : State) (event : Event) : Decidable (Unasked s event) :=
  inferInstanceAs (Decidable (event.isConnect = false))

/-- The connection of a client in any state, and the calls of `disconnect` that wait for it. -/
structure Backed (s : State) : Prop where
  awaits : Awaited s
  stopped : Connection.Stopped s.connection

theorem backed_start : Backed start := ⟨follows_start.awaits, Connection.stopped_start⟩

theorem Backed.step (h : Backed s) (hs : step c s event = some s') : Backed s' := by
  obtain ⟨hdrives, hawaits⟩ := Steps.drives hs h.awaits
  refine ⟨hawaits, ?_⟩
  cases hdrives with
  | idle hconnection =>
    rw [hconnection]
    exact h.stopped
  | steps _ hstep => exact (Connection.step_cases hstep).stopped h.stopped

theorem backed_of_reach {ok : State → Event → Prop} (hr : Reach (Client.step c) ok start s) :
    Backed s :=
  hr.invariant backed_start fun h _ hs => h.step hs

/-! ## A call of `disconnect` reaches the connection -/

theorem disconnectConnection_down (s : State) (call : Nat) (clean : Bool) :
    (s.disconnectConnection call clean).connection.isShuttingDown = true := by
  obtain ⟨-, hconnection, -⟩ := relayed_absorb s (s.connection.disconnect call)
  have hdown : (s.absorb (s.connection.disconnect call)).connection.isShuttingDown = true := by
    rw [hconnection]
    exact (Connection.disconnect_frame s.connection call).2.2.2
  unfold State.disconnectConnection
  dsimp only
  split
  · exact hdown
  · rw [(relayed_disconnected _ call clean).2.1]
    exact hdown

/-- The call has not come to the connection yet. -/
def State.Heading (s : State) (call : Nat) : Prop :=
  s.disconnects.get? call = some .disposing ∨ s.disconnects.get? call = some .closingPool

/-- A call stays where it is, gets closer, or finds the connection shut down. -/
theorem Steps.heading {call : Nat} (hs : step c s event = some s') (h : s.Heading call) :
    s'.Heading call ∨ s'.connection.isShuttingDown = true := by
  have hsame : ∀ {t : State}, t.disconnects = s.disconnects →
      t.Heading call ∨ t.connection.isShuttingDown = true := by
    intro t heq
    rw [State.Heading, heq]
    exact .inl h
  have hother : ∀ {t : State} {other : Nat}, other ≠ call →
      (∀ k, k ≠ other → t.disconnects.get? k = s.disconnects.get? k) → t.Heading call := by
    intro t other hne heq
    rw [State.Heading, heq call (Ne.symm hne)]
    exact h
  cases step_cases hs with
  | @connect caller options =>
    unfold State.connect
    split
    · exact hsame rfl
    · exact hsame (relayed_absorb _ _).2.2
  | @disconnect other hfresh =>
    obtain ⟨_, -, -, -, -, hdisconnects⟩ := abortWaiter_log (s.emit .disconnecting) .aborted
    have hne : other ≠ call := by
      rintro rfl
      rcases h with h | h
      · exact hfresh (OrderedMap.mem_of_get? h)
      · exact hfresh (OrderedMap.mem_of_get? h)
    refine .inl (hother hne fun k hk => ?_)
    dsimp only [State.disconnect]
    rw [hdisconnects, OrderedMap.get?_set, if_neg hk]
    rfl
  | connection => exact hsame (relayed_absorb _ _).2.2
  | dialSettles => exact hsame rfl
  | @connectDialed options callers result hcall =>
    unfold State.connectDialed
    cases result with
    | some connection =>
      dsimp only
      split
      · exact hsame rfl
      · exact hsame (restoreState_log s).2.2.2
    | none =>
      dsimp only
      split
      · exact hsame rfl
      · split
        · exact hsame rfl
        · exact hsame rfl
  | connectRestored => exact hsame rfl
  | connectTimesOut =>
    obtain ⟨_, -, -, -, -, hdisconnects⟩ := abortWaiter_log s .timedOut
    exact hsame hdisconnects
  | poolInitialized =>
    unfold State.poolInitialized
    split
    · exact hsame rfl
    · exact hsame rfl
  | poolFails => exact hsame rfl
  | exchangeAsserted => exact hsame rfl
  | exchangeFails =>
    unfold State.exchangeFails
    split
    · exact hsame rfl
    · exact hsame rfl
  | recreated => exact hsame rfl
  | poolClosed => exact hsame rfl
  | @reconnectionResumes restore _ ok =>
    cases ok with
    | true =>
      obtain ⟨_, -, -, -, -, -, hdisconnects⟩ :=
        emitReconnected_log { s with reconnections := s.reconnections.erase restore }
      exact hsame hdisconnects
    | false =>
      obtain ⟨_, -, -, -, -, hdisconnects⟩ := abortWaiter_log
        (State.emit { s with reconnections := s.reconnections.erase restore } .reconnectError)
        .restoreFailed
      exact hsame hdisconnects
  | @disposed other throws hother' =>
    unfold State.disposed
    split
    · exact .inr (disconnectConnection_down s other false)
    · split
      · by_cases hne : other = call
        · subst hne
          exact .inl (.inr (OrderedMap.get?_set_self _ _ _))
        · refine .inl (hother hne fun k hk => ?_)
          dsimp only
          rw [OrderedMap.get?_set, if_neg hk]
      · exact .inr (disconnectConnection_down s other true)
  | @channelPoolClosed other =>
    exact .inr (disconnectConnection_down { s with channelPool := none } other true)
  | @connectionClosed other clean connection hcall hclosing =>
    have hne : other ≠ call := by
      rintro rfl
      rcases h with h | h
      · cases h.symm.trans hcall
      · cases h.symm.trans hcall
    obtain ⟨-, -, hdisconnects⟩ := relayed_disconnected
      (s.absorb (s.connection.disconnectCloses other connection)) other clean
    refine .inl (hother hne fun k hk => ?_)
    dsimp only [State.connectionClosed]
    rw [hdisconnects, OrderedMap.get?_erase, if_neg hk, (relayed_absorb _ _).2.2]

/-! ## From then on -/

/-- Nothing comes back, and what is said is said of what had landed before. -/
def Rests (s s' : State) : Prop :=
  ∃ out shown, Connection.Stays s.connection out s'.connection ∧ Relayed s out s' shown

theorem Rests.trans (h : Rests s t) (h' : Rests t s') : Rests s s' := by
  obtain ⟨out, shown, hstays, hrelayed⟩ := h
  obtain ⟨out', shown', hstays', hrelayed'⟩ := h'
  exact ⟨_, _, hstays.trans hstays', hrelayed.trans hrelayed'⟩

theorem Backed.rests (h : Backed s) (hdown : s.connection.isShuttingDown = true)
    (hasked : Unasked s event) (hs : Client.step c s event = some s') : Rests s s' := by
  obtain ⟨hdrives, -⟩ := Steps.drives hs h.awaits
  cases hdrives with
  | @idle hconnection shown hrelayed =>
    refine ⟨[], shown, ?_, hrelayed⟩
    rw [hconnection]
    exact Connection.stays_refl hdown
  | @steps connectionEvent out shown hconnects hstep hrelayed =>
    refine ⟨out, shown, (Connection.step_cases hstep).stays h.stopped hdown fun heq => ?_, hrelayed⟩
    cases hasked.symm.trans (hconnects heq)

theorem rests_of_reach (h : Backed s) (hdown : s.connection.isShuttingDown = true)
    (hr : Reach (step c) Unasked s s') : Rests s s' := by
  have hboth : Backed s' ∧ Rests s s' := by
    refine hr.invariant (I := fun s' => Backed s' ∧ Rests s s') ?_ ?_
    · exact ⟨h, [], [], Connection.stays_refl hdown, relayed_refl rfl rfl⟩
    · rintro t t' event ⟨hbacked, hrests⟩ hasked hs
      obtain ⟨out, shown, hstays, hrelayed⟩ := hrests
      exact ⟨hbacked.step hs,
        Rests.trans ⟨out, shown, hstays, hrelayed⟩ (hbacked.rests hstays.down hasked hs)⟩
  exact hboth.2

/-- The call is on its way to the connection, or the connection is shut down. -/
def State.Reaching (s : State) (call : Nat) : Prop :=
  s.Heading call ∨ s.connection.isShuttingDown = true

theorem reaching_of_disconnect {call : Nat} (hs : step c s (.disconnect call) = some s') :
    s'.Reaching call := by
  cases step_cases hs with
  | disconnect => exact .inl (.inl (OrderedMap.get?_set_self _ _ _))

theorem Backed.reaching {call : Nat} (h : Backed s) (hreaching : s.Reaching call)
    (hasked : Unasked s event) (hs : Client.step c s event = some s') : s'.Reaching call := by
  rcases hreaching with hheading | hdown
  · exact Steps.heading hs hheading
  · obtain ⟨_, _, hstays, -⟩ := h.rests hdown hasked hs
    exact .inr hstays.down

theorem reaching_of_reach {call : Nat} (h : Backed s) (hreaching : s.Reaching call)
    (hr : Reach (step c) Unasked s s') : s'.Reaching call := by
  have hboth : Backed s' ∧ s'.Reaching call := by
    refine hr.invariant (I := fun s' => Backed s' ∧ s'.Reaching call) ⟨h, hreaching⟩ ?_
    rintro t t' event ⟨hbacked, hwhere⟩ hasked hs
    exact ⟨hbacked.step hs, hbacked.reaching hwhere hasked hs⟩
  exact hboth.2

/-- A call of `disconnect` that is over has shut the connection down. -/
theorem State.Reaching.down {call : Nat} (h : s.Reaching call) (hover : call ∉ s.disconnects) :
    s.connection.isShuttingDown = true := by
  rcases h with hheading | hdown
  · rcases hheading with hget | hget
    · exact absurd (OrderedMap.mem_of_get? hget) hover
    · exact absurd (OrderedMap.mem_of_get? hget) hover
  · exact hdown

/-- What a client that is shut down holds, another call of `disconnect` is closing. -/
theorem Backed.held (h : Backed s) (hdown : s.connection.isShuttingDown = true)
    (hheld : s.connection.connection.isSome) :
    ∃ call clean, s.disconnects.get? call = some (.closingConnection clean) := by
  obtain ⟨call, hmem⟩ := h.stopped.held (.inl hdown) hheld
  obtain ⟨connection, hget⟩ := OrderedMap.mem_iff.mp hmem
  exact ⟨call, h.awaits call connection hget⟩

/-- What only a client that is up says is not said. -/
theorem silent_of_stays {out : List Emitted} {shown : List Output}
    (hstays : Connection.Stays s.connection out s'.connection) (hrelayed : Relayed s out s' shown) :
    ∀ o ∈ shown, o.relayed = false := by
  have hnone : out.filterMap passOn = [] := List.filterMap_eq_nil_iff.mpr fun e he => by
    have hlate := hstays.late e he
    cases e with
    | connectionStateChanged state => rfl
    | reconnected => rfl
    | connected endpoint => cases hlate
    | disconnected => cases hlate
    | reconnectFailed => cases hlate
  have hfilter := hrelayed.relayed
  rw [hnone] at hfilter
  intro o ho
  simpa using List.filter_eq_nil_iff.mp hfilter o ho

/-- A `disconnect` is final. Once the call is over, and for as long as nobody calls `connect`
(neither while it ran nor since), no timer is armed, no connection is taken into use, whatever a
dial still brings is closed, and nothing is announced but the end of recoveries that had landed
before; the old connection is gone unless another `disconnect` is closing it. -/
theorem disconnect_is_final {call : Nat} (hr : Reach (step c) anyStep start s₀)
    (hcall : step c s₀ (.disconnect call) = some s₁) (hruns : Reach (step c) Unasked s₁ s)
    (hover : call ∉ s.disconnects) (hlater : Reach (step c) Unasked s s') :
    s'.connection.isShuttingDown = true ∧ s'.connection.reconnectTimeout = none ∧
    s'.connection.connectionState ≠ .connected ∧
    (s'.connection.connection.isSome → s'.connection.connection = s.connection.connection ∧
      ∃ other clean, s'.disconnects.get? other = some (.closingConnection clean)) ∧
    (∀ connection, s'.connection.neglected connection → s.connection.neglected connection) ∧
    ∃ shown, s'.log = s.log ++ shown ∧ .connected ∉ shown ∧ .reconnectFailed ∉ shown ∧
      shown.countP Output.recovery ≤ s.reconnections.length + s.connection.promised := by
  have hbacked₀ := backed_of_reach hr
  have hbacked₁ := hbacked₀.step hcall
  have hbacked : Backed s := hruns.invariant hbacked₁ fun h _ hs => h.step hs
  have hbacked' : Backed s' := hlater.invariant hbacked fun h _ hs => h.step hs
  have hreaching : s.Reaching call :=
    reaching_of_reach hbacked₁ (reaching_of_disconnect hcall) hruns
  have hdown := hreaching.down hover
  obtain ⟨out, shown, hstays, hrelayed⟩ := rests_of_reach hbacked hdown hlater
  have hsilent := silent_of_stays hstays hrelayed
  refine ⟨hstays.down, hbacked'.stopped.unarmed hstays.down, hbacked'.stopped.down hstays.down,
    fun hheld => ⟨?_, hbacked'.held hstays.down hheld⟩, hstays.neglected, shown, hrelayed.log, fun hmem => ?_, fun hmem => ?_, ?_⟩
  · rcases hstays.connection with heq | hnone
    · exact heq
    · rw [hnone] at hheld
      cases hheld
  · cases hsilent _ hmem
  · cases hsilent _ hmem
  · have hcount := hrelayed.recoveries
    have hpromised := hstays.promised
    omega

/-- The timer's dial is in flight when `disconnect` is called; it lands when that is over. -/
theorem disconnect_is_final_dialing : ∃ s s' : State,
    0 ∉ s.disconnects ∧ s'.connection.alive 1 = false ∧ s'.connection.connection = none ∧
    s'.connection.reconnectTimeout = none ∧
    ∃ shown, s'.log = s.log ++ shown ∧ .connected ∉ shown ∧ shown.countP Output.recovery ≤ 0 := by
  have hrun : (run (step oneRetry) anyStep start [.connect 0 ⟨true, none⟩,
      .connection (.dialSucceeds 0), .dialSettles, .connectResumes, .poolInitialized 0 true,
      .recreated 0, .connectResumes, .connection (.connectionCloses 0),
      .connection .timerFires]).any (fun s₀ => (step oneRetry s₀ (.disconnect 0)).any fun s₁ =>
        (run (step oneRetry) Unasked s₁ [.disposed 0 false]).any fun s =>
          decide (0 ∉ s.disconnects ∧ s.reconnections.length + s.connection.promised = 0) &&
          (run (step oneRetry) Unasked s [.connection (.dialSucceeds 1), .connection .discarded,
            .dialSettles, .connection .attemptResumes]).any fun s' =>
              decide (s'.connection.alive 1 = false ∧ s'.connection.connection = none)) := by
    decide +kernel
  obtain ⟨s₀, hs₀, hrest⟩ := (Option.any_eq_true _ _).mp hrun
  obtain ⟨s₁, hs₁, hrest⟩ := (Option.any_eq_true _ _).mp hrest
  obtain ⟨s, hs, hrest⟩ := (Option.any_eq_true _ _).mp hrest
  obtain ⟨hover, hrest⟩ := Bool.and_eq_true_iff.mp hrest
  obtain ⟨hover, hpromised⟩ := of_decide_eq_true hover
  obtain ⟨s', hs', hend⟩ := (Option.any_eq_true _ _).mp hrest
  obtain ⟨hdead, hgone⟩ := of_decide_eq_true hend
  obtain ⟨-, htimer, -, -, -, shown, hlog, hconnected, -, hcount⟩ := disconnect_is_final
    (reach_of_run hs₀) hs₁ (reach_of_run hs) hover (reach_of_run hs')
  rw [hpromised] at hcount
  exact ⟨s, s', hover, hdead, hgone, htimer, shown, hlog, hconnected, hcount⟩

end Client
end RabbitMQ

import RabbitMQ.Connection.Lifecycle

/-! A connection that was shut down: nothing but a call of `connect` brings it back. -/

namespace RabbitMQ
namespace Connection

open Transition

variable {c : Config} {s s' : State} {event : Event}

theorem Connects.closing (H : Connects s s') : s'.closing = s.closing := by
  cases H <;> rfl

/-- Only `disconnect` starts to await a close, or resumes after one. -/
theorem Steps.closing {r : State × List Emitted} (H : Steps c s event r)
    (hdisconnect : ∀ call, event ≠ .disconnect call)
    (hcloses : ∀ call, event ≠ .disconnectCloses call) : r.1.closing = s.closing := by
  cases H with
  | connect => exact (connect_cases s).closing
  | disconnect => exact absurd rfl (hdisconnect _)
  | dialSucceeds =>
    cases hdown : s.isShuttingDown with
    | true =>
      unfold State.dialSucceeds
      rw [if_pos hdown]
    | false => rw [dialSucceeds_fst hdown]
  | dialFails =>
    unfold State.dialFails
    dsimp only
    split
    · rfl
    · split
      · rw [setConnectionState_fst]
      · next hdown =>
        rw [startReconnection_fst (by simpa using hdown), retrying_frame]
  | discarded =>
    unfold State.discarded
    rw [setConnectionState_fst]
  | dialSettles => rfl
  | attemptResumes => rfl
  | timerFires =>
    by_cases hstate : s.connectionState = .connected
    · unfold State.timerFires
      dsimp only [State.clearReconnectTimeout]
      rw [if_pos hstate]
    · obtain ⟨dialed, H, heq⟩ := timerFires_cases hstate
      rw [heq]
      exact H.closing
  | connectionCloses =>
    unfold State.connectionCloses
    dsimp only
    split
    · next hwatched =>
      rw [startReconnection_fst (by simpa using hwatched.2), retrying_frame]
    · rfl
  | disconnectCloses => exact absurd rfl (hcloses _)

theorem disconnect_closing (s : State) (call k : Nat) (hne : k ≠ call) :
    (s.disconnect call).1.closing.get? k = s.closing.get? k := by
  unfold State.disconnect
  dsimp only
  split
  · rfl
  · simp only [setConnectionState_fst]
    split
    · dsimp only
      rw [OrderedMap.get?_set, if_neg hne]
    · rfl

theorem disconnectCloses_closing (s : State) (call connection : Nat) :
    (s.disconnectCloses call connection).1.closing = s.closing.erase call := by
  unfold State.disconnectCloses
  rw [setConnectionState_fst]

/-! ## Shut down -/

/-- A client that is shut down has no timer, and what it still holds is being closed. -/
structure Stopped (s : State) : Prop where
  ordered : Ordered s
  unarmed : s.isShuttingDown → s.reconnectTimeout = none
  down : s.isShuttingDown → s.connectionState ≠ .connected
  held : s.isShuttingDown ∨ s.connectionState = .disconnected → s.connection.isSome →
    ∃ call, call ∈ s.closing

theorem stopped_start : Stopped start :=
  ⟨ordered_start, fun h => (by cases h), fun h => (by cases h), fun _ h => (by cases h)⟩

/-- A client that is up is not shut down. -/
theorem stopped_of_up (hord : Ordered s) (hup : s.isShuttingDown = false)
    (hstate : s.connectionState = .disconnected → s.connection = none) : Stopped s := by
  refine ⟨hord, fun h => ?_, fun h => ?_, fun h hheld => ?_⟩
  · cases hup.symm.trans h
  · cases hup.symm.trans h
  · rcases h with h | h
    · cases hup.symm.trans h
    · rw [hstate h] at hheld
      cases hheld

/-- Nothing that matters here changes. -/
theorem Stopped.same (h : Stopped s) (hord : Ordered s')
    (hdown : s'.isShuttingDown = s.isShuttingDown)
    (htimer : s'.reconnectTimeout = s.reconnectTimeout)
    (hstate : s'.connectionState = s.connectionState) (hconnection : s'.connection = s.connection)
    (hclosing : s'.closing = s.closing) : Stopped s' := by
  refine ⟨hord, fun hd => ?_, fun hd => ?_, fun hd hheld => ?_⟩
  · rw [hdown] at hd
    exact htimer.trans (h.unarmed hd)
  · rw [hdown] at hd
    rw [hstate]
    exact h.down hd
  · rw [hdown, hstate] at hd
    rw [hconnection] at hheld
    rw [hclosing]
    exact h.held hd hheld

theorem Connects.stopped (H : Connects s s') (h : Stopped s) : Stopped s' := by
  have hord := H.ordered h.ordered
  cases H with
  | joins => exact h
  | already => exact h.same hord rfl rfl rfl rfl rfl
  | dials => exact stopped_of_up hord rfl fun hstate => by cases hstate

/-- `startReconnection` on a connection that is gone. -/
theorem stopped_retrying (c : Config) (hord : Ordered s) (hup : s.isShuttingDown = false)
    (hgone : s.connection = none) : Stopped (s.retrying c) := by
  have hord' := hord.retrying c
  rw [retrying_frame] at hord' ⊢
  exact stopped_of_up hord' hup fun _ => hgone

theorem Stopped.disconnect (h : Stopped s) (call : Nat) : Stopped (s.disconnect call).1 := by
  obtain ⟨htimer, hstate⟩ := disconnect_down s call
  refine ⟨disconnect_ordered s call, fun _ => htimer, fun _ hup => ?_, fun _ hheld => ?_⟩
  · rcases hstate with hstate | hstate
    · cases hstate.symm.trans hup
    · cases hstate.symm.trans hup
  · revert hheld
    unfold State.disconnect
    dsimp only
    split
    · next hdone => exact h.held (.inr hdone)
    · simp only [setConnectionState_fst]
      split
      · exact fun _ => ⟨call, OrderedMap.mem_set.mpr (.inl rfl)⟩
      · next hnone => simp [hnone]

theorem Steps.stopped {r : State × List Emitted} (H : Steps c s event r) (h : Stopped s) :
    Stopped r.1 := by
  have hord := H.ordered h.ordered
  cases H with
  | connect => exact (connect_cases s).stopped h
  | disconnect => exact h.disconnect _
  | dialSucceeds =>
    cases hdown : s.isShuttingDown with
    | true =>
      unfold State.dialSucceeds at hord ⊢
      rw [if_pos hdown] at hord ⊢
      exact h.same hord rfl rfl rfl rfl rfl
    | false =>
      rw [dialSucceeds_fst hdown] at hord ⊢
      exact stopped_of_up hord hdown fun hstate => by cases hstate
  | dialFails =>
    unfold State.dialFails at hord ⊢
    dsimp only at hord ⊢
    split
    · next hmore =>
      rw [if_pos hmore] at hord
      exact h.same hord rfl rfl rfl rfl rfl
    · next hmore =>
      rw [if_neg hmore] at hord
      split
      · next hdown =>
        rw [if_pos hdown, setConnectionState_fst] at hord
        rw [setConnectionState_fst]
        refine ⟨hord, fun _ => h.unarmed hdown, fun _ hup => ?_, fun _ hheld => ?_⟩
        · cases hup
        · cases hheld
      · next hdown =>
        rw [startReconnection_fst (by simpa using hdown)]
        refine stopped_retrying c ⟨h.ordered.connected, fun _ hc => ?_⟩ (by simpa using hdown) rfl
        cases hc
  | @discarded connection _ hdial =>
    have hdown := h.ordered.closing connection hdial
    unfold State.discarded at hord ⊢
    rw [setConnectionState_fst] at hord ⊢
    refine ⟨hord, h.unarmed, fun _ hup => ?_, fun _ hheld => h.held (.inl hdown) hheld⟩
    cases hup
  | dialSettles => exact h.same hord rfl rfl rfl rfl rfl
  | attemptResumes => exact h.same hord rfl rfl rfl rfl rfl
  | timerFires _ harmed =>
    have hup : s.isShuttingDown = false := by
      refine Bool.eq_false_iff.mpr fun hdown => ?_
      rw [h.unarmed hdown] at harmed
      cases harmed
    by_cases hstate : s.connectionState = .connected
    · unfold State.timerFires at hord ⊢
      dsimp only [State.clearReconnectTimeout] at hord ⊢
      rw [if_pos hstate] at hord ⊢
      exact stopped_of_up hord hup fun hs => by cases hstate.symm.trans hs
    · obtain ⟨dialed, H, heq⟩ := timerFires_cases hstate
      rw [heq] at hord ⊢
      have hk : Stopped { s with
          reconnectTimeout := none
          reconnectAttempt := s.reconnectAttempt + 1 } :=
        ⟨⟨fun hs => absurd hs hstate, h.ordered.closing⟩, fun _ => rfl, h.down, h.held⟩
      exact (H.stopped hk).same hord rfl rfl rfl rfl rfl
  | connectionCloses =>
    unfold State.connectionCloses at hord ⊢
    dsimp only at hord ⊢
    split
    · next hwatched =>
      have hup : s.isShuttingDown = false := hwatched.2
      rw [startReconnection_fst (by exact hup)]
      exact stopped_retrying c ⟨h.ordered.connected, h.ordered.closing⟩ hup rfl
    · next hwatched =>
      rw [if_neg hwatched] at hord
      exact h.same hord rfl rfl rfl rfl rfl
  | disconnectCloses =>
    unfold State.disconnectCloses at hord ⊢
    rw [setConnectionState_fst] at hord ⊢
    refine ⟨hord, h.unarmed, fun _ hup => ?_, fun _ hheld => ?_⟩
    · cases hup
    · cases hheld

/-! ## Until the next call of `connect` -/

/-- The calls of `#attemptReconnect` that a connection has landed for, and that will say so. -/
def State.promised (s : State) : Nat :=
  s.landed.countP Option.isSome + match s.connectPromise with
    | some (.returned (some _)) => s.attempts
    | _ => 0

/-- An open connection that nobody has called `close` on. -/
def State.neglected (s : State) (connection : Nat) : Prop :=
  ∃ watched, s.connections.get? connection = some ⟨true, false, watched⟩

/-- What a client that is shut down may still say. -/
def Emitted.late : Emitted → Bool
  | .connectionStateChanged _ | .reconnected => true
  | .connected _ | .disconnected | .reconnectFailed => false

/-- From one state to the other nothing came back. -/
structure Stays (s : State) (out : List Emitted) (s' : State) : Prop where
  down : s'.isShuttingDown = true
  connection : s'.connection = s.connection ∨ s'.connection = none
  neglected : ∀ connection, s'.neglected connection → s.neglected connection
  late : ∀ e ∈ out, e.late
  promised : s'.promised + out.count .reconnected ≤ s.promised

theorem stays_refl (hdown : s.isShuttingDown = true) : Stays s [] s :=
  ⟨hdown, .inl rfl, fun _ h => h, fun _ h => (by cases h), Nat.le_refl _⟩

theorem Stays.trans {t : State} {out out' : List Emitted} (h : Stays s out s')
    (h' : Stays s' out' t) : Stays s (out ++ out') t := by
  refine ⟨h'.down, ?_, fun connection hn => h.neglected _ (h'.neglected _ hn), fun e he => ?_, ?_⟩
  · rcases h'.connection with heq | hnone
    · rw [heq]
      exact h.connection
    · exact .inr hnone
  · rcases List.mem_append.mp he with he | he
    · exact h.late e he
    · exact h'.late e he
  · have hfirst := h.promised
    have hsecond := h'.promised
    rw [List.count_append]
    omega

theorem setConnectionState_states (s : State) (state : ConnectionState) :
    ∀ e ∈ (s.setConnectionState state).2, ∃ state, e = .connectionStateChanged state := by
  unfold State.setConnectionState
  split
  · intro e he
    cases he
  · intro e he
    exact ⟨state, List.mem_singleton.mp he⟩

/-- Nothing is said but the state. -/
theorem stays_of_states {out : List Emitted} (hdown : s'.isShuttingDown = true)
    (hconnection : s'.connection = s.connection ∨ s'.connection = none)
    (hneglected : ∀ connection, s'.neglected connection → s.neglected connection)
    (hpromised : s'.promised ≤ s.promised)
    (hout : ∀ e ∈ out, ∃ state, e = .connectionStateChanged state) : Stays s out s' := by
  refine ⟨hdown, hconnection, hneglected, fun e he => ?_, ?_⟩
  · obtain ⟨state, rfl⟩ := hout e he
    rfl
  · have hnone : out.count .reconnected = 0 := List.count_eq_zero.mpr fun hmem => by
      obtain ⟨state, hstate⟩ := hout _ hmem
      cases hstate
    omega

/-- A connection is entered or changed, and if it is open its `close` was called. -/
theorem neglected_of_set {connection : Nat} {amqp : Amqp}
    (h : s'.connections = s.connections.set connection amqp)
    (hclosed : amqp.live = true → amqp.closeCalled = true ∨
      s.connections.get? connection = some amqp) :
    ∀ k, s'.neglected k → s.neglected k := by
  rintro k ⟨watched, hget⟩
  rw [h, OrderedMap.get?_set] at hget
  split at hget
  · next hk =>
    cases hget
    rcases hclosed rfl with hc | hsame
    · cases hc
    · exact ⟨watched, hk ▸ hsame⟩
  · exact ⟨watched, hget⟩

theorem disconnect_states (s : State) (call : Nat) :
    ∀ e ∈ (s.disconnect call).2, ∃ state, e = .connectionStateChanged state := by
  unfold State.disconnect
  dsimp only
  split
  · intro e he
    cases he
  · split
    · exact setConnectionState_states _ _
    · intro e he
      rcases List.mem_append.mp he with he | he
      · exact setConnectionState_states _ _ e he
      · exact setConnectionState_states _ _ e he

theorem stays_disconnect (s : State) (call : Nat) :
    Stays s (s.disconnect call).2 (s.disconnect call).1 := by
  obtain ⟨hpromise, hattempts, hlanded, hdown⟩ := disconnect_frame s call
  refine stays_of_states hdown (.inl (disconnect_fst s call).1) ?_ (Nat.le_of_eq ?_)
    (disconnect_states s call)
  · unfold State.disconnect
    dsimp only
    split
    · exact fun _ h => h
    · simp only [setConnectionState_fst]
      split
      · exact neglected_of_set rfl fun _ => .inl rfl
      · exact fun _ h => h
  · unfold State.promised
    rw [hpromise, hattempts, hlanded]

/-- While a client is shut down, and nobody calls `connect`, it stays so. -/
theorem Steps.stays {r : State × List Emitted} (H : Steps c s event r) (h : Stopped s)
    (hdown : s.isShuttingDown = true) (hasked : event ≠ .connect) : Stays s r.2 r.1 := by
  cases H with
  | connect => exact absurd rfl hasked
  | @disconnect call => exact stays_disconnect s call
  | @dialSucceeds connection attempt _ hdial =>
    unfold State.dialSucceeds
    rw [if_pos hdown]
    refine stays_of_states hdown (.inl rfl) (neglected_of_set rfl fun _ => .inl rfl) ?_ fun _ he => ?_
    · simp [State.promised]
    · cases he
  | @dialFails attempt _ hdial =>
    unfold State.dialFails
    dsimp only
    split
    · refine stays_of_states hdown (.inl rfl) (fun _ hn => hn) ?_ fun _ he => ?_
      · simp [State.promised]
      · cases he
    · rw [setConnectionState_fst]
      refine stays_of_states hdown (.inr rfl) (fun _ hn => hn) ?_ (setConnectionState_states _ _)
      simp [State.promised]
  | @discarded connection _ hdial =>
    unfold State.discarded
    rw [setConnectionState_fst]
    refine stays_of_states hdown (.inl rfl) (neglected_of_set rfl fun hl => by cases hl) ?_
      (setConnectionState_states _ _)
    simp [State.promised]
  | @dialSettles result hdial =>
    refine stays_of_states hdown (.inl rfl) (fun _ hn => hn) ?_ fun _ he => by cases he
    cases result with
    | none => simp [State.promised, State.dialSettles, List.countP_replicate]
    | some connection => simp [State.promised, State.dialSettles, hdial, List.countP_replicate]
  | @attemptResumes result rest hlanded =>
    refine ⟨hdown, .inl rfl, fun _ hn => hn, ?_, ?_⟩
    · unfold State.attemptResumes
      dsimp only
      split
      · exact fun e he => List.mem_singleton.mp he ▸ rfl
      · exact fun e he => by cases he
    · cases result with
      | none => simp [State.promised, State.attemptResumes, hlanded]
      | some connection =>
        simp only [State.promised, State.attemptResumes, hlanded, Option.isSome_some, if_true,
          List.countP_cons_of_pos, List.count_singleton_self]
        omega
  | timerFires _ harmed =>
    rw [h.unarmed hdown] at harmed
    cases harmed
  | @connectionCloses connection amqp =>
    unfold State.connectionCloses
    dsimp only
    split
    · next hwatched => cases hdown.symm.trans hwatched.2
    · exact stays_of_states hdown (.inl rfl) (neglected_of_set rfl fun hl => by cases hl)
        (Nat.le_refl _) fun _ he => by cases he
  | @disconnectCloses call connection =>
    unfold State.disconnectCloses
    rw [setConnectionState_fst]
    exact stays_of_states hdown (.inr rfl) (neglected_of_set rfl fun hl => by cases hl)
      (Nat.le_refl _) (setConnectionState_states _ _)

end Connection
end RabbitMQ

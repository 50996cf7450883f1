import RabbitMQ.Connection.Connection

/-! The connection in every run, shutdown included. -/

namespace RabbitMQ
namespace Connection

open Transition

/-- A step of the connection, without what it emits. -/
def next (c : Config) (s : State) (event : Event) : Option State := (step c s event).map Prod.fst

theorem next_cases {c : Config} {s s' : State} {event : Event} (h : next c s event = some s') :
    ∃ out, Steps c s event (s', out) := by
  obtain ⟨⟨s₁, out⟩, hs, rfl⟩ := Option.map_eq_some_iff.mp h
  exact ⟨out, step_cases hs⟩

/-! ## Connections age -/

def State.alive (s : State) (connection : Nat) : Bool :=
  (s.connections.get? connection).any (·.live)

/-- Connections are never forgotten, and a dead one stays dead. -/
structure Ages (s s' : State) : Prop where
  known : ∀ c ∈ s.connections, c ∈ s'.connections
  alive : ∀ c ∈ s.connections, s'.alive c → s.alive c

theorem Ages.of_eq {s s' : State} (h : s'.connections = s.connections) : Ages s s' :=
  ⟨fun _ hc => h ▸ hc, fun c _ hc => by simpa only [State.alive, h] using hc⟩

/-- A connection is entered or changed, without coming back to life. -/
theorem Ages.of_set {s s' : State} {connection : Nat} {amqp : Amqp}
    (h : s'.connections = s.connections.set connection amqp)
    (hlive : connection ∈ s.connections → amqp.live = true → s.alive connection) : Ages s s' := by
  refine ⟨fun c hc => ?_, fun c hc ha => ?_⟩
  · rw [h]
    exact OrderedMap.mem_set.mpr (.inr hc)
  · simp only [State.alive, h, OrderedMap.get?_set] at ha
    split at ha
    · next hcc =>
      subst hcc
      exact hlive hc (by simpa using ha)
    · exact ha

theorem disconnect_ages (s : State) (call : Nat) : Ages s (s.disconnect call).1 := by
  unfold State.disconnect
  dsimp only
  split
  · exact .of_eq rfl
  · simp only [setConnectionState_fst]
    split
    · exact .of_set rfl fun _ hlive => hlive
    · exact .of_eq (by simp)

theorem Connects.ages {s s' : State} (H : Connects s s') : Ages s s' := by
  cases H <;> exact .of_eq rfl

theorem Connects.same {s s' : State} (H : Connects s s') :
    s'.connection = s.connection ∧ s'.isReconnecting = s.isReconnecting := by
  cases H <;> exact ⟨rfl, rfl⟩

/-- The timer leaves the installed connection alone. -/
theorem timerFires_same (s : State) : Ages s s.timerFires.1 ∧
    s.timerFires.1.connection = s.connection ∧
      s.timerFires.1.isReconnecting = s.isReconnecting := by
  by_cases hstate : s.connectionState = .connected
  · unfold State.timerFires
    dsimp only [State.clearReconnectTimeout]
    rw [if_pos hstate]
    exact ⟨.of_eq rfl, rfl, rfl⟩
  · obtain ⟨dialed, H, heq⟩ := timerFires_cases hstate
    rw [heq]
    obtain ⟨hconn, hre⟩ := H.same
    have hages := H.ages
    exact ⟨⟨hages.known, hages.alive⟩, hconn, hre⟩

theorem disconnect_fst (s : State) (call : Nat) :
    (s.disconnect call).1.connection = s.connection ∧
      (s.disconnect call).1.isReconnecting = false := by
  unfold State.disconnect
  dsimp only
  split
  · exact ⟨rfl, rfl⟩
  · simp only [setConnectionState_fst]
    split
    · exact ⟨rfl, rfl⟩
    · simp

/-- A shutdown leaves the dial in flight, and those who await it, alone. -/
theorem disconnect_frame (s : State) (call : Nat) :
    (s.disconnect call).1.connectPromise = s.connectPromise ∧
      (s.disconnect call).1.attempts = s.attempts ∧ (s.disconnect call).1.landed = s.landed ∧
      (s.disconnect call).1.isShuttingDown = true := by
  unfold State.disconnect
  dsimp only
  split
  · exact ⟨rfl, rfl, rfl, rfl⟩
  · simp only [setConnectionState_fst]
    split <;> simp

theorem disconnect_down (s : State) (call : Nat) :
    (s.disconnect call).1.reconnectTimeout = none ∧
      ((s.disconnect call).1.connectionState = .disconnected ∨
        (s.disconnect call).1.connectionState = .disconnecting) := by
  unfold State.disconnect
  dsimp only
  split
  · next hs => exact ⟨rfl, .inl hs⟩
  · simp only [setConnectionState_fst]
    split
    · exact ⟨rfl, .inr rfl⟩
    · simp

/-! ## Order -/

/-- No timer runs while the connection is up, and only a shutdown discards a connection. -/
structure Ordered (s : State) : Prop where
  connected : s.connectionState = .connected →
    s.isReconnecting = false ∧ s.reconnectTimeout = none
  closing : ∀ c, s.connectPromise = some (.closing c) → s.isShuttingDown = true

theorem ordered_start : Ordered start := ⟨nofun, nofun⟩

theorem Connects.ordered {s s' : State} (H : Connects s s') (h : Ordered s) : Ordered s' := by
  cases H with
  | joins => exact h
  | already hidle => exact ⟨h.connected, nofun⟩
  | dials hidle => exact ⟨nofun, nofun⟩

theorem disconnect_ordered (s : State) (call : Nat) : Ordered (s.disconnect call).1 := by
  unfold State.disconnect
  dsimp only
  split
  · exact ⟨fun _ => ⟨rfl, rfl⟩, fun _ _ => rfl⟩
  · simp only [setConnectionState_fst]
    split
    · exact ⟨by simp, fun _ _ => rfl⟩
    · exact ⟨by simp, by simp⟩

/-- `startReconnection` arms the timer of a connection that is not up, or gives up. -/
theorem Ordered.retrying {s : State} (h : Ordered s) (c : Config) : Ordered (s.retrying c) := by
  have hdown : (s.retrying c).connectionState ≠ .connected :=
    retrying_idle s c fun hr hstate => by cases hr.symm.trans (h.connected hstate).1
  have hframe := retrying_frame s c
  refine ⟨fun hstate => absurd hstate hdown, fun x hx => ?_⟩
  rw [hframe] at hx ⊢
  exact h.closing x hx

theorem Steps.ordered {c : Config} {s : State} {event : Event} {r : State × List Emitted}
    (H : Steps c s event r) (h : Ordered s) : Ordered r.1 := by
  cases H with
  | connect => exact (connect_cases s).ordered h
  | disconnect => exact disconnect_ordered s _
  | dialSucceeds _ hdial =>
    cases hdown : s.isShuttingDown with
    | true =>
      unfold State.dialSucceeds
      rw [if_pos hdown]
      exact ⟨h.connected, fun _ _ => hdown⟩
    | false =>
      rw [dialSucceeds_fst hdown]
      exact ⟨fun _ => ⟨rfl, rfl⟩, nofun⟩
  | dialFails _ hdial =>
    unfold State.dialFails
    dsimp only
    split
    · exact ⟨h.connected, nofun⟩
    · split
      · simp only [setConnectionState_fst]
        exact ⟨nofun, nofun⟩
      · next hdown =>
        rw [startReconnection_fst (by simpa using hdown)]
        refine Ordered.retrying ?_ c
        exact ⟨h.connected, nofun⟩
  | discarded =>
    unfold State.discarded
    rw [setConnectionState_fst]
    exact ⟨nofun, nofun⟩
  | dialSettles => exact ⟨h.connected, nofun⟩
  | attemptResumes => exact ⟨h.connected, h.closing⟩
  | timerFires =>
    by_cases hstate : s.connectionState = .connected
    · unfold State.timerFires
      dsimp only [State.clearReconnectTimeout]
      rw [if_pos hstate]
      exact ⟨fun _ => ⟨(h.connected hstate).1, rfl⟩, h.closing⟩
    · obtain ⟨dialed, H, heq⟩ := timerFires_cases hstate
      rw [heq]
      have hk : Ordered { s with
          reconnectTimeout := none
          reconnectAttempt := s.reconnectAttempt + 1 } :=
        ⟨fun hs => absurd hs hstate, h.closing⟩
      exact ⟨(H.ordered hk).connected, (H.ordered hk).closing⟩
  | connectionCloses =>
    unfold State.connectionCloses
    dsimp only
    split
    · next hw =>
      rw [startReconnection_fst (by exact hw.2)]
      refine Ordered.retrying ?_ c
      exact ⟨h.connected, h.closing⟩
    · exact ⟨h.connected, h.closing⟩
  | disconnectCloses =>
    unfold State.disconnectCloses
    rw [setConnectionState_fst]
    exact ⟨nofun, h.closing⟩

end Connection
end RabbitMQ

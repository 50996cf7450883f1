import RabbitMQ.Connection.Lifecycle

/-! Every connection that was dialed is held, closed or being closed.

The one step that can lose a connection is the end of `disconnect`: it clears the field whatever is
in it by then. -/

namespace RabbitMQ
namespace Connection

open Transition

variable {c : Config} {s s' : State}

/-- The connection a step tears down. -/
def State.tearsDown (s : State) : Event → Option Nat
  | .connectionCloses connection => some connection
  | .disconnectCloses call => s.closing.get? call
  | _ => none

/-- A close that `disconnect` awaited settles while its connection is still in the field, or
nothing is. -/
def ClosesOwn (s : State) : Event → Prop
  | .disconnectCloses call => ∀ x ∈ s.closing.get? call, ∀ y ∈ s.connection, y = x
  | _ => True

instance (s : State) (event : Event) : Decidable (ClosesOwn s event) :=
  match event with
  | .disconnectCloses _ => by dsimp only [ClosesOwn]; infer_instance
  | .connect | .disconnect _ | .dialSucceeds _ | .dialFails | .discarded | .dialSettles
  | .attemptResumes | .timerFires | .connectionCloses _ => instDecidableTrue

structure Owned (s : State) : Prop where
  owned : ∀ x amqp, s.connections.get? x = some amqp → amqp.live → amqp.closeCalled = false →
    s.connection = some x
  watched : ∀ x amqp, s.connections.get? x = some amqp → amqp.watched → amqp.closeCalled = false
  /-- a connection in use is the outcome of the last dial -/
  up : ∀ x amqp, s.connection = some x → s.connections.get? x = some amqp → amqp.live →
    amqp.closeCalled = false → s.connectionState = .connected ∧
      (∀ attempt, s.connectPromise ≠ some (.dialing attempt)) ∧
      ∀ y, s.connectPromise ≠ some (.closing y)

theorem owned_start : Owned start := ⟨nofun, nofun, nofun⟩

/-- While a dial is in flight every open connection is being closed. -/
theorem Owned.closing (h : Owned s) (hdial : (∃ attempt, s.connectPromise = some (.dialing attempt)) ∨
    ∃ y, s.connectPromise = some (.closing y)) {x : Nat} {amqp : Amqp}
    (hx : s.connections.get? x = some amqp) (hlive : amqp.live) : amqp.closeCalled = true := by
  cases hclose : amqp.closeCalled with
  | true => rfl
  | false =>
    obtain ⟨-, hno, hno'⟩ := h.up x amqp (h.owned x amqp hx hlive hclose) hx hlive hclose
    rcases hdial with ⟨attempt, hd⟩ | ⟨y, hd⟩
    · exact absurd hd (hno attempt)
    · exact absurd hd (hno' y)

/-- Nothing in use: the field, the state and the dial may change. -/
theorem Owned.unused (h : Owned s) (hconns : s'.connections = s.connections)
    (hclosed : ∀ x amqp, s.connections.get? x = some amqp → amqp.live → amqp.closeCalled = true) :
    Owned s' := by
  refine ⟨fun x amqp hx hlive hclose => ?_, fun x amqp hx => ?_,
    fun x amqp _ hx hlive hclose => ?_⟩
  · rw [hconns] at hx
    cases (hclosed x amqp hx hlive).symm.trans hclose
  · rw [hconns] at hx
    exact h.watched x amqp hx
  · rw [hconns] at hx
    cases (hclosed x amqp hx hlive).symm.trans hclose

/-- One connection is entered or changed, being closed or dead; what else is in use stays so. -/
theorem Owned.set (h : Owned s) {y : Nat} {new : Amqp}
    (hconns : s'.connections = s.connections.set y new)
    (hwatched : new.watched → new.closeCalled = false)
    (hgone : new.live → new.closeCalled = true)
    (hothers : ∀ x amqp, x ≠ y → s.connections.get? x = some amqp → amqp.live →
      amqp.closeCalled = false → s'.connection = some x ∧ s'.connectionState = .connected ∧
        (∀ attempt, s'.connectPromise ≠ some (.dialing attempt)) ∧
        ∀ z, s'.connectPromise ≠ some (.closing z)) : Owned s' := by
  have hcases : ∀ x amqp, s'.connections.get? x = some amqp → amqp.live →
      amqp.closeCalled = false → x ≠ y ∧ s.connections.get? x = some amqp := by
    intro x amqp hx hlive hclose
    rw [hconns, OrderedMap.get?_set] at hx
    split at hx
    · cases hx
      cases (hgone hlive).symm.trans hclose
    · exact ⟨‹_›, hx⟩
  refine ⟨fun x amqp hx hlive hclose => ?_, fun x amqp hx hw => ?_,
    fun x amqp hconn hx hlive hclose => ?_⟩
  · obtain ⟨hne, hbefore⟩ := hcases x amqp hx hlive hclose
    exact (hothers x amqp hne hbefore hlive hclose).1
  · rw [hconns, OrderedMap.get?_set] at hx
    split at hx
    · cases hx
      exact hwatched hw
    · exact h.watched x amqp hx hw
  · obtain ⟨hne, hbefore⟩ := hcases x amqp hx hlive hclose
    exact (hothers x amqp hne hbefore hlive hclose).2

/-- A connection in use stays in use. -/
theorem Owned.others (h : Owned s) {x : Nat} {amqp : Amqp}
    (hx : s.connections.get? x = some amqp) (hlive : amqp.live) (hclose : amqp.closeCalled = false) :
    s.connection = some x ∧ s.connectionState = .connected ∧
      (∀ attempt, s.connectPromise ≠ some (.dialing attempt)) ∧
      ∀ z, s.connectPromise ≠ some (.closing z) := by
  have hconn := h.owned x amqp hx hlive hclose
  exact ⟨hconn, h.up x amqp hconn hx hlive hclose⟩

theorem Connects.owned (H : Connects s s') (h : Owned s) : Owned s' := by
  cases H with
  | joins => exact h
  | already hidle hstate hconn =>
    exact ⟨h.owned, h.watched, fun x amqp hx hget hlive hclose =>
      ⟨(h.up x amqp hx hget hlive hclose).1, nofun, nofun⟩⟩
  | dials hidle hlost =>
    refine h.unused rfl fun x amqp hx hlive => ?_
    cases hclose : amqp.closeCalled with
    | true => rfl
    | false =>
      obtain ⟨hconn, hstate, -⟩ := h.others hx hlive hclose
      cases hconn.symm.trans (hlost hstate)

theorem Owned.disconnect (h : Owned s) (call : Nat) : Owned (s.disconnect call).1 := by
  unfold State.disconnect
  dsimp only
  split
  · exact ⟨h.owned, h.watched, h.up⟩
  · cases hconn : s.connection with
    | none =>
      simp only [setConnectionState_fst]
      refine h.unused rfl fun x amqp hx hlive => ?_
      cases hclose : amqp.closeCalled with
      | true => rfl
      | false => cases hconn.symm.trans (h.others hx hlive hclose).1
    | some y =>
      simp only [setConnectionState_fst]
      refine h.set rfl (by simp) (fun _ => rfl) fun x amqp hne hx hlive hclose => ?_
      cases hconn.symm.trans (h.others hx hlive hclose).1
      exact absurd rfl hne

/-- A dial that lands or gives up finds every open connection being closed. -/
theorem Owned.dialSucceeds (h : Owned s) {connection attempt : Nat}
    (hdial : s.connectPromise = some (.dialing attempt)) :
    Owned (s.dialSucceeds connection).1 := by
  have hclosing : ∀ x amqp, s.connections.get? x = some amqp → amqp.live →
      amqp.closeCalled = true := fun x amqp => h.closing (.inl ⟨attempt, hdial⟩)
  cases hdown : s.isShuttingDown with
  | true =>
    unfold State.dialSucceeds
    rw [if_pos hdown]
    refine h.set rfl nofun (fun _ => rfl) fun x amqp _ hx hlive hclose => ?_
    cases (hclosing x amqp hx hlive).symm.trans hclose
  | false =>
    rw [dialSucceeds_fst hdown]
    refine ⟨fun x amqp hx hlive hclose => ?_, fun x amqp hx hw => ?_,
      fun x amqp hconn hx hlive hclose => ⟨rfl, nofun, nofun⟩⟩
    · rw [OrderedMap.get?_set] at hx
      split at hx
      · next heq => rw [heq]
      · cases (hclosing x amqp hx hlive).symm.trans hclose
    · rw [OrderedMap.get?_set] at hx
      split at hx
      · cases hx
        rfl
      · exact h.watched x amqp hx hw

theorem Owned.dialFails (h : Owned s) {attempt : Nat}
    (hdial : s.connectPromise = some (.dialing attempt)) : Owned (s.dialFails c attempt).1 := by
  have hclosing : ∀ x amqp, s.connections.get? x = some amqp → amqp.live →
      amqp.closeCalled = true := fun x amqp => h.closing (.inl ⟨attempt, hdial⟩)
  unfold State.dialFails
  dsimp only
  split
  · exact h.unused rfl hclosing
  · split
    · simp only [setConnectionState_fst]
      exact h.unused rfl hclosing
    · next hdown =>
      rw [startReconnection_fst (by simpa using hdown), retrying_frame]
      exact h.unused rfl hclosing

theorem Owned.connectionCloses (h : Owned s) {connection : Nat} {amqp : Amqp}
    (hconn : s.connections.get? connection = some amqp) (hlive : amqp.live) :
    Owned (s.connectionCloses c connection amqp).1 := by
  have hclose : ∀ hw : amqp.watched, s.connection = some connection := fun hw =>
    h.owned connection amqp hconn hlive (h.watched connection amqp hconn hw)
  unfold State.connectionCloses
  dsimp only
  split
  · next hw =>
    rw [startReconnection_fst (by exact hw.2), retrying_frame]
    refine h.set rfl (h.watched connection amqp hconn) nofun fun x amqp' hne hx hlive' hclose' => ?_
    cases (hclose hw.1).symm.trans (h.others hx hlive' hclose').1
    exact absurd rfl hne
  · exact h.set rfl (h.watched connection amqp hconn) nofun fun x amqp' _ hx => h.others hx

theorem Steps.owned {event : Event} {r : State × List Emitted} (H : Steps c s event r)
    (hok : ClosesOwn s event) (h : Owned s) : Owned r.1 := by
  cases H with
  | connect => exact (connect_cases s).owned h
  | disconnect => exact h.disconnect _
  | dialSucceeds _ hdial => exact h.dialSucceeds hdial
  | dialFails _ hdial => exact h.dialFails hdial
  | @discarded connection _ hdial =>
    unfold State.discarded
    rw [setConnectionState_fst]
    refine h.set rfl nofun nofun fun x amqp _ hx hlive hclose => ?_
    cases (h.closing (.inr ⟨connection, hdial⟩) hx hlive).symm.trans hclose
  | dialSettles hdial =>
    exact ⟨h.owned, h.watched, fun x amqp hx hget hlive hclose =>
      ⟨(h.up x amqp hx hget hlive hclose).1, nofun, nofun⟩⟩
  | attemptResumes => exact ⟨h.owned, h.watched, h.up⟩
  | timerFires hquiet harmed =>
    by_cases hstate : s.connectionState = .connected
    · unfold State.timerFires
      dsimp only [State.clearReconnectTimeout]
      rw [if_pos hstate]
      exact ⟨h.owned, h.watched, h.up⟩
    · obtain ⟨dialed, H, heq⟩ := timerFires_cases hstate
      rw [heq]
      have hk : Owned { s with
          reconnectTimeout := none
          reconnectAttempt := s.reconnectAttempt + 1 } := ⟨h.owned, h.watched, h.up⟩
      have hd := H.owned hk
      exact ⟨hd.owned, hd.watched, hd.up⟩
  | connectionCloses _ hconn hlive => exact h.connectionCloses hconn hlive
  | @disconnectCloses call connection hcall =>
    unfold State.disconnectCloses
    rw [setConnectionState_fst]
    refine h.set rfl nofun nofun fun x amqp hne hx hlive hclose => ?_
    exact absurd (hok connection hcall x (h.others hx hlive hclose).1) hne

theorem owned (hr : Reach (next c) ClosesOwn start s) : Owned s :=
  hr.invariant owned_start fun h hok hs => by
    obtain ⟨out, H⟩ := next_cases hs
    exact H.owned hok h

/-- Every open connection that a dial ever gave is the installed one or has had `close` called on
it, and whoever tears a connection down clears the field of that connection only, in every run in
which no awaited close settles after another connection took the field. -/
theorem no_orphaned_connection (hr : Reach (next c) ClosesOwn start s) :
    (∀ x amqp, s.connections.get? x = some amqp → amqp.live →
      s.connection = some x ∨ amqp.closeCalled = true) ∧
    ∀ event s' x y, ClosesOwn s event → next c s event = some s' →
      s.tearsDown event = some x → s.connection = some y → s'.connection = none → y = x := by
  have h := owned hr
  refine ⟨fun x amqp hx hlive => ?_, fun event s' x y hok hs hdown hconn hnone => ?_⟩
  · cases hclose : amqp.closeCalled with
    | true => exact .inr rfl
    | false => exact .inl (h.owned x amqp hx hlive hclose)
  · obtain ⟨out, H⟩ := next_cases hs
    generalize hrr : (s', out) = r at H
    cases H with
    | connectionCloses _ hget hlive =>
      obtain rfl := Option.some.inj hdown
      obtain rfl : _ = s' := (congrArg Prod.fst hrr).symm
      unfold State.connectionCloses at hnone
      dsimp only at hnone
      split at hnone
      · next hw =>
        have hown := h.owned _ _ hget hlive (h.watched _ _ hget hw.1)
        exact Option.some.inj (hconn.symm.trans hown)
      · cases hconn.symm.trans hnone
    | disconnectCloses hcall => exact hok x hdown y hconn
    | _ => cases hdown

/-! ## Runs -/

def singleEndpoint : Config := ⟨1, 1000, 30000, none⟩

/-- `disconnect`, and a `connect` after the close settled. -/
theorem no_orphaned_connection_run : ∃ s, Reach (next singleEndpoint) ClosesOwn start s ∧
    s.connection = some 1 ∧ ∀ x amqp, s.connections.get? x = some amqp → amqp.live →
      s.connection = some x ∨ amqp.closeCalled = true := by
  have hrun : (run (next singleEndpoint) ClosesOwn start [.connect, .dialSucceeds 0, .dialSettles,
      .disconnect 0, .disconnectCloses 0, .connect, .dialSucceeds 1, .dialSettles]).any
        (fun s => decide (s.connection = some 1)) := by
    decide +kernel
  obtain ⟨s, hs, hconn⟩ := (Option.any_eq_true _ _).mp hrun
  have hr := reach_of_run hs
  exact ⟨s, hr, of_decide_eq_true hconn, (no_orphaned_connection hr).1⟩

/-- A `connect` while `disconnect` awaits the old connection's close: when that settles, the new
connection is open, unclosed and in nobody's hands. -/
theorem connection_orphaned : ∃ s x amqp, Reach (next singleEndpoint) anyStep start s ∧
    s.connections.get? x = some amqp ∧ amqp.live = true ∧ s.connection = none ∧
      amqp.closeCalled = false := by
  have hrun : (run (next singleEndpoint) anyStep start [.connect, .dialSucceeds 0, .dialSettles,
      .disconnect 0, .connect, .dialSucceeds 1, .dialSettles, .disconnectCloses 0]).any
        (fun s => decide (s.connections.get? 1 = some ⟨true, false, true⟩ ∧
          s.connection = none)) := by
    decide +kernel
  obtain ⟨s, hs, h⟩ := (Option.any_eq_true _ _).mp hrun
  obtain ⟨hget, hconn⟩ := of_decide_eq_true h
  exact ⟨s, 1, _, reach_of_run hs, hget, rfl, hconn, rfl⟩

end Connection
end RabbitMQ

import RabbitMQ.Connection.Lifecycle

/-! A `connect` after a `disconnect` puts the connection to work again.

Only a dial that starts afresh takes the shutdown back. A call that joins a dial the shutdown has
doomed is lost with it, and so is a call whose connection the end of an earlier `disconnect`
clears. -/

namespace RabbitMQ
namespace Connection

open Transition

variable {c : Config}

/-- The connection, and whether the last of the calls of `connect` and `disconnect` was a
`connect`. -/
structure Called where
  state : State
  wanted : Bool

/-- Which call was the last. -/
def Event.wants (event : Event) (wanted : Bool) : Bool :=
  match event with
  | .connect => true
  | .disconnect _ => false
  | _ => wanted

def called (c : Config) (w : Called) (event : Event) : Option Called :=
  (next c w.state event).map fun s => ⟨s, event.wants w.wanted⟩

/-- No `connect` joins a dial while the client is shut down, and no close that `disconnect` awaited
settles on a client that a later `connect` has brought up, or that gave up since. -/
def Reenables (w : Called) : Event → Prop
  | .connect => w.state.connectPromise.isSome → w.state.isShuttingDown = false
  | .disconnectCloses _ => w.wanted → w.state.connectionState ≠ .connected ∧
      w.state.connectionState ≠ .failed
  | _ => True

instance (w : Called) (event : Event) : Decidable (Reenables w event) :=
  match event with
  | .connect | .disconnectCloses _ => by dsimp only [Reenables]; infer_instance
  | .disconnect _ | .dialSucceeds _ | .dialFails | .discarded | .dialSettles | .attemptResumes
  | .timerFires | .connectionCloses _ => instDecidableTrue

/-- Connected, about to dial again, or given up. -/
def State.Enabled (s : State) : Prop :=
  s.connectionState = .connected ∧ s.connection.isSome ∨ s.reconnectTimeout.isSome ∨
    s.connectionState = .failed

structure Enabling (w : Called) : Prop where
  ordered : Ordered w.state
  connected : w.state.connectionState = .connected → w.state.connection.isSome ∧
    w.state.isShuttingDown = false ∧ ∀ attempt, w.state.connectPromise ≠ some (.dialing attempt)
  armed : w.state.reconnectTimeout.isSome → w.state.isShuttingDown = false
  running : w.wanted → w.state.isShuttingDown = false
  stopped : w.wanted = false → w.state.isShuttingDown = true ∨ w.state = start
  wanted : w.wanted → w.state.Enabled ∨
    ∃ attempt, w.state.connectPromise = some (.dialing attempt)

theorem enabling_start : Enabling ⟨start, false⟩ :=
  ⟨ordered_start, nofun, nofun, nofun, fun _ => .inr rfl, nofun⟩

variable {s : State} {wanted : Bool}

/-- The last call was a `connect` wherever something other than the shutdown is going on. -/
theorem Enabling.called (h : Enabling ⟨s, wanted⟩) (hdown : s.isShuttingDown = false)
    (hbusy : s ≠ start) : wanted = true := by
  cases hw : wanted with
  | true => rfl
  | false =>
    rcases h.stopped hw with hd | hs
    · cases hdown.symm.trans hd
    · exact absurd hs hbusy

/-- `startReconnection` on a connection that is gone. -/
theorem enabling_retrying (c : Config) (hord : Ordered s) (hdown : s.isShuttingDown = false) :
    Enabling ⟨s.retrying c, true⟩ := by
  have hidle : (s.retrying c).connectionState ≠ .connected :=
    retrying_idle s c fun hr hstate => by cases hr.symm.trans (hord.connected hstate).1
  have hrunning : (s.retrying c).isShuttingDown = false := by
    rw [retrying_frame]
    exact hdown
  exact ⟨hord.retrying c, fun hstate => absurd hstate hidle, fun _ => hrunning, fun _ => hrunning,
    nofun, fun _ => .inl (.inr (retrying_armed s c))⟩

/-- Nothing that matters here changes. -/
theorem Enabling.same (h : Enabling ⟨s, wanted⟩) {s' : State} (hord : Ordered s')
    (hbusy : s ≠ start) (hconn : s'.connection = s.connection)
    (hstate : s'.connectionState = s.connectionState)
    (hdown : s'.isShuttingDown = s.isShuttingDown)
    (htimer : s'.reconnectTimeout = s.reconnectTimeout)
    (hdial : (∃ attempt, s'.connectPromise = some (.dialing attempt)) ↔
      ∃ attempt, s.connectPromise = some (.dialing attempt)) : Enabling ⟨s', wanted⟩ := by
  refine ⟨hord, fun hs => ?_, fun ht => ?_, fun hw => hdown.trans (h.running hw), fun hw => ?_,
    fun hw => ?_⟩
  · obtain ⟨h₁, h₂, h₃⟩ := h.connected (hstate ▸ hs)
    refine ⟨by rw [hconn]; exact h₁, hdown.trans h₂, fun attempt ha => ?_⟩
    obtain ⟨attempt', ha'⟩ := hdial.mp ⟨attempt, ha⟩
    exact h₃ attempt' ha'
  · exact hdown.trans (h.armed (htimer ▸ ht))
  · exact .inl (hdown.trans ((h.stopped hw).resolve_right hbusy))
  · rcases h.wanted hw with he | ha
    · left
      unfold State.Enabled at he ⊢
      rw [hstate, hconn, htimer]
      exact he
    · exact .inr (hdial.mpr ha)

/-- The client is shut down, with no timer and no connection in use. -/
theorem Enabling.down (h : Enabling ⟨s, wanted⟩) {s' : State} (hord : Ordered s')
    (hdown : s.isShuttingDown = true) (hdown' : s'.isShuttingDown = true)
    (hstate : s'.connectionState ≠ .connected)
    (htimer : s'.reconnectTimeout = s.reconnectTimeout) : Enabling ⟨s', wanted⟩ := by
  have hoff : wanted = true → False := fun hw => by cases (h.running hw).symm.trans hdown
  refine ⟨hord, fun hs => absurd hs hstate, fun ht => ?_, fun hw => (hoff hw).elim,
    fun _ => .inl hdown', fun hw => (hoff hw).elim⟩
  cases (h.armed (htimer ▸ ht)).symm.trans hdown

theorem Connects.enabling {s' : State} (H : Connects s s') (h : Enabling ⟨s, wanted⟩)
    (hdown : s.connectPromise.isSome → s.isShuttingDown = false) : Enabling ⟨s', true⟩ := by
  have hord := H.ordered h.ordered
  cases H with
  | joins hdial =>
    have hw := h.called (hdown hdial) fun hs => by
      rw [hs] at hdial
      cases hdial
    exact ⟨hord, h.connected, h.armed, fun _ => hdown hdial, nofun, fun _ => h.wanted hw⟩
  | already hidle hstate hconn =>
    obtain ⟨h₁, h₂, -⟩ := h.connected hstate
    exact ⟨hord, fun _ => ⟨h₁, h₂, nofun⟩, fun _ => h₂, fun _ => h₂, nofun,
      fun _ => .inl (.inl ⟨hstate, h₁⟩)⟩
  | dials hidle hlost =>
    exact ⟨hord, nofun, fun _ => rfl, fun _ => rfl, nofun, fun _ => .inr ⟨0, rfl⟩⟩

theorem enabling_disconnect (s : State) (call : Nat) : Enabling ⟨(s.disconnect call).1, false⟩ := by
  have hdown := (disconnect_frame s call).2.2.2
  have hord := disconnect_ordered s call
  obtain ⟨htimer, hstate⟩ := disconnect_down s call
  refine ⟨hord, fun hs => ?_, fun ht => ?_, nofun, fun _ => .inl hdown, nofun⟩
  · rcases hstate with hd | hd <;> cases hd.symm.trans hs
  · simp [htimer] at ht

theorem Enabling.timerFires (h : Enabling ⟨s, wanted⟩) (hquiet : s.pending = false)
    (harmed : s.reconnectTimeout.isSome) : Enabling ⟨s.timerFires.1, wanted⟩ := by
  have hrunning := h.armed harmed
  have hdown : s.connectionState ≠ .connected := fun hstate => by
    have htimer : s.reconnectTimeout = none := (h.ordered.connected hstate).2
    simp [htimer] at harmed
  have hw : wanted = true := h.called hrunning fun hs => by
    rw [hs] at harmed
    cases harmed
  obtain ⟨dialed, H, heq⟩ := timerFires_cases hdown
  have hk : Ordered { s with
      reconnectTimeout := none
      reconnectAttempt := s.reconnectAttempt + 1 } :=
    ⟨fun hs => absurd hs hdown, h.ordered.closing⟩
  have hord : Ordered { dialed with attempts := dialed.attempts + 1 } :=
    ⟨(H.ordered hk).connected, (H.ordered hk).closing⟩
  subst hw
  rw [heq]
  cases H with
  | already hidle hstate => exact absurd hstate hdown
  | joins hdial =>
    refine ⟨hord, fun hs => absurd hs hdown, nofun, fun _ => hrunning, nofun, fun _ => .inr ?_⟩
    obtain ⟨dial, hp⟩ := Option.isSome_iff_exists.mp hdial
    cases dial with
    | dialing attempt => exact ⟨attempt, hp⟩
    | closing x => cases hrunning.symm.trans (h.ordered.closing x hp)
    | returned result => exact absurd hp (not_returned_of_quiet hquiet result)
  | dials hidle hlost =>
    exact ⟨hord, nofun, nofun, fun _ => rfl, nofun, fun _ => .inr ⟨0, rfl⟩⟩

theorem Steps.enabling {event : Event} {r : State × List Emitted} (H : Steps c s event r)
    (hok : Reenables ⟨s, wanted⟩ event) (h : Enabling ⟨s, wanted⟩) :
    Enabling ⟨r.1, event.wants wanted⟩ := by
  have hord := H.ordered h.ordered
  have hbusy : ∀ {dial}, s.connectPromise = some dial → s ≠ start := fun hp hs => by
    rw [hs] at hp
    cases hp
  cases H with
  | connect => exact (connect_cases s).enabling h hok
  | disconnect => exact enabling_disconnect s _
  | @dialSucceeds connection attempt _ hdial =>
    have hidle : s.connectionState ≠ .connected := fun hs => (h.connected hs).2.2 attempt hdial
    cases hdown : s.isShuttingDown with
    | true =>
      unfold State.dialSucceeds at hord ⊢
      rw [if_pos hdown] at hord ⊢
      exact h.down hord hdown hdown hidle rfl
    | false =>
      have hw := h.called hdown (hbusy hdial)
      rw [dialSucceeds_fst hdown] at hord ⊢
      subst hw
      exact ⟨hord, fun _ => ⟨rfl, hdown, nofun⟩, fun _ => hdown, fun _ => hdown, nofun,
        fun _ => .inl (.inl ⟨rfl, rfl⟩)⟩
  | @dialFails attempt _ hdial =>
    have hidle : s.connectionState ≠ .connected := fun hs => (h.connected hs).2.2 attempt hdial
    unfold State.dialFails at hord ⊢
    dsimp only at hord ⊢
    split at hord
    · next hmore =>
      rw [if_pos hmore]
      exact h.same hord (hbusy hdial) rfl rfl rfl rfl ⟨fun _ => ⟨_, hdial⟩, fun _ => ⟨_, rfl⟩⟩
    · next hlast =>
      rw [if_neg hlast]
      cases hdown : s.isShuttingDown with
      | true =>
        simp only [hdown, if_true, setConnectionState_fst] at hord ⊢
        exact h.down hord hdown rfl nofun rfl
      | false =>
        obtain rfl := h.called hdown (hbusy hdial)
        rw [if_neg (by simp), startReconnection_fst rfl]
        exact enabling_retrying c ⟨fun hs => absurd hs hidle, nofun⟩ rfl
  | @discarded connection _ hdial =>
    have hdown := h.ordered.closing connection hdial
    unfold State.discarded at hord ⊢
    rw [setConnectionState_fst] at hord ⊢
    exact h.down hord hdown hdown nofun rfl
  | @dialSettles result hdial =>
    exact h.same hord (hbusy hdial) rfl rfl rfl rfl
      ⟨nofun, fun ⟨_, ha⟩ => by cases hdial.symm.trans ha⟩
  | attemptResumes hlanded =>
    refine h.same hord (fun hs => ?_) rfl rfl rfl rfl .rfl
    rw [hs] at hlanded
    cases hlanded
  | timerFires hquiet harmed => exact h.timerFires hquiet harmed
  | @connectionCloses connection amqp _ hget hlive =>
    have hne : s ≠ start := fun hs => by
      rw [hs] at hget
      cases hget
    unfold State.connectionCloses at hord ⊢
    dsimp only at hord ⊢
    split at hord
    · next hw =>
      obtain rfl := h.called hw.2 hne
      rw [if_pos hw, startReconnection_fst (by exact hw.2)]
      exact enabling_retrying c ⟨h.ordered.connected, h.ordered.closing⟩ hw.2
    · next hw =>
      rw [if_neg hw]
      exact h.same hord hne rfl rfl rfl rfl .rfl
  | @disconnectCloses call connection hcall =>
    have hne : s ≠ start := fun hs => by
      rw [hs] at hcall
      cases hcall
    unfold State.disconnectCloses at hord ⊢
    rw [setConnectionState_fst] at hord ⊢
    refine ⟨hord, nofun, h.armed, h.running, fun hw => .inl ((h.stopped hw).resolve_right hne),
      fun hw => ?_⟩
    obtain ⟨hup, hfailed⟩ := hok hw
    rcases h.wanted hw with (⟨hs, -⟩ | ht | hf) | ha
    · exact absurd hs hup
    · exact .inl (.inr (.inl ht))
    · exact absurd hf hfailed
    · exact .inr ha

/-- With `connect` the last call and no dial in progress, the connection is up, or a timer will dial
again, or the machine gave up, in every run in which no call of `connect` is lost. -/
theorem connect_reenables {w : Called} (hr : Reach (called c) Reenables ⟨start, false⟩ w)
    (hw : w.wanted = true) (hdial : w.state.connectPromise = none) : w.state.Enabled := by
  have h : Enabling w := hr.invariant enabling_start fun {w _ event} h hok hs => by
    obtain ⟨s', hnext, rfl⟩ := Option.map_eq_some_iff.mp hs
    obtain ⟨out, H⟩ := next_cases hnext
    exact H.enabling hok h
  rcases h.wanted hw with he | ⟨attempt, ha⟩
  · exact he
  · cases hdial.symm.trans ha

/-! ## Runs -/

def twoAttempts : Config := ⟨1, 1000, 30000, some 2⟩

/-- A `connect` after a `disconnect` whose close has settled; its dial fails, and a timer is
armed. -/
theorem connect_reenables_run : ∃ w, Reach (called twoAttempts) Reenables ⟨start, false⟩ w ∧
    w.wanted = true ∧ w.state.connectPromise = none ∧ w.state.Enabled := by
  have hrun : (run (called twoAttempts) Reenables ⟨start, false⟩ [.connect, .dialSucceeds 0,
      .dialSettles, .disconnect 0, .disconnectCloses 0, .connect, .dialFails, .dialSettles]).any
        (fun w => decide (w.wanted = true ∧ w.state.connectPromise = none)) := by
    decide +kernel
  obtain ⟨w, hs, h⟩ := (Option.any_eq_true _ _).mp hrun
  obtain ⟨hw, hdial⟩ := of_decide_eq_true h
  have hr := reach_of_run hs
  exact ⟨w, hr, hw, hdial, connect_reenables hr hw hdial⟩

/-- A `connect` joins the dial that a `disconnect` has doomed: the connection that lands is closed,
and the client stays down. -/
theorem connect_dropped : ∃ w, Reach (called twoAttempts) anyStep ⟨start, false⟩ w ∧
    w.wanted = true ∧ w.state.connectPromise = none ∧ w.state.closing.keys = [] ∧
      ¬ w.state.Enabled := by
  have hrun : (run (called twoAttempts) anyStep ⟨start, false⟩ [.connect, .disconnect 0, .connect,
      .dialSucceeds 0, .discarded, .dialSettles]).any
        (fun w => decide (w.wanted = true ∧ w.state.connectPromise = none ∧
          w.state.closing.keys = [] ∧ w.state.connectionState = .disconnected ∧
            w.state.reconnectTimeout = none)) := by
    decide +kernel
  obtain ⟨w, hs, h⟩ := (Option.any_eq_true _ _).mp hrun
  obtain ⟨hw, hdial, hclosing, hstate, htimer⟩ := of_decide_eq_true h
  refine ⟨w, reach_of_run hs, hw, hdial, hclosing, ?_⟩
  rintro (⟨h, -⟩ | h | h)
  · cases hstate.symm.trans h
  · simp [htimer] at h
  · cases hstate.symm.trans h

end Connection
end RabbitMQ

import RabbitMQ.Connection.Connection

/-! The connection while no `disconnect` is called: it is up, or something will dial again. -/

namespace RabbitMQ
namespace Connection

variable {c : Config} {s : State}

/-- A step of a client that is not shut down. -/
def Event.Running (event : Event) : Prop :=
  (∀ call, event ≠ .disconnect call) ∧ ∀ call, event ≠ .disconnectCloses call

/-- Without a connection a timer is armed, a dial is in flight or the machine gave up. -/
def State.Retries (s : State) : Prop :=
  s.reconnectTimeout.isSome ∨ s.connectionState = .failed ∨
    ∃ attempt, s.connectPromise = some (.dialing attempt)

structure Running (s : State) : Prop where
  running : s.isShuttingDown = false
  up : ∀ c, s.connection = some c → s.connectionState = .connected ∧ s.isReconnecting = false ∧
    s.reconnectTimeout = none ∧ ∀ attempt, s.connectPromise ≠ some (.dialing attempt)
  connected : s.connectionState = .connected → s.connection.isSome
  closing : ∀ c, s.connectPromise ≠ some (.closing c)
  returned : ∀ c, s.connectPromise = some (.returned (some c)) → s.connection = some c
  landed : ∀ c, some c ∈ s.landed → s.connection = some c
  retries : s.connection = none → s.Retries ∨ s.connectionState = .disconnected
  fresh : s.connectionState = .disconnected →
    s.connectPromise = none ∧ s.landed = [] ∧ s.isReconnecting = false
  known : ∀ c, s.connection = some c → c ∈ s.connections

theorem running_start : Running start :=
  ⟨rfl, nofun, nofun, nofun, nofun, nofun, fun _ => .inr rfl, fun _ => ⟨rfl, rfl, rfl⟩,
    nofun⟩

/-- Without its connection the client is not connected. -/
theorem Running.gone (h : Running s) (hdown : s.connectionState ≠ .connected) :
    s.connection = none := by
  cases hc : s.connection with
  | none => rfl
  | some c => exact absurd (h.up c hc).1 hdown

theorem Connects.running {s' : State} (H : Connects s s') (h : Running s) : Running s' := by
  cases H with
  | joins => exact h
  | already hidle hstate hconn =>
    refine ⟨h.running, fun c hc => ?_, h.connected, nofun, fun c hc => ?_, h.landed, fun hnone => ?_,
      fun hd => ?_, h.known⟩
    · obtain ⟨h₁, h₂, h₃, -⟩ := h.up c hc
      exact ⟨h₁, h₂, h₃, nofun⟩
    · simpa using hc
    · cases hnone.symm.trans hconn
    · cases hstate.symm.trans hd
  | dials hidle hlost =>
    have hnone : s.connection = none := by
      by_cases hstate : s.connectionState = .connected
      · exact hlost hstate
      · exact h.gone hstate
    refine ⟨rfl, fun c hc => ?_, nofun, nofun, nofun, h.landed, fun _ => .inl (.inr (.inr ⟨0, rfl⟩)),
      nofun, h.known⟩
    cases hc.symm.trans hnone

theorem Running.reconnecting (h : Running s) (hr : s.isReconnecting) :
    s.connectionState ≠ .connected ∧ s.connectionState ≠ .disconnected := by
  refine ⟨fun hstate => ?_, fun hstate => ?_⟩
  · obtain ⟨c, hc⟩ := Option.isSome_iff_exists.mp (h.connected hstate)
    cases hr.symm.trans (h.up c hc).2.1
  · cases hr.symm.trans (h.fresh hstate).2.2

/-- `startReconnection` on a connection that is gone, with no callback pending. -/
theorem running_retrying (c : Config) (hrunning : s.isShuttingDown = false)
    (hlost : s.connection = none)
    (hr : s.isReconnecting → s.connectionState ≠ .connected ∧ s.connectionState ≠ .disconnected)
    (hclosing : ∀ c, s.connectPromise ≠ some (.closing c))
    (hreturned : ∀ c, s.connectPromise ≠ some (.returned (some c))) (hlanded : s.landed = []) :
    Running (s.retrying c) := by
  have hstate : (s.retrying c).connectionState ≠ .connected ∧
      (s.retrying c).connectionState ≠ .disconnected := by
    unfold State.retrying
    split
    · simp
    · cases hre : s.isReconnecting with
      | false => simp
      | true => simpa [hre] using hr hre
  have hretries : (s.retrying c).Retries :=
    (retrying_armed s c).elim .inl fun hf => .inr (.inl hf)
  rw [retrying_frame] at *
  refine ⟨hrunning, fun c hc => ?_, fun hc => absurd hc hstate.1, hclosing,
    fun c hc => absurd hc (hreturned c), fun c hc => ?_, fun _ => .inl hretries,
    fun hd => absurd hd hstate.2, fun c hc => ?_⟩
  · cases hlost.symm.trans hc
  · simp only [hlanded] at hc
    cases hc
  · cases hlost.symm.trans hc

theorem Steps.running {event : Event} {r : State × List Emitted} (H : Steps c s event r)
    (hevent : event.Running) (h : Running s) : Running r.1 := by
  cases H with
  | connect => exact (connect_cases s).running h
  | disconnect _ => exact absurd rfl (hevent.1 _)
  | @dialSucceeds connection attempt hquiet hdial hfresh =>
    rw [dialSucceeds_fst h.running]
    refine ⟨h.running, fun c hc => ⟨rfl, rfl, rfl, nofun⟩, fun _ => rfl, nofun, fun c hc => ?_,
      fun c hc => ?_, nofun, nofun, fun c hc => ?_⟩
    · simpa using hc
    · simp only [landed_of_quiet hquiet] at hc
      cases hc
    · obtain rfl := Option.some.inj hc
      exact OrderedMap.mem_set.mpr (.inl rfl)
  | @dialFails attempt hquiet hdial =>
    have hnone : s.connection = none := by
      cases hc : s.connection with
      | none => rfl
      | some c => exact absurd hdial ((h.up c hc).2.2.2 attempt)
    have hlanded := landed_of_quiet hquiet
    unfold State.dialFails
    dsimp only
    split
    · refine ⟨h.running, fun c hc => ?_, h.connected, nofun, nofun, h.landed,
        fun _ => .inl (.inr (.inr ⟨_, rfl⟩)), fun hd => ?_, h.known⟩
      · cases hnone.symm.trans hc
      · cases hdial.symm.trans (h.fresh hd).1
    · rw [if_neg (by simp [h.running]), startReconnection_fst (by exact h.running)]
      exact running_retrying c h.running rfl h.reconnecting nofun nofun hlanded
  | discarded hquiet hdial => exact absurd hdial (h.closing _)
  | @dialSettles result hdial =>
    refine ⟨h.running, fun c hc => ?_, h.connected, nofun, nofun, fun c hc => ?_, fun hnone => ?_,
      fun hd => ?_, h.known⟩
    · obtain ⟨h₁, h₂, h₃, -⟩ := h.up c hc
      exact ⟨h₁, h₂, h₃, nofun⟩
    · rcases List.mem_append.mp hc with hc | hc
      · exact h.landed c hc
      · obtain rfl := (List.mem_replicate.mp hc).2
        exact h.returned c hdial
    · rcases h.retries hnone with (ht | hf | ⟨attempt, ha⟩) | hd
      · exact .inl (.inl ht)
      · exact .inl (.inr (.inl hf))
      · cases hdial.symm.trans ha
      · exact .inr hd
    · cases hdial.symm.trans (h.fresh hd).1
  | @attemptResumes result rest hlanded =>
    refine ⟨h.running, h.up, h.connected, h.closing, h.returned, fun c hc => ?_, h.retries,
      fun hd => ?_, h.known⟩
    · exact h.landed c (hlanded ▸ List.mem_cons_of_mem _ hc)
    · cases hlanded.symm.trans (h.fresh hd).2.1
  | timerFires hquiet harmed =>
    have hdown : s.connectionState ≠ .connected := fun hstate => by
      obtain ⟨c, hc⟩ := Option.isSome_iff_exists.mp (h.connected hstate)
      simp [(h.up c hc).2.2.1] at harmed
    have hnone := h.gone hdown
    obtain ⟨dialed, H, heq⟩ := timerFires_cases hdown
    rw [heq]
    cases H with
    | joins hdial =>
      refine ⟨h.running, fun c hc => ?_, h.connected, h.closing, h.returned, h.landed,
        fun _ => .inl (.inr (.inr ?_)), fun hd => ?_, h.known⟩
      · cases hnone.symm.trans hc
      · obtain ⟨dial, hp⟩ := Option.isSome_iff_exists.mp hdial
        cases dial with
        | dialing attempt => exact ⟨attempt, hp⟩
        | closing c => exact absurd hp (h.closing c)
        | returned result => exact absurd hp (not_returned_of_quiet hquiet result)
      · simp [(h.fresh hd).1] at hdial
    | already hidle hstate => exact absurd hstate hdown
    | dials hidle =>
      refine ⟨rfl, fun c hc => ?_, nofun, nofun, nofun, h.landed,
        fun _ => .inl (.inr (.inr ⟨0, rfl⟩)), nofun, h.known⟩
      cases hnone.symm.trans hc
  | @connectionCloses connection amqp hquiet hconn hlive =>
    have hlanded := landed_of_quiet hquiet
    unfold State.connectionCloses
    dsimp only
    split
    · rw [startReconnection_fst (by exact h.running)]
      exact running_retrying c h.running rfl h.reconnecting h.closing
        (fun _ => not_returned_of_quiet hquiet _) hlanded
    · exact ⟨h.running, h.up, h.connected, h.closing, h.returned, h.landed, h.retries, h.fresh,
        fun c hc => OrderedMap.mem_set.mpr (.inr (h.known c hc))⟩
  | disconnectCloses _ => exact absurd rfl (hevent.2 _)

end Connection
end RabbitMQ

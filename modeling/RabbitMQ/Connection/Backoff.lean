import RabbitMQ.Connection.Lifecycle
import RabbitMQ.Lib.Timer

/-! The timer between two dials that land: how often it fires, and how long it waits. -/

namespace RabbitMQ
namespace Connection

open Transition

variable {c : Config} {s s' : State} {event : Event}

/-- The timer is left as it is, cleared, or armed anew. -/
def Rearms (c : Config) (s s' : State) : Prop :=
  s'.reconnectTimeout = s.reconnectTimeout ∨ s'.reconnectTimeout = none ∨
    s'.reconnectTimeout = some (c.delay s.reconnectAttempt) ∧
      c.exhausted s.reconnectAttempt = false

/-- What a step does to the timer and to the count of its attempts. -/
inductive Counts (c : Config) (s : State) : Event → State → Prop
  | fires {t} (harmed : s.reconnectTimeout.isSome)
      (hattempt : t.reconnectAttempt = s.reconnectAttempt + 1)
      (hcleared : t.reconnectTimeout = none) : Counts c s .timerFires t
  | lands {connection t} (hup : s.isShuttingDown = false) (hattempt : t.reconnectAttempt = 0)
      (hcleared : t.reconnectTimeout = none) : Counts c s (.dialSucceeds connection) t
  | goesOn {event t} (hfires : event ≠ .timerFires)
      (hlands : ∀ connection, event = .dialSucceeds connection → s.isShuttingDown = true)
      (hattempt : t.reconnectAttempt = s.reconnectAttempt) (hrearms : Rearms c s t) :
      Counts c s event t

theorem retrying_rearms (c : Config) (s : State) :
    (s.retrying c).reconnectAttempt = s.reconnectAttempt ∧ Rearms c s (s.retrying c) := by
  unfold State.retrying
  split
  · exact ⟨rfl, .inr (.inl rfl)⟩
  · next hmore => exact ⟨rfl, .inr (.inr ⟨rfl, by simpa using hmore⟩)⟩

theorem Connects.timer (H : Connects s s') :
    s'.reconnectAttempt = s.reconnectAttempt ∧ s'.reconnectTimeout = s.reconnectTimeout := by
  cases H <;> exact ⟨rfl, rfl⟩

theorem disconnect_attempt (s : State) (call : Nat) :
    (s.disconnect call).1.reconnectAttempt = s.reconnectAttempt := by
  unfold State.disconnect
  dsimp only
  split
  · rfl
  · simp only [setConnectionState_fst]
    split
    · rfl
    · rfl

theorem Steps.counts {r : State × List Emitted} (H : Steps c s event r) (h : Ordered s) :
    Counts c s event r.1 := by
  cases H with
  | connect =>
    obtain ⟨hattempt, htimer⟩ := (connect_cases s).timer
    exact .goesOn (fun heq => by cases heq) (fun _ heq => by cases heq) hattempt (.inl htimer)
  | @disconnect call =>
    exact .goesOn (fun heq => by cases heq) (fun _ heq => by cases heq) (disconnect_attempt s call)
      (.inr (.inl (disconnect_down s call).1))
  | @dialSucceeds connection attempt _ hdial =>
    cases hdown : s.isShuttingDown with
    | true =>
      unfold State.dialSucceeds
      rw [if_pos hdown]
      exact .goesOn (fun heq => by cases heq) (fun _ _ => hdown) rfl (.inl rfl)
    | false =>
      rw [dialSucceeds_fst hdown]
      exact .lands hdown rfl rfl
  | dialFails =>
    have hgoes : ∀ {s' : State}, s'.reconnectAttempt = s.reconnectAttempt → Rearms c s s' →
        Counts c s .dialFails s' :=
      fun hattempt hrearms =>
        .goesOn (fun heq => by cases heq) (fun _ heq => by cases heq) hattempt hrearms
    unfold State.dialFails
    dsimp only
    split
    · exact hgoes rfl (.inl rfl)
    · split
      · rw [setConnectionState_fst]
        exact hgoes rfl (.inl rfl)
      · next hdown =>
        rw [startReconnection_fst (by simpa using hdown)]
        obtain ⟨hattempt, hrearms⟩ := retrying_rearms c { s with
          currentEndpointIndex := (s.currentEndpointIndex + 1) % c.endpoints
          connection := none
          connectPromise := some (.returned none) }
        exact hgoes hattempt hrearms
  | discarded =>
    unfold State.discarded
    rw [setConnectionState_fst]
    exact .goesOn (fun heq => by cases heq) (fun _ heq => by cases heq) rfl (.inl rfl)
  | dialSettles => exact .goesOn (fun heq => by cases heq) (fun _ heq => by cases heq) rfl (.inl rfl)
  | attemptResumes =>
    exact .goesOn (fun heq => by cases heq) (fun _ heq => by cases heq) rfl (.inl rfl)
  | timerFires _ harmed =>
    have hstate : s.connectionState ≠ .connected := fun hstate => by
      rw [(h.connected hstate).2] at harmed
      cases harmed
    obtain ⟨dialed, hconnects, heq⟩ := timerFires_cases hstate
    obtain ⟨hattempt, htimer⟩ := hconnects.timer
    rw [heq]
    exact .fires harmed hattempt htimer
  | @connectionCloses connection amqp =>
    unfold State.connectionCloses
    dsimp only
    split
    · next hwatched =>
      rw [startReconnection_fst (by exact hwatched.2)]
      obtain ⟨hattempt, hrearms⟩ := retrying_rearms c { s with
        connections := s.connections.set connection { amqp with live := false }
        connection := none }
      exact .goesOn (fun heq => by cases heq) (fun _ heq => by cases heq) hattempt hrearms
    · exact .goesOn (fun heq => by cases heq) (fun _ heq => by cases heq) rfl (.inl rfl)
  | disconnectCloses =>
    unfold State.disconnectCloses
    rw [setConnectionState_fst]
    exact .goesOn (fun heq => by cases heq) (fun _ heq => by cases heq) rfl (.inl rfl)

/-! ## Every run -/

/-- The connection, and how often its timer has fired since a dial landed. -/
structure Outage where
  connection : State
  firings : Nat

/-- A dial that finds the client shut down does not count as one that landed. -/
def Outage.after (w : Outage) : Event → Nat
  | .timerFires => w.firings + 1
  | .dialSucceeds _ => if w.connection.isShuttingDown then w.firings else 0
  | _ => w.firings

def retried (c : Config) (w : Outage) (event : Event) : Option Outage :=
  (next c w.connection event).map fun s => ⟨s, w.after event⟩

theorem after_of_goesOn {w : Outage} (hfires : event ≠ .timerFires)
    (hlands : ∀ connection, event = .dialSucceeds connection →
      w.connection.isShuttingDown = true) : w.after event = w.firings := by
  cases event with
  | timerFires => exact absurd rfl hfires
  | dialSucceeds connection => exact if_pos (hlands connection rfl)
  | _ => rfl

/-- No dial lands. -/
def Unlanded (w : Outage) : Event → Prop
  | .dialSucceeds _ => w.connection.isShuttingDown = true
  | _ => True

instance (w : Outage) (event : Event) : Decidable (Unlanded w event) :=
  match event with
  | .dialSucceeds _ => inferInstanceAs (Decidable (w.connection.isShuttingDown = true))
  | .connect | .disconnect _ | .dialFails | .discarded | .dialSettles | .attemptResumes
  | .timerFires | .connectionCloses _ | .disconnectCloses _ => instDecidableTrue

structure Backoff (c : Config) (w : Outage) : Prop where
  ordered : Ordered w.connection
  counted : w.connection.reconnectAttempt = w.firings
  armed : ∀ delay, w.connection.reconnectTimeout = some delay →
    delay = c.delay w.firings ∧ c.exhausted w.firings = false
  spent : ∀ max, c.maxReconnectAttempts = some max → w.firings ≤ max

theorem backoff_start (c : Config) : Backoff c ⟨start, 0⟩ :=
  ⟨ordered_start, rfl, fun _ h => (by cases h), fun max _ => Nat.zero_le max⟩

theorem lt_of_not_exhausted {attempts max : Nat} (h : c.exhausted attempts = false)
    (hmax : c.maxReconnectAttempts = some max) : attempts < max := by
  unfold Config.exhausted at h
  rw [hmax] at h
  simpa using h

theorem Backoff.step {w w' : Outage} (h : Backoff c w) (hs : retried c w event = some w') :
    Backoff c w' := by
  obtain ⟨s', hnext, rfl⟩ := Option.map_eq_some_iff.mp hs
  obtain ⟨out, H⟩ := next_cases hnext
  have hord : Ordered s' := H.ordered h.ordered
  have hcounts : Counts c w.connection event s' := H.counts h.ordered
  cases hcounts with
  | fires harmed hattempt hcleared =>
    obtain ⟨delay, hdelay⟩ := Option.isSome_iff_exists.mp harmed
    refine ⟨hord, hattempt.trans (congrArg (· + 1) h.counted), fun delay' heq => ?_,
      fun max hmax => lt_of_not_exhausted (h.armed delay hdelay).2 hmax⟩
    cases hcleared.symm.trans heq
  | @lands connection _ hup hattempt hcleared =>
    have hzero : w.after (.dialSucceeds connection) = 0 := if_neg (by simp [hup])
    rw [hzero]
    refine ⟨hord, hattempt, fun delay heq => ?_, fun max _ => Nat.zero_le max⟩
    cases hcleared.symm.trans heq
  | goesOn hfires hlands hattempt hrearms =>
    rw [after_of_goesOn hfires hlands]
    refine ⟨hord, hattempt.trans h.counted, fun delay heq => ?_, h.spent⟩
    rcases hrearms with hkept | hcleared | ⟨hanew, hmore⟩
    · exact h.armed delay (hkept.symm.trans heq)
    · cases hcleared.symm.trans heq
    · rw [h.counted] at hanew hmore
      exact ⟨(Option.some.inj (hanew.symm.trans heq)).symm, hmore⟩

theorem backoff_of_reach {w : Outage} (hr : Reach (retried c) anyStep ⟨start, 0⟩ w) : Backoff c w :=
  hr.invariant (backoff_start c) fun h _ hs => h.step hs

theorem delay_mono (c : Config) {attempts attempts' : Nat} (h : attempts ≤ attempts') :
    c.delay attempts ≤ c.delay attempts' := by
  unfold Config.delay
  have hpow : 2 ^ min attempts 4 ≤ 2 ^ min attempts' 4 :=
    Nat.pow_le_pow_right (by decide) (by omega)
  have hmul := Nat.mul_le_mul_left c.reconnectInterval hpow
  omega

theorem firings_mono {w w' : Outage} (hr : Reach (retried c) Unlanded w w') :
    w.firings ≤ w'.firings := by
  refine hr.invariant (I := fun w' => w.firings ≤ w'.firings) (Nat.le_refl _) ?_
  intro u u' event hle hok hs
  obtain ⟨s', -, rfl⟩ := Option.map_eq_some_iff.mp hs
  dsimp only
  cases event with
  | timerFires => exact Nat.le_succ_of_le hle
  | dialSucceeds connection =>
    have hdown : u.connection.isShuttingDown = true := hok
    unfold Outage.after
    rw [if_pos hdown]
    exact hle
  | _ => exact hle

/-- Whatever calls of `connect` and `disconnect` come: between two dials that land the timer fires
no more often than it may, and is not armed again after that; it is armed with the interval, doubled
for each time it has fired up to four times and capped, and waits for that if the cap is a delay that
timers take, and so never for less than it did before. -/
theorem retries_bounded {w : Outage} (hr : Reach (retried c) anyStep ⟨start, 0⟩ w) :
    (∀ max, c.maxReconnectAttempts = some max →
      w.firings ≤ max ∧ (w.connection.reconnectTimeout.isSome → w.firings < max)) ∧
    (∀ delay, w.connection.reconnectTimeout = some delay →
      delay = min (c.reconnectInterval * 2 ^ min w.firings 4) c.maxReconnectInterval ∧
      (c.maxReconnectInterval ≤ Timer.maxDelay → Timer.delay delay = max 1 delay)) ∧
    ∀ w', Reach (retried c) Unlanded w w' → ∀ delay delay',
      w.connection.reconnectTimeout = some delay → w'.connection.reconnectTimeout = some delay' →
      delay ≤ delay' ∧
      (c.maxReconnectInterval ≤ Timer.maxDelay → Timer.delay delay ≤ Timer.delay delay') := by
  have h := backoff_of_reach hr
  have hwaits : ∀ {attempts}, c.maxReconnectInterval ≤ Timer.maxDelay →
      Timer.delay (c.delay attempts) = max 1 (c.delay attempts) :=
    fun hrange => Timer.delay_natCast ((Nat.min_le_right _ _).trans hrange)
  refine ⟨fun max hmax => ⟨h.spent max hmax, fun harmed => ?_⟩, fun delay heq => ?_,
    fun w' hlater delay delay' heq heq' => ?_⟩
  · obtain ⟨delay, heq⟩ := Option.isSome_iff_exists.mp harmed
    exact lt_of_not_exhausted (h.armed delay heq).2 hmax
  · obtain ⟨rfl, -⟩ := h.armed delay heq
    exact ⟨rfl, hwaits⟩
  · have h' : Backoff c w' := hlater.invariant h fun hu _ hs => hu.step hs
    obtain ⟨rfl, -⟩ := h.armed delay heq
    obtain ⟨rfl, -⟩ := h'.armed delay' heq'
    have hle := delay_mono c (firings_mono hlater)
    refine ⟨hle, fun hrange => ?_⟩
    rw [hwaits hrange, hwaits hrange]
    exact max_le_max_left 1 hle

/-- The first dial fails, the timer's fails, and so does one that a call of `connect` asks for. -/
theorem retries_bounded_failing : ∃ w w' : Outage,
    w.connection.reconnectTimeout = some 1000 ∧ w'.connection.reconnectTimeout = some 2000 ∧
    w'.firings = 1 ∧ 1 < 2 ∧ 2000 = min (1000 * 2 ^ min 1 4) 30000 ∧
    Timer.delay (2000 : Nat) = 2000 ∧ Timer.delay (1000 : Nat) ≤ Timer.delay (2000 : Nat) := by
  have hrun : (run (retried ⟨1, 1000, 30000, some 2⟩) anyStep ⟨start, 0⟩ [.connect, .dialFails,
      .dialSettles]).any (fun w => decide (w.connection.reconnectTimeout = some 1000) &&
        (run (retried ⟨1, 1000, 30000, some 2⟩) Unlanded w [.timerFires, .dialFails, .dialSettles,
          .attemptResumes, .connect, .dialFails, .dialSettles]).any fun w' =>
            decide (w'.connection.reconnectTimeout = some 2000 ∧ w'.firings = 1)) := by
    decide +kernel
  obtain ⟨w, hw, hrest⟩ := (Option.any_eq_true _ _).mp hrun
  obtain ⟨harmed, hrest⟩ := Bool.and_eq_true_iff.mp hrest
  have harmed := of_decide_eq_true harmed
  obtain ⟨w', hw', hend⟩ := (Option.any_eq_true _ _).mp hrest
  obtain ⟨harmed', hfirings⟩ := of_decide_eq_true hend
  obtain ⟨-, -, hgrows⟩ := retries_bounded (reach_of_run hw)
  obtain ⟨hspent, hdelay, -⟩ :=
    retries_bounded ((reach_of_run hw).trans (reach_of_run hw').toAny)
  obtain ⟨heq, hwaits⟩ := hdelay 2000 harmed'
  rw [hfirings] at heq
  refine ⟨w, w', harmed, harmed', hfirings, ?_, heq, hwaits (by decide), ?_⟩
  · have hlt := (hspent 2 rfl).2 (by rw [harmed']; rfl)
    rw [hfirings] at hlt
    exact hlt
  · exact (hgrows w' (reach_of_run hw') _ _ harmed harmed').2 (by decide)

end Connection
end RabbitMQ

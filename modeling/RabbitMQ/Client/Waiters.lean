import RabbitMQ.Client
import RabbitMQ.Connection.Lifecycle

/-! A pending call of `connect` is waiting for something that will come.

A call parks after its dial, and listens for events that fire once. It hears the outcome of a dial
or a restore that is still under way, and a timer leads to another dial; but a shutdown ends all of
these, and its own event is emitted before the call listens. So the calls to look after are those
that wait without a timer of their own while a shutdown goes by. -/

namespace RabbitMQ
namespace Client

open Transition
open Connection (Ordered Emitted)

variable {c : Config} {s s' : State}

/-- A restore was started and not everyone who awaits it has heard. -/
def State.RestoreInFlight (s : State) : Prop :=
  ∃ restore r, s.restores.get? restore = some r ∧ (r.stage.isSettled = false ∨
    restore ∈ s.reconnections ∨
      ∃ call conn, s.connectCall = some call ∧ call.stage = .restoring restore conn)

/-- Something will wake the call up. -/
def State.Wakes (s : State) (call : ConnectCall) : Prop :=
  s.Dialing ∨ s.connection.reconnectTimeout.isSome ∨ s.RestoreInFlight ∨
    call.stage = .parked ∧ call.options.timed

/-- A recovery is under way that will be announced. -/
def State.recovering (s : State) : Bool :=
  !s.reconnections.isEmpty || s.connection.landed.any (·.isSome) ||
    decide (0 < s.connection.attempts) && !unlanded s.connection.connectPromise

/-- A call that waits with no timer of its own, for something a shutdown would end. -/
def State.exposed (s : State) : Bool :=
  s.connectCall.any fun call => !call.options.timed && match call.stage with
    | .parked => !s.recovering
    | .dialed none => call.options.waitForConnection
    | .dialing => call.options.waitForConnection && unlanded s.connection.connectPromise
    | _ => false

/-- The shutdown of the connection is not started under an exposed call; a call that would be
exposed does not join a dial that is going to be discarded; and no close is heard of in the instant
between a dial that gave up for good and those who await it. -/
def Heeded (s : State) : Event → Prop
  | .connect _ options =>
    s.connectCall = none → options.waitForConnection → options.timed = false →
      s.connection.connectPromise.isSome → unlanded s.connection.connectPromise →
        s.connection.isShuttingDown = false
  | .disposed _ throws => throws ∨ s.channelPool = none → s.exposed = false
  | .channelPoolClosed _ => s.exposed = false
  | .connectionClosed _ => s.connection.connectionState = .failed →
    s.connection.connectPromise ≠ some (.returned none) ∧
      s.connectCall.all fun call => call.stage ≠ .dialed none
  | _ => True

instance (s : State) (event : Event) : Decidable (Heeded s event) :=
  match event with
  | .connect .. | .disposed .. | .channelPoolClosed _ | .connectionClosed _ => by
    dsimp only [Heeded]; infer_instance
  | .disconnect _ | .connection _ | .dialSettles | .connectResumes | .connectTimesOut
  | .poolInitialized .. | .exchangeAsserted .. | .recreated _ | .poolClosed _
  | .reconnectionResumes _ => instDecidableTrue

structure Awake (s : State) : Prop where
  ordered : Ordered s.connection
  dialing : ∀ call, s.connectCall = some call → call.stage = .dialing →
    s.connection.connectPromise.isSome
  awaited : s.connection.connectPromise.isSome → 0 < s.connection.attempts ∨
    ∃ call, s.connectCall = some call ∧ call.stage = .dialing
  restoring : ∀ call restore conn, s.connectCall = some call →
    call.stage = .restoring restore conn → restore ∈ s.restores
  recoveries : ∀ restore ∈ s.reconnections, restore ∈ s.restores
  slot : ∀ restore, s.restorePromise = some restore → restore ∈ s.restores
  exposed : s.exposed → s.connection.isShuttingDown = false
  /-- a dial that gave up has armed a timer, or was the last -/
  gaveUp : s.connection.connectPromise = some (.returned none) →
    s.connection.isShuttingDown = false →
      s.connection.reconnectTimeout.isSome ∨ s.connection.connectionState = .failed
  heard : ∀ call, s.connectCall = some call → call.stage = .dialed none →
    call.options.waitForConnection → call.options.timed = false →
      s.connection.reconnectTimeout.isSome ∨ s.connection.connectionState = .failed
  parked : ∀ call, s.connectCall = some call → call.stage = .parked →
    call.options.timed = false → s.connection.reconnectTimeout.isSome ∨ s.recovering ∨
      ∃ attempt, s.connection.connectPromise = some (.dialing attempt)

theorem awake_start : Awake start :=
  ⟨Connection.ordered_start, nofun, nofun, nofun, nofun, nofun, nofun, nofun, nofun, nofun⟩

theorem Awake.wakes (h : Awake s) {call : ConnectCall} (hcall : s.connectCall = some call) :
    s.Wakes call := by
  have hrestore : ∀ restore, restore ∈ s.restores → (restore ∈ s.reconnections ∨
      ∃ call conn, s.connectCall = some call ∧ call.stage = .restoring restore conn) →
        s.RestoreInFlight := fun restore hmem hheard => by
    obtain ⟨r, hr⟩ := OrderedMap.mem_iff.mp hmem
    exact ⟨restore, r, hr, .inr hheard⟩
  cases hst : call.stage with
  | dialing => exact .inl (.inl (h.dialing call hcall hst))
  | dialed result => exact .inl (.inr (.inr ⟨call, result, hcall, hst⟩))
  | restoring restore conn =>
    exact .inr (.inr (.inl (hrestore restore (h.restoring call restore conn hcall hst)
      (.inr ⟨call, conn, hcall, hst⟩))))
  | parked =>
    cases htimed : call.options.timed with
    | true => exact .inr (.inr (.inr ⟨hst, htimed⟩))
    | false =>
      rcases h.parked call hcall hst htimed with ht | hr | ⟨attempt, hd⟩
      · exact .inr (.inl ht)
      · simp only [State.recovering, Bool.or_eq_true, Bool.not_eq_true', Bool.and_eq_true,
          List.isEmpty_eq_false_iff] at hr
        rcases hr with (hr | hl) | ⟨-, hp⟩
        · obtain ⟨restore, hmem⟩ := List.exists_mem_of_ne_nil _ hr
          exact .inr (.inr (.inl (hrestore restore (h.recoveries restore hmem) (.inl hmem))))
        · refine .inl (.inr (.inl fun hnil => ?_))
          simp [hnil] at hl
        · refine .inl (.inl ?_)
          cases hpromise : s.connection.connectPromise with
          | none => simp [hpromise, unlanded] at hp
          | some dial => rfl
      · exact .inl (.inl (by simp [hd]))

theorem exposed_iff : s.exposed ↔ ∃ call, s.connectCall = some call ∧
    call.options.timed = false ∧ (call.stage = .parked ∧ s.recovering = false ∨
      call.options.waitForConnection = true ∧ (call.stage = .dialed none ∨
        call.stage = .dialing ∧ unlanded s.connection.connectPromise)) := by
  unfold State.exposed
  rw [Option.any_eq_true]
  refine exists_congr fun call => and_congr_right fun _ => ?_
  rw [Bool.and_eq_true, Bool.not_eq_true']
  refine and_congr_right fun _ => ?_
  split
  · next h => simp [h]
  · next h => simp [h]
  · next h => simp [h]
  · next h₁ h₂ h₃ =>
    refine iff_of_false Bool.false_ne_true ?_
    rintro (⟨h, -⟩ | ⟨-, h | ⟨h, -⟩⟩)
    exacts [h₁ h, h₂ h, h₃ h]

/-- What a call that waits for a failed dial can rely on. -/
theorem Awake.running_of_dialed (h : Awake s) {call : ConnectCall}
    (hcall : s.connectCall = some call) (hst : call.stage = .dialed none)
    (hwait : call.options.waitForConnection) (htimed : call.options.timed = false) :
    s.connection.isShuttingDown = false :=
  h.exposed (exposed_iff.mpr ⟨call, hcall, htimed, .inr ⟨hwait, .inl hst⟩⟩)

/-- A parked call is about to be told, or no shutdown is under way. -/
theorem Awake.running_of_parked (h : Awake s) {call : ConnectCall}
    (hcall : s.connectCall = some call) (hst : call.stage = .parked)
    (htimed : call.options.timed = false) :
    s.recovering = true ∨ s.connection.isShuttingDown = false := by
  cases hr : s.recovering with
  | true => exact .inl rfl
  | false => exact .inr (h.exposed (exposed_iff.mpr ⟨call, hcall, htimed, .inl ⟨hst, hr⟩⟩))

/-! ## Steps of the facade -/

/-- The connection stays as it is; the call is the same, or gone after its dial. -/
theorem Awake.answer (h : Awake s) (hconn : s'.connection = s.connection)
    (hmem : ∀ restore ∈ s.restores, restore ∈ s'.restores)
    (hrecoveries : ∀ restore ∈ s'.reconnections, restore ∈ s'.restores)
    (hslot : ∀ restore, s'.restorePromise = some restore → restore ∈ s'.restores)
    (hcall : ∀ call, s'.connectCall = some call → s.connectCall = some call)
    (hdialing : ∀ call, s.connectCall = some call → call.stage = .dialing →
      s'.connectCall = some call)
    (hparked : ∀ call, s'.connectCall = some call → call.stage = .parked →
      s'.reconnections = s.reconnections) : Awake s' where
  ordered := hconn ▸ h.ordered
  dialing call hc hst := hconn ▸ h.dialing call (hcall call hc) hst
  awaited hp := by
    rw [hconn] at hp ⊢
    exact (h.awaited hp).imp_right fun ⟨call, hc, hst⟩ => ⟨call, hdialing call hc hst, hst⟩
  restoring call restore conn hc hst := hmem restore (h.restoring call restore conn (hcall call hc) hst)
  recoveries := hrecoveries
  slot := hslot
  exposed he := by
    rw [hconn]
    obtain ⟨call, hc, htimed, hst⟩ := exposed_iff.mp he
    refine h.exposed (exposed_iff.mpr ⟨call, hcall call hc, htimed, ?_⟩)
    rw [hconn] at hst
    refine hst.imp_left fun ⟨hp, hr⟩ => ⟨hp, ?_⟩
    simpa only [State.recovering, hconn, hparked call hc hp] using hr
  gaveUp hp hdown := by
    rw [hconn] at hp hdown ⊢
    exact h.gaveUp hp hdown
  heard call hc := hconn ▸ h.heard call (hcall call hc)
  parked call hc hst htimed := by
    have := h.parked call (hcall call hc) hst htimed
    simpa only [State.recovering, hconn, hparked call hc hst] using this

theorem Awake.abortWaiter (h : Awake s) (error : ConnectError) : Awake (s.abortWaiter error) := by
  rcases abortWaiter_cases s error with ⟨-, heq⟩ | ⟨options, callers, hcall, heq⟩
  · rw [heq]
    exact h
  · rw [heq]
    refine h.answer rfl (fun _ h => h) h.recoveries h.slot nofun (fun call hc hst => ?_) nofun
    cases hcall.symm.trans hc
    cases hst

/-- Only reports, restores and the calls of `disconnect` change. -/
theorem Awake.aside (h : Awake s) (hconn : s'.connection = s.connection)
    (hcall : s'.connectCall = s.connectCall) (hre : s'.reconnections = s.reconnections)
    (hslot : ∀ restore, s'.restorePromise = some restore → restore ∈ s'.restores)
    (hmem : ∀ restore ∈ s.restores, restore ∈ s'.restores) : Awake s' :=
  h.answer hconn hmem (fun restore hr => hmem restore (h.recoveries restore (hre ▸ hr))) hslot
    (fun _ hc => hcall ▸ hc) (fun _ hc _ => hcall ▸ hc) fun _ _ _ => hre

/-- The restore in the slot, or a new one. -/
theorem Awake.restoreState (h : Awake s) : Awake s.restoreState.1 ∧
    s.restoreState.1.connection = s.connection ∧ s.restoreState.1.connectCall = s.connectCall ∧
      s.restoreState.2 ∈ s.restoreState.1.restores := by
  unfold State.restoreState
  cases hslot : s.restorePromise with
  | some restore => exact ⟨h, rfl, rfl, h.slot restore hslot⟩
  | none =>
    have hmem : ∀ (r : Restore), ∀ restore ∈ s.restores,
        restore ∈ s.restores.set s.nextRestore r := fun r restore hr =>
      OrderedMap.mem_set.mpr (.inr hr)
    have hnew : ∀ (r : Restore), s.nextRestore ∈ s.restores.set s.nextRestore r := fun r =>
      OrderedMap.mem_set.mpr (.inl rfl)
    cases hc : s.connection.connection with
    | none =>
      simp only [hc]
      exact ⟨h.aside rfl rfl rfl nofun (hmem _), rfl, rfl, hnew _⟩
    | some conn =>
      simp only [hc]
      refine ⟨h.aside rfl rfl rfl (fun restore hr => ?_) (hmem _), rfl, rfl, hnew _⟩
      cases hr
      exact hnew _

theorem Awake.setRestore (h : Awake s) (restore : Nat) (r : Restore) :
    Awake (s.setRestore restore r) :=
  h.aside rfl rfl rfl (fun _ hk => OrderedMap.mem_set.mpr (.inr (h.slot _ hk)))
    fun _ hk => OrderedMap.mem_set.mpr (.inr hk)

theorem Awake.settleRestore (h : Awake s) (restore : Nat) (conn : Option Nat) (ok : Bool) :
    Awake (s.settleRestore restore conn ok) := by
  refine h.aside rfl rfl rfl (fun k hk => OrderedMap.mem_set.mpr (.inr ?_))
    fun _ hk => OrderedMap.mem_set.mpr (.inr hk)
  simp only [State.settleRestore] at hk
  split at hk
  · cases hk
  · exact h.slot k hk

theorem Awake.connectDialed (h : Awake s) {options : ConnectOptions} {callers : List Nat}
    {result : Option Nat} (hcall : s.connectCall = some ⟨options, callers, .dialed result⟩) :
    Awake (s.connectDialed options callers result) := by
  have hgone : ∀ o : Output, Awake ({ s with connectCall := none }.emit o) := fun o => by
    refine h.answer rfl (fun _ h => h) h.recoveries h.slot nofun (fun call hc hst => ?_) nofun
    cases hcall.symm.trans hc
    cases hst
  have hawaited : s.connection.connectPromise.isSome → 0 < s.connection.attempts := fun hp => by
    rcases h.awaited hp with hpos | ⟨call, hc, hst⟩
    · exact hpos
    · cases hcall.symm.trans hc
      cases hst
  unfold State.connectDialed
  split
  · split
    · exact hgone _
    · obtain ⟨hk, hconn, -, hmem⟩ := h.restoreState
      generalize s.restoreState = r at hk hconn hmem ⊢
      obtain ⟨s₁, restore⟩ := r
      dsimp only at hk hconn hmem ⊢
      refine ⟨hk.ordered, fun call hc hst => ?_, fun hp => ?_, fun call restore' conn hc hst => ?_,
        hk.recoveries, hk.slot, fun he => ?_, hk.gaveUp, fun call hc hst => ?_,
        fun call hc hst => ?_⟩
      · cases hc
        cases hst
      · rw [hconn] at hp ⊢
        exact .inl (hawaited hp)
      · cases hc
        cases hst
        exact hmem
      · obtain ⟨call, hc, -, ⟨hst, -⟩ | ⟨-, hst | ⟨hst, -⟩⟩⟩ := exposed_iff.mp he <;>
          (cases hc; cases hst)
      · cases hc
        cases hst
      · cases hc
        cases hst
  · split
    · exact hgone _
    · next hwait =>
      split
      · exact hgone _
      · next hstate =>
        have hwait : options.waitForConnection = true := by simpa using hwait
        refine ⟨h.ordered, fun call hc hst => ?_, fun hp => .inl (hawaited hp),
          fun call restore' conn hc hst => ?_, h.recoveries, h.slot, fun he => ?_, h.gaveUp,
          fun call hc hst => ?_, fun call hc hst htimed => ?_⟩
        · cases hc
          cases hst
        · cases hc
          cases hst
        · obtain ⟨call, hc, htimed, -⟩ := exposed_iff.mp he
          cases hc
          exact h.running_of_dialed hcall rfl hwait htimed
        · cases hc
          cases hst
        · cases hc
          exact .inl ((h.heard _ hcall rfl hwait htimed).resolve_right hstate)

/-- A restore that is reported answers a parked call, and no other. -/
theorem reconnectionRestored_cases (s : State) (restore : Nat) (ok : Bool) : ∃ connectCall log,
    s.reconnectionRestored restore ok =
        { s with reconnections := s.reconnections.erase restore, connectCall, log } ∧
      ((∀ call, s.connectCall = some call → call.stage ≠ .parked) ∧ connectCall = s.connectCall ∨
        connectCall = none ∧ ∃ call, s.connectCall = some call ∧ call.stage = .parked) := by
  unfold State.reconnectionRestored
  cases ok with
  | false =>
    generalize hs₁ : State.emit { s with reconnections := s.reconnections.erase restore }
      .reconnectError = s₁
    rcases abortWaiter_cases s₁ .restoreFailed with ⟨hnot, heq⟩ | ⟨_, _, hcall, heq⟩
    · subst hs₁
      exact ⟨_, _, heq, .inl ⟨hnot, rfl⟩⟩
    · subst hs₁
      exact ⟨_, _, heq, .inr ⟨rfl, _, hcall, rfl⟩⟩
  | true =>
    dsimp only [State.emitReconnected, State.emit]
    rw [if_pos rfl]
    split
    · next hcall => exact ⟨_, _, rfl, .inr ⟨rfl, _, hcall, rfl⟩⟩
    · next hnot =>
      refine ⟨_, _, rfl, .inl ⟨fun call hcall hst => ?_, rfl⟩⟩
      obtain ⟨options, callers, stage⟩ := call
      cases hst
      exact hnot options callers hcall

theorem Awake.reconnectionRestored (h : Awake s) (restore : Nat) (ok : Bool) :
    Awake (s.reconnectionRestored restore ok) := by
  obtain ⟨call, log, heq, hcall⟩ := reconnectionRestored_cases s restore ok
  have hrec : ∀ k ∈ s.reconnections.erase restore, k ∈ s.restores := fun k hk =>
    h.recoveries k (List.mem_of_mem_erase hk)
  rw [heq]
  rcases hcall with ⟨hnot, rfl⟩ | ⟨rfl, cl, hcl, hst⟩
  · exact h.answer rfl (fun _ h => h) hrec h.slot (fun _ hc => hc) (fun _ hc _ => hc)
      fun call hc hst => absurd hst (hnot call hc)
  · refine h.answer rfl (fun _ h => h) hrec h.slot nofun (fun call hc hst' => ?_) nofun
    cases hcl.symm.trans hc
    cases hst.symm.trans hst'

/-! ## Steps of the connection -/

/-- What the calls of the facade see of the connection stays as it is. -/
theorem Awake.same (h : Awake s) {conn : Connection.State} {log : List Output}
    {disconnects : OrderedMap Nat DisconnectStage} (hord : Ordered conn)
    (hpromise : conn.connectPromise = s.connection.connectPromise)
    (hattempts : conn.attempts = s.connection.attempts)
    (hlanded : conn.landed = s.connection.landed)
    (hdown : conn.isShuttingDown = s.connection.isShuttingDown)
    (htimer : conn.reconnectTimeout = s.connection.reconnectTimeout)
    (hfailed : s.connection.connectionState = .failed → conn.connectionState = .failed ∨
      conn.connectPromise ≠ some (.returned none) ∧
        ∀ call, s.connectCall = some call → call.stage ≠ .dialed none) :
    Awake { s with connection := conn, disconnects, log } where
  ordered := hord
  dialing call hc hst := hpromise ▸ h.dialing call hc hst
  awaited hp := hattempts ▸ h.awaited (hpromise ▸ hp)
  restoring := h.restoring
  recoveries := h.recoveries
  slot := h.slot
  exposed he := by
    rw [hdown]
    refine h.exposed ?_
    simpa only [State.exposed, State.recovering, hpromise, hattempts, hlanded] using he
  gaveUp hp hd := by
    rw [htimer]
    rcases h.gaveUp (hpromise ▸ hp) (hdown ▸ hd) with ht | hf
    · exact .inl ht
    · exact .inr ((hfailed hf).resolve_right fun hno => hno.1 hp)
  heard call hc hst hwait htimed := by
    rw [htimer]
    rcases h.heard call hc hst hwait htimed with ht | hf
    · exact .inl ht
    · exact .inr ((hfailed hf).resolve_right fun hno => hno.2 call hc hst)
  parked call hc hst htimed := by
    have := h.parked call hc hst htimed
    simpa only [State.recovering, hpromise, hattempts, hlanded, htimer] using this

/-- The dial goes on, or ends for a client that is shutting down. -/
theorem Awake.redial (h : Awake s) {conn : Connection.State} {log : List Output} (hord : Ordered conn)
    {old new : Connection.Dial} (hold : s.connection.connectPromise = some old)
    (hnew : conn.connectPromise = some new) (hunold : unlanded (some old))
    (hunnew : unlanded (some new)) (hattempts : conn.attempts = s.connection.attempts)
    (hlanded : conn.landed = s.connection.landed)
    (hdown : conn.isShuttingDown = s.connection.isShuttingDown)
    (htimer : conn.reconnectTimeout = s.connection.reconnectTimeout)
    (hends : s.connection.isShuttingDown = true ∨
      conn.connectionState = s.connection.connectionState ∧ ∃ attempt, new = .dialing attempt) :
    Awake { s with connection := conn, log } := by
  have hrecovering : State.recovering { s with connection := conn, log } = s.recovering := by
    simp only [State.recovering, hattempts, hlanded, hold, hnew, hunold, hunnew]
  have hexposed : State.exposed { s with connection := conn, log } → s.exposed := fun he => by
    obtain ⟨call, hc, htimed, hst⟩ := exposed_iff.mp he
    refine exposed_iff.mpr ⟨call, hc, htimed, ?_⟩
    rw [hrecovering] at hst
    simpa only [hold, hnew, hunold, hunnew] using hst
  refine ⟨hord, fun _ _ _ => by simp [hnew], fun _ => ?_, h.restoring, h.recoveries, h.slot,
    fun he => ?_, fun hp hd => ?_, fun call hc hst hwait htimed => ?_, fun call hc hst htimed => ?_⟩
  · exact hattempts ▸ h.awaited (by simp [hold])
  · exact hdown ▸ h.exposed (hexposed he)
  · rcases hends with hend | ⟨-, attempt, rfl⟩
    · cases (hdown ▸ hd).symm.trans hend
    · cases hnew.symm.trans hp
  · rcases hends with hend | ⟨hstate, -⟩
    · cases (h.running_of_dialed hc hst hwait htimed).symm.trans hend
    · rw [htimer, hstate]
      exact h.heard call hc hst hwait htimed
  · rw [hrecovering]
    rcases hends with hend | ⟨-, attempt, rfl⟩
    · rcases h.running_of_parked hc hst htimed with hr | hrun
      · exact .inr (.inl hr)
      · cases hrun.symm.trans hend
    · exact .inr (.inr ⟨attempt, hnew⟩)

theorem Awake.losing (h : Awake s) (c : Connection.Config) {conn : Connection.State}
    (hord : Ordered conn) (hdown : conn.isShuttingDown = false)
    (hpromise : conn.connectPromise.isSome ↔ s.connection.connectPromise.isSome)
    (hattempts : conn.attempts = s.connection.attempts) : Awake (s.losing c conn) := by
  obtain ⟨hconn, hre, hrestores, hslot, hcall, -⟩ := losing_waiter s c conn
  have hframe := Connection.retrying_frame conn c
  have harmed := Connection.retrying_armed conn c
  have hsub : ∀ call, (s.losing c conn).connectCall = some call →
      s.connectCall = some call := fun call hc => by
    rcases hcall with ⟨hsame, -⟩ | ⟨hnone, -⟩
    · exact hsame ▸ hc
    · cases hnone.symm.trans hc
  refine ⟨?_, fun call hc hst => ?_, fun hp => ?_, fun call restore x hc hst => ?_,
    fun restore hr => ?_, fun restore hr => ?_, fun _ => ?_, fun _ _ => ?_, fun _ _ _ _ _ => ?_,
    fun call hc hst _ => ?_⟩
  · rw [hconn]
    exact hord.retrying c
  · rw [hconn, hframe]
    exact hpromise.mpr (h.dialing call (hsub call hc) hst)
  · rw [hconn, hframe] at hp ⊢
    rcases h.awaited (hpromise.mp hp) with hpos | ⟨call, hc, hst⟩
    · exact .inl (hattempts ▸ hpos)
    · refine .inr ⟨call, ?_, hst⟩
      rcases hcall with ⟨hsame, -⟩ | ⟨-, cl, hcl, hparked⟩
      · exact hsame.trans hc
      · cases hc.symm.trans hcl
        cases hst.symm.trans hparked
  · exact hrestores ▸ h.restoring call restore x (hsub call hc) hst
  · rw [hre] at hr
    exact hrestores ▸ h.recoveries restore hr
  · exact hrestores ▸ h.slot restore (hslot restore hr)
  · rw [hconn, hframe]
    exact hdown
  · rw [hconn]
    exact harmed
  · rw [hconn]
    exact harmed
  · rw [hconn]
    refine .inl ?_
    rcases hcall with ⟨hsame, htimer⟩ | ⟨hnone, -⟩
    · exact htimer ⟨call, hsub call hc, hst⟩
    · cases hnone.symm.trans hc

theorem Awake.connect (h : Awake s) {caller : Nat} {options : ConnectOptions}
    (hok : Heeded s (.connect caller options)) : Awake (s.connect caller options) := by
  unfold State.connect
  cases hcall : s.connectCall with
  | some call =>
    -- the new caller shares the call: its stage and its options stay
    have hshare : ∀ cl, some { call with callers := call.callers ++ [caller] } = some cl →
        cl.stage = call.stage ∧ cl.options = call.options := fun cl hcl => by
      cases hcl
      exact ⟨rfl, rfl⟩
    refine ⟨h.ordered, fun cl hcl hst => ?_, fun hp => ?_, fun cl restore conn hcl hst => ?_,
      h.recoveries, h.slot, fun he => ?_, h.gaveUp, fun cl hcl hst hwait htimed => ?_,
      fun cl hcl hst htimed => ?_⟩
    · exact h.dialing call hcall ((hshare cl hcl).1 ▸ hst)
    · refine (h.awaited hp).imp_right ?_
      rintro ⟨cl, hcl, hst⟩
      cases hcall.symm.trans hcl
      exact ⟨_, rfl, hst⟩
    · exact h.restoring call restore conn hcall ((hshare cl hcl).1 ▸ hst)
    · obtain ⟨cl, hcl, htimed, hst⟩ := exposed_iff.mp he
      obtain ⟨hstage, hoptions⟩ := hshare cl hcl
      refine h.exposed (exposed_iff.mpr ⟨call, hcall, hoptions ▸ htimed, ?_⟩)
      rw [hstage, hoptions] at hst
      exact hst
    · obtain ⟨hstage, hoptions⟩ := hshare cl hcl
      exact h.heard call hcall (hstage ▸ hst) (hoptions ▸ hwait) (hoptions ▸ htimed)
    · obtain ⟨hstage, hoptions⟩ := hshare cl hcl
      exact h.parked call hcall (hstage ▸ hst) (hoptions ▸ htimed)
  | none =>
    obtain ⟨shown, heq, -⟩ := absorb_calm
      { s with connectCall := some ⟨options, [caller], .dialing⟩ }
      (Connection.connect_calm s.connection)
    rw [heq]
    have H := Connection.connect_cases s.connection
    have hord := H.ordered h.ordered
    generalize s.connection.connect.1 = conn at H hord ⊢
    have hnew : ∀ (P : Prop) (cl : ConnectCall), some ⟨options, [caller], .dialing⟩ = some cl →
        (cl.stage = .dialed none ∨ cl.stage = .parked) → P := fun P cl hcl hst => by
      cases hcl
      rcases hst with hst | hst <;> cases hst
    have hexposed : State.exposed { s with
        connection := conn
        connectCall := some ⟨options, [caller], .dialing⟩
        log := s.log ++ shown } → options.waitForConnection ∧ options.timed = false ∧
          unlanded conn.connectPromise := fun he => by
      obtain ⟨cl, hcl, htimed, ⟨hst, -⟩ | ⟨hwait, hst | ⟨-, hland⟩⟩⟩ := exposed_iff.mp he
      · exact hnew _ cl hcl (.inr hst)
      · exact hnew _ cl hcl (.inl hst)
      · cases hcl
        exact ⟨hwait, htimed, hland⟩
    have hrestoring : ∀ (cl : ConnectCall) (restore x : Nat),
        some ⟨options, [caller], .dialing⟩ = some cl → cl.stage = .restoring restore x →
          restore ∈ s.restores := fun cl restore x hcl hst => by
      cases hcl
      cases hst
    cases H with
    | joins hdial =>
      refine ⟨hord, fun _ _ _ => hdial, fun _ => .inr ⟨_, rfl, rfl⟩, hrestoring, h.recoveries,
        h.slot, fun he => ?_, h.gaveUp, fun cl hcl hst => hnew _ cl hcl (.inl hst),
        fun cl hcl hst => hnew _ cl hcl (.inr hst)⟩
      obtain ⟨hwait, htimed, hland⟩ := hexposed he
      exact hok hcall hwait htimed hdial hland
    | @already connection hidle hstate hconn =>
      refine ⟨hord, fun _ _ _ => rfl, fun _ => .inr ⟨_, rfl, rfl⟩, hrestoring, h.recoveries,
        h.slot, fun he => ?_, fun hp => ?_, fun cl hcl hst => hnew _ cl hcl (.inl hst),
        fun cl hcl hst => hnew _ cl hcl (.inr hst)⟩
      · have hland := (hexposed he).2.2
        simp [hconn, unlanded] at hland
      · simp [hconn] at hp
    | dials hidle hlost =>
      exact ⟨hord, fun _ _ _ => rfl, fun _ => .inr ⟨_, rfl, rfl⟩, hrestoring, h.recoveries,
        h.slot, fun _ => rfl, nofun, fun cl hcl hst => hnew _ cl hcl (.inl hst),
        fun cl hcl hst => hnew _ cl hcl (.inr hst)⟩

theorem Awake.dialSettles (h : Awake s) {result : Option Nat}
    (hdial : s.connection.connectPromise = some (.returned result)) :
    Awake (s.dialSettles result) := by
  have hcall : ∀ call, (s.dialSettles result).connectCall = some call →
      ∃ old, s.connectCall = some old ∧ call.options = old.options ∧
        (old.stage = .dialing ∧ call.stage = .dialed result ∨
          old.stage ≠ .dialing ∧ call = old) := fun call hc => by
    obtain ⟨old, hold, rfl⟩ := Option.map_eq_some_iff.mp hc
    split
    · next hst => exact ⟨old, hold, rfl, .inl ⟨hst, rfl⟩⟩
    · next hst => exact ⟨old, hold, rfl, .inr ⟨hst, rfl⟩⟩
  have hnotDialing : ∀ call, (s.dialSettles result).connectCall = some call →
      call.stage ≠ .dialing := fun call hc hst => by
    obtain ⟨old, -, -, ⟨-, hnew⟩ | ⟨hnot, rfl⟩⟩ := hcall call hc
    · cases hnew.symm.trans hst
    · exact hnot hst
  -- whoever awaits the dial hears of a connection through `landed`
  have hrecovering : s.recovering → (s.dialSettles result).recovering := fun hr => by
    simp only [State.recovering, Bool.or_eq_true, Bool.not_eq_true', Bool.and_eq_true,
      decide_eq_true_eq] at hr ⊢
    rcases hr with (hr | hl) | ⟨hpos, hp⟩
    · exact .inl (.inl hr)
    · refine .inl (.inr ?_)
      simp only [State.dialSettles, Connection.State.dialSettles, List.any_append, hl,
        Bool.true_or]
    · refine .inl (.inr ?_)
      rw [hdial] at hp
      cases result with
      | none => cases hp
      | some x =>
        simp only [State.dialSettles, Connection.State.dialSettles, List.any_append,
          Bool.or_eq_true, List.any_eq_true]
        exact .inr ⟨some x, List.mem_replicate.mpr ⟨Nat.pos_iff_ne_zero.mp hpos, rfl⟩, rfl⟩
  refine ⟨⟨h.ordered.connected, nofun⟩, fun call hc hst => absurd hst (hnotDialing call hc), nofun,
    fun call restore conn hc hst => ?_, h.recoveries, h.slot, fun he => ?_, nofun,
    fun call hc hst hwait htimed => ?_, fun call hc hst htimed => ?_⟩
  · obtain ⟨old, hold, -, ⟨-, hnew⟩ | ⟨-, rfl⟩⟩ := hcall call hc
    · cases hnew.symm.trans hst
    · exact h.restoring call restore conn hold hst
  · obtain ⟨call, hc, htimed, hst⟩ := exposed_iff.mp he
    obtain ⟨old, hold, hoptions, ⟨hdialing, hnew⟩ | ⟨-, rfl⟩⟩ := hcall call hc
    · refine h.exposed (exposed_iff.mpr ⟨old, hold, hoptions ▸ htimed, .inr ?_⟩)
      rcases hst with ⟨hparked, -⟩ | ⟨hwait, hst | ⟨hst, -⟩⟩
      · cases hnew.symm.trans hparked
      · cases hnew.symm.trans hst
        exact ⟨hoptions ▸ hwait, .inr ⟨hdialing, by rw [hdial]; rfl⟩⟩
      · cases hnew.symm.trans hst
    · refine h.exposed (exposed_iff.mpr ⟨call, hold, htimed, ?_⟩)
      rcases hst with ⟨hparked, hr⟩ | ⟨hwait, hst | ⟨hst, -⟩⟩
      · refine .inl ⟨hparked, ?_⟩
        cases hbefore : s.recovering with
        | false => rfl
        | true => cases hr.symm.trans (hrecovering hbefore)
      · exact .inr ⟨hwait, .inl hst⟩
      · exact absurd hst (hnotDialing call hc)
  · obtain ⟨old, hold, hoptions, ⟨hdialing, hnew⟩ | ⟨-, rfl⟩⟩ := hcall call hc
    · cases hnew.symm.trans hst
      refine h.gaveUp hdial (h.exposed (exposed_iff.mpr ⟨old, hold, hoptions ▸ htimed, .inr
        ⟨hoptions ▸ hwait, .inr ⟨hdialing, by rw [hdial]; rfl⟩⟩⟩))
    · exact h.heard call hold hst hwait htimed
  · obtain ⟨old, hold, -, ⟨-, hnew⟩ | ⟨-, rfl⟩⟩ := hcall call hc
    · cases hnew.symm.trans hst
    · rcases h.parked call hold hst htimed with ht | hr | ⟨attempt, hd⟩
      · exact .inl ht
      · exact .inr (.inl (hrecovering hr))
      · cases hdial.symm.trans hd

theorem Awake.handleReconnection (h : Awake s) : Awake s.handleReconnection := by
  obtain ⟨hk, hconn, hcall, hmem⟩ := h.restoreState
  unfold State.handleReconnection
  generalize s.restoreState = r at hk hconn hcall hmem ⊢
  obtain ⟨s₁, restore⟩ := r
  dsimp only at hk hconn hcall hmem ⊢
  refine ⟨hk.ordered, hk.dialing, hk.awaited, hk.restoring, fun k hr => ?_, hk.slot, fun he => ?_,
    hk.gaveUp, hk.heard, fun _ _ _ _ => .inr (.inl rfl)⟩
  · rcases List.mem_cons.mp hr with rfl | hr
    · exact hmem
    · exact hk.recoveries k hr
  · obtain ⟨call, hc, htimed, ⟨-, hr⟩ | hst⟩ := exposed_iff.mp he
    · cases hr
    · exact hk.exposed (exposed_iff.mpr ⟨call, hc, htimed, .inr hst⟩)

/-- A call of `#attemptReconnect` resumes; a recovery it announced is still under way. -/
theorem Awake.pop (h : Awake s) {result : Option Nat} {rest : List (Option Nat)}
    (hlanded : s.connection.landed = result :: rest)
    (hrecovery : result = none ∨ s.reconnections ≠ []) :
    Awake { s with connection := { s.connection with landed := rest } } := by
  have hsame : State.recovering { s with connection := { s.connection with landed := rest } } =
      s.recovering := by
    rcases hrecovery with rfl | hne
    · simp [State.recovering, hlanded]
    · simp [State.recovering, List.isEmpty_eq_false_iff.mpr hne]
  refine ⟨⟨h.ordered.connected, h.ordered.closing⟩, h.dialing, h.awaited, h.restoring,
    h.recoveries, h.slot, fun he => ?_, h.gaveUp, h.heard, fun call hc hst htimed => ?_⟩
  · obtain ⟨call, hc, htimed, hst⟩ := exposed_iff.mp he
    rw [hsame] at hst
    exact h.exposed (exposed_iff.mpr ⟨call, hc, htimed, hst⟩)
  · rw [hsame]
    exact h.parked call hc hst htimed

/-- Restoring does not look at who has landed. -/
theorem handleReconnection_landed (s : State) (rest : List (Option Nat)) :
    State.handleReconnection { s with connection := { s.connection with landed := rest } } =
      { s.handleReconnection with
        connection := { s.handleReconnection.connection with landed := rest } } := by
  obtain ⟨⟨connection, _⟩, _, restorePromise, _⟩ := s
  cases restorePromise with
  | some restore => rfl
  | none => cases connection <;> rfl

theorem Awake.attemptResumes (h : Awake s) {result : Option Nat} {rest : List (Option Nat)}
    (hlanded : s.connection.landed = result :: rest) :
    Awake (s.absorb (s.connection.attemptResumes result rest)) := by
  cases result with
  | none => exact h.pop hlanded (.inl rfl)
  | some x =>
    have heq : s.absorb (s.connection.attemptResumes (some x) rest) =
        State.handleReconnection { s with connection := { s.connection with landed := rest } } := rfl
    have hconn : s.handleReconnection.connection = s.connection := by
      obtain ⟨-, hconn, -⟩ := h.restoreState
      exact hconn
    have hk := h.handleReconnection.pop (by rw [hconn]; exact hlanded)
      (.inr (List.cons_ne_nil _ _))
    rw [heq, handleReconnection_landed]
    exact hk

theorem Awake.timerFires (h : Awake s) (hquiet : s.quiet)
    (harmed : s.connection.reconnectTimeout.isSome) : Awake (s.absorb s.connection.timerFires) := by
  have hdown : s.connection.connectionState ≠ .connected := fun hstate => by
    simp [(h.ordered.connected hstate).2] at harmed
  have hnotReturned : ∀ result, s.connection.connectPromise ≠ some (.returned result) :=
    Connection.not_returned_of_quiet (pending_of_quiet hquiet)
  obtain ⟨shown, heq, -⟩ := absorb_calm s (Connection.timerFires_calm s.connection)
  obtain ⟨dialed, H, hfires⟩ := Connection.timerFires_cases hdown
  have hord : Ordered { s.connection with
      reconnectTimeout := none
      reconnectAttempt := s.connection.reconnectAttempt + 1 } :=
    ⟨fun hstate => absurd hstate hdown, h.ordered.closing⟩
  have hdialed : Ordered { dialed with attempts := dialed.attempts + 1 } := by
    have hd := H.ordered hord
    exact ⟨hd.connected, hd.closing⟩
  rw [heq, hfires]
  cases H with
  | already hidle hstate => exact absurd hstate hdown
  | joins hdial =>
    have hland : unlanded s.connection.connectPromise = true := by
      cases hp : s.connection.connectPromise with
      | none => rfl
      | some dial =>
        cases dial with
        | returned result => exact absurd hp (hnotReturned result)
        | _ => rfl
    refine ⟨hdialed, fun _ _ _ => hdial, fun _ => .inl (Nat.succ_pos _), h.restoring, h.recoveries,
      h.slot, fun he => ?_, fun hp => absurd hp (hnotReturned none), fun call hc hst => ?_,
      fun call hc hst htimed => ?_⟩
    · refine h.exposed ?_
      simpa [State.exposed, State.recovering, hland] using he
    · exact absurd hst (dialed_of_quiet hquiet hc none)
    · rcases h.running_of_parked hc hst htimed with hr | hrun
      · refine .inr (.inl ?_)
        simpa [State.recovering, hland] using hr
      · obtain ⟨dial, hp⟩ := Option.isSome_iff_exists.mp hdial
        cases dial with
        | dialing attempt => exact .inr (.inr ⟨attempt, hp⟩)
        | closing x => cases hrun.symm.trans (h.ordered.closing x hp)
        | returned result => exact absurd hp (hnotReturned result)
  | dials hidle =>
    refine ⟨hdialed, fun _ _ _ => rfl, fun _ => .inl (Nat.succ_pos _), h.restoring, h.recoveries,
      h.slot, fun _ => rfl, nofun, fun call hc hst => ?_, fun _ _ _ _ => .inr (.inr ⟨0, rfl⟩)⟩
    exact absurd hst (dialed_of_quiet hquiet hc none)

theorem Awake.dialSucceeds (h : Awake s) (hquiet : s.quiet) {connection attempt : Nat}
    (hdial : s.connection.connectPromise = some (.dialing attempt)) :
    Awake (s.absorb (s.connection.dialSucceeds connection)) := by
  cases hdown : s.connection.isShuttingDown with
  | true =>
    unfold Connection.State.dialSucceeds
    rw [if_pos hdown]
    exact h.redial ⟨h.ordered.connected, fun _ _ => hdown⟩ hdial rfl rfl rfl rfl rfl rfl rfl
      (.inl hdown)
  | false =>
    obtain ⟨shown, heq, -⟩ := absorb_calm s (Connection.dialSucceeds_calm s.connection connection)
    rw [heq, Connection.dialSucceeds_fst hdown]
    refine ⟨⟨fun _ => ⟨rfl, rfl⟩, nofun⟩, fun _ _ _ => rfl, fun _ => h.awaited (by simp [hdial]),
      h.restoring, h.recoveries, h.slot, fun _ => hdown, nofun, fun call hc hst => ?_,
      fun call hc hst _ => .inr (.inl ?_)⟩
    · exact absurd hst (dialed_of_quiet hquiet hc none)
    · -- the dial is not the parked call's own
      have hpos : 0 < s.connection.attempts := by
        rcases h.awaited (by simp [hdial]) with hpos | ⟨cl, hcl, hdialing⟩
        · exact hpos
        · cases hc.symm.trans hcl
          cases hst.symm.trans hdialing
      simp [State.recovering, unlanded, hpos]

theorem Awake.dialFails (h : Awake s) (c : Connection.Config) {attempt : Nat}
    (hdial : s.connection.connectPromise = some (.dialing attempt)) :
    Awake (s.absorb (s.connection.dialFails c attempt)) := by
  unfold Connection.State.dialFails
  dsimp only
  split
  · exact h.redial ⟨h.ordered.connected, nofun⟩ hdial rfl rfl rfl rfl rfl rfl rfl
      (.inr ⟨rfl, _, rfl⟩)
  · split
    · next hdown =>
      obtain ⟨shown, heq, -⟩ := absorb_calm s (Connection.setConnectionState_calm
        { s.connection with
          currentEndpointIndex := (s.connection.currentEndpointIndex + 1) % c.endpoints
          connection := none
          connectPromise := some (.returned none) } .disconnected)
      rw [heq]
      simp only [Connection.setConnectionState_fst]
      exact h.redial ⟨nofun, nofun⟩ hdial rfl rfl rfl rfl rfl rfl rfl (.inl hdown)
    · next hdown =>
      rw [absorb_startReconnection _ _ (by simpa using hdown)]
      exact h.losing c ⟨h.ordered.connected, nofun⟩ (by simpa using hdown) (by simp [hdial]) rfl

theorem Awake.connection (h : Awake s) {event : Connection.Event}
    {r : Connection.State × List Emitted} (hquiet : event.external → s.quiet)
    (hown : event ≠ .connect ∧ (∀ call, event ≠ .disconnect call) ∧ event ≠ .dialSettles ∧
      ∀ call, event ≠ .disconnectCloses call)
    (H : Connection.Steps c.toConfig s.connection event r) : Awake (s.absorb r) := by
  cases H with
  | connect => exact absurd rfl hown.1
  | disconnect => exact absurd rfl (hown.2.1 _)
  | dialSettles => exact absurd rfl hown.2.2.1
  | disconnectCloses => exact absurd rfl (hown.2.2.2 _)
  | dialSucceeds _ hdial => exact h.dialSucceeds (hquiet rfl) hdial
  | dialFails _ hdial => exact h.dialFails c.toConfig hdial
  | @discarded connection _ hdial =>
    obtain ⟨shown, heq, -⟩ := absorb_calm s (Connection.setConnectionState_calm
      { s.connection with
        connections := s.connection.connections.set connection ⟨false, true, false⟩
        connectPromise := some (.returned none) } .disconnected)
    unfold Connection.State.discarded
    rw [heq]
    simp only [Connection.setConnectionState_fst]
    exact h.redial ⟨nofun, nofun⟩ hdial rfl rfl rfl rfl rfl rfl rfl
      (.inl (h.ordered.closing _ hdial))
  | attemptResumes hlanded => exact h.attemptResumes hlanded
  | timerFires _ harmed => exact h.timerFires (hquiet rfl) harmed
  | @connectionCloses connection amqp _ hconn hlive =>
    unfold Connection.State.connectionCloses
    dsimp only
    split
    · next hwatched =>
      rw [absorb_startReconnection _ _ (by exact hwatched.2)]
      exact h.losing c.toConfig ⟨h.ordered.connected, h.ordered.closing⟩ hwatched.2 .rfl rfl
    · exact h.same ⟨h.ordered.connected, h.ordered.closing⟩ rfl rfl rfl rfl rfl .inl

theorem Awake.disconnected (h : Awake s) (call : Nat) (clean : Bool) :
    Awake (s.disconnected call clean) := by
  unfold State.disconnected
  cases clean with
  | true => exact h.aside rfl rfl rfl h.slot fun _ h => h
  | false => exact h.aside rfl rfl rfl h.slot fun _ h => h

/-- The shutdown of the connection, under no call that it would leave behind. -/
theorem Awake.disconnectConnection (h : Awake s) (hsafe : s.exposed = false) (call : Nat)
    (clean : Bool) : Awake (s.disconnectConnection call clean) := by
  obtain ⟨hpromise, hattempts, hlanded, hdown⟩ := Connection.disconnect_frame s.connection call
  obtain ⟨shown, heq, -⟩ := absorb_calm s (Connection.disconnect_calm s.connection call)
  have hord := Connection.disconnect_ordered s.connection call
  have hk : Awake (s.absorb (s.connection.disconnect call)) := by
    rw [heq]
    have hrecovering : State.recovering { s with
        connection := (s.connection.disconnect call).1
        log := s.log ++ shown } = s.recovering := by
      simp only [State.recovering, hpromise, hattempts, hlanded]
    have hnot : ∀ {P : Prop}, s.exposed → P := fun he => by cases hsafe.symm.trans he
    refine ⟨hord, fun call hc hst => ?_, fun hp => ?_, h.restoring, h.recoveries, h.slot,
      fun he => ?_, fun hp hd => ?_, fun call hc hst hwait htimed => ?_,
      fun call hc hst htimed => ?_⟩
    · exact hpromise ▸ h.dialing call hc hst
    · exact hattempts ▸ h.awaited (hpromise ▸ hp)
    · refine hnot ?_
      obtain ⟨call, hc, htimed, hst⟩ := exposed_iff.mp he
      rw [hrecovering] at hst
      exact exposed_iff.mpr ⟨call, hc, htimed, hpromise ▸ hst⟩
    · cases hdown.symm.trans hd
    · exact hnot (exposed_iff.mpr ⟨call, hc, htimed, .inr ⟨hwait, .inl hst⟩⟩)
    · rw [hrecovering]
      cases hr : s.recovering with
      | true => exact .inr (.inl rfl)
      | false => exact hnot (exposed_iff.mpr ⟨call, hc, htimed, .inl ⟨hst, hr⟩⟩)
  unfold State.disconnectConnection
  dsimp only
  split
  · exact hk.aside rfl rfl rfl hk.slot fun _ h => h
  · exact hk.disconnected call clean

theorem Steps.awake {event : Event} (H : Steps c s event s') (hok : Heeded s event)
    (h : Awake s) : Awake s' := by
  have hanswer : ∀ (call : ConnectCall) (o : Output), s.connectCall = some call →
      call.stage ≠ .dialing → Awake ({ s with connectCall := none }.emit o) :=
    fun call o hcall hst => by
      refine h.answer rfl (fun _ h => h) h.recoveries h.slot nofun (fun cl hc hdialing => ?_) nofun
      cases hcall.symm.trans hc
      exact absurd hdialing hst
  cases H with
  | connect => exact h.connect hok
  | disconnect hfresh =>
    have hk : Awake (s.emit .disconnecting) := h.aside rfl rfl rfl h.slot fun _ h => h
    have hk := hk.abortWaiter .aborted
    exact hk.aside rfl rfl rfl hk.slot fun _ h => h
  | connection hquiet hown H => exact h.connection hquiet hown H
  | dialSettles hdial => exact h.dialSettles hdial
  | connectDialed hcall => exact h.connectDialed hcall
  | connectRestored hcall hr => exact hanswer _ _ hcall nofun
  | connectTimesOut => exact h.abortWaiter _
  | @poolInitialized restore connection hquiet hr =>
    unfold State.poolInitialized
    split
    · exact h.aside rfl rfl rfl (h.setRestore _ _).slot fun _ hk =>
        OrderedMap.mem_set.mpr (.inr hk)
    · exact h.setRestore _ _
  | poolFails => exact h.settleRestore _ _ _
  | exchangeAsserted => exact h.setRestore _ _
  | @exchangeFails restore connection hquiet hr =>
    unfold State.exchangeFails
    split
    · exact h.aside rfl rfl rfl (h.setRestore _ _).slot fun _ hk =>
        OrderedMap.mem_set.mpr (.inr hk)
    · exact h.settleRestore _ _ _
  | recreated => exact h.settleRestore _ _ _
  | poolClosed => exact h.settleRestore _ _ _
  | reconnectionResumes => exact h.reconnectionRestored _ _
  | @disposed call throws hcall =>
    unfold State.disposed
    split
    · next hthrows => exact h.disconnectConnection (hok (.inl hthrows)) call false
    · split
      · exact h.aside rfl rfl rfl h.slot fun _ h => h
      · next hpool =>
        exact h.disconnectConnection (hok (.inr (by simpa using hpool))) call true
  | @channelPoolClosed call hcall =>
    have hk : Awake { s with channelPool := none } := h.aside rfl rfl rfl h.slot fun _ h => h
    exact hk.disconnectConnection hok call true
  | @connectionClosed call clean connection hcall hclosing =>
    refine Awake.disconnected ?_ call clean
    obtain ⟨shown, heq, -⟩ := absorb_calm s (Connection.setConnectionState_calm
      { s.connection with
        connections := s.connection.connections.set connection ⟨false, true, false⟩
        closing := s.connection.closing.erase call
        connection := none } .disconnected)
    unfold Connection.State.disconnectCloses
    rw [heq]
    simp only [Connection.setConnectionState_fst]
    refine h.same ⟨nofun, h.ordered.closing⟩ rfl rfl rfl rfl rfl fun hfailed => .inr ?_
    obtain ⟨hpromise, hcalls⟩ := hok hfailed
    refine ⟨hpromise, fun call hc hst => ?_⟩
    simp [hc, hst] at hcalls

/-- A pending call of `connect` has something that will wake it up, in every run in which no
shutdown goes by a call that would be left behind. -/
theorem pending_connect_wakes (hr : Reach (step c) Heeded start s) {call : ConnectCall}
    (hcall : s.connectCall = some call) : s.Wakes call :=
  (hr.invariant awake_start fun h hok hs => (step_cases hs).awake hok h).wakes hcall

/-! ## Runs -/

def withoutExchange : Config := ⟨⟨1, 1000, 30000, none⟩, false⟩

/-- The first dial fails, and the call parks until the timer's. -/
theorem pending_connect_wakes_run : ∃ s call, Reach (step withoutExchange) Heeded start s ∧
    s.connectCall = some call ∧ call.stage = .parked ∧ s.Wakes call := by
  have hrun : (run (step withoutExchange) Heeded start [.connect 0 ⟨true, none⟩,
      .connection .dialFails, .dialSettles, .connectResumes]).any (fun s =>
        decide (s.connectCall = some ⟨⟨true, none⟩, [0], .parked⟩)) := by
    decide +kernel
  obtain ⟨s, hs, hcall⟩ := (Option.any_eq_true _ _).mp hrun
  have hr := reach_of_run hs
  have hcall := of_decide_eq_true hcall
  exact ⟨s, _, hr, hcall, rfl, pending_connect_wakes hr hcall⟩

/-- `disconnect` runs through while the first dial is in flight. The dial lands, is discarded, and
the call parks after everything it could wait for is over. -/
theorem pending_connect_hangs : ∃ s call, Reach (step withoutExchange) anyStep start s ∧
    s.connectCall = some call ∧ call.options.waitForConnection = true ∧ ¬ s.Wakes call := by
  have hrun : (run (step withoutExchange) anyStep start [.connect 0 ⟨true, none⟩, .disconnect 1,
      .disposed 1 false, .connection (.dialSucceeds 0), .connection .discarded, .dialSettles,
      .connectResumes]).any (fun s =>
        decide (s.connectCall = some ⟨⟨true, none⟩, [0], .parked⟩ ∧
          s.connection.connectPromise = none ∧ s.connection.landed = [] ∧
          s.connection.reconnectTimeout = none ∧ s.restores.keys = [])) := by
    decide +kernel
  obtain ⟨s, hs, h⟩ := (Option.any_eq_true _ _).mp hrun
  obtain ⟨hcall, hpromise, hlanded, htimer, hkeys⟩ := of_decide_eq_true h
  refine ⟨s, _, reach_of_run hs, hcall, rfl, ?_⟩
  rintro ((h | h | ⟨call, result, hc, hst⟩) | h | ⟨restore, r, hr, -⟩ | ⟨-, h⟩)
  · simp [hpromise] at h
  · exact h hlanded
  · cases hcall.symm.trans hc
    cases hst
  · simp [htimer] at h
  · have hmem := OrderedMap.mem_def.mp (OrderedMap.mem_of_get? hr)
    simp [hkeys] at hmem
  · cases h

end Client
end RabbitMQ

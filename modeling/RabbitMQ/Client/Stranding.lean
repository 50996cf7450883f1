import RabbitMQ.Client
import RabbitMQ.Connection.Running

/-! The facade is never stranded, as long as no restore fails on a connection that stays up.

With a connection installed, either the pool is there, or a restore on that connection is under way,
or somebody is about to start one. Without a connection, the connection machine has a timer armed
or a dial in flight, or has given up. A restore that fails on the installed connection is the gap:
its pool is torn down, its callers hear of it, and nothing starts another. -/

namespace RabbitMQ
namespace Client

open Transition

variable {c : Config} {s s' : State}

def Output.success : Output → Bool
  | .connectResolved _ (some _) | .resumed _ (some _) _ => true
  | _ => false

/-- A call of `connect` has succeeded. -/
def State.Established (s : State) : Prop := ∃ o ∈ s.log, o.success

def State.Restoring (s : State) : Prop :=
  ∃ restore r, s.restores.get? restore = some r ∧ r.stage.isSettled = false

/-- Something works, or something will be tried again, or the machine gave up. -/
def State.NotStranded (s : State) : Prop :=
  s.channelPool.isSome ∨ s.Restoring ∨ s.Dialing ∨ s.connection.reconnectTimeout.isSome ∨
    s.connection.connectionState = .failed

/-- `disconnect` is not called. -/
def Event.Undisturbed : Event → Prop
  | .disconnect _ => False
  | _ => True

instance (event : Event) : Decidable event.Undisturbed :=
  match event with
  | .disconnect _ => instDecidableFalse
  | .connect .. | .connection _ | .dialSettles | .connectResumes | .connectTimesOut
  | .poolInitialized .. | .exchangeAsserted .. | .recreated _ | .poolClosed _
  | .reconnectionResumes _ | .disposed .. | .channelPoolClosed _ | .connectionClosed _ =>
    instDecidableTrue

/-- No restore fails while the connection it was started on is still installed. -/
def Recoverable (s : State) (event : Event) : Prop :=
  match event with
  | .poolInitialized restore false | .exchangeAsserted restore false =>
    ∀ r, s.restores.get? restore = some r → s.connection.connection ≠ r.connection
  | _ => True

instance (s : State) (event : Event) : Decidable (Recoverable s event) := by
  unfold Recoverable
  split
  · exact decidable_of_iff (∀ r ∈ s.restores.get? _, s.connection.connection ≠ r.connection) .rfl
  · exact decidable_of_iff (∀ r ∈ s.restores.get? _, s.connection.connection ≠ r.connection) .rfl
  · infer_instance

/-- A dial gave a connection, and not everyone who awaits it has heard. -/
def State.Landing (s : State) : Prop :=
  (∃ c, s.connection.connectPromise = some (.returned (some c))) ∨
    (∃ c, some c ∈ s.connection.landed) ∨
    ∃ call c, s.connectCall = some call ∧ call.stage = .dialed (some c)

/-- The restore is under way on this connection. -/
def State.Building (s : State) (restore connection : Nat) : Prop :=
  ∃ stage, s.restores.get? restore = some ⟨some connection, stage⟩ ∧
    (stage = .opening ∨ stage = .exchange ∨ stage = .recreating)

structure Kept (s : State) : Prop where
  running : Connection.Running s.connection
  undisturbed : ∀ call, s.disconnects.get? call = none
  dialed : ∀ call c, s.connectCall = some call → call.stage = .dialed (some c) →
    s.connection.connection = some c
  awaited : s.connection.connectPromise.isSome → 0 < s.connection.attempts ∨
    ∃ call, s.connectCall = some call ∧ call.stage = .dialing
  slot : ∀ restore, s.restorePromise = some restore →
    ∃ c, s.connection.connection = some c ∧ s.Building restore c
  pooled : ∀ restore c stage, s.connection.connection = some c →
    s.restores.get? restore = some ⟨some c, stage⟩ → stage = .exchange ∨ stage = .recreating →
    s.channelPool.isSome
  pool : ∀ p, s.channelPool = some p → s.connection.connection = some p.connection
  known : ∀ restore c stage, s.restores.get? restore = some ⟨some c, stage⟩ →
    c ∈ s.connection.connections
  fresh : s.connection.connectionState = .disconnected →
    s.connectCall = none ∧ s.reconnections = [] ∧ ¬ s.Established

/-- The installed connection is put to use, or will be. -/
def State.Supplied (s : State) : Prop :=
  ∀ c, s.connection.connection = some c →
    s.channelPool.isSome ∨ s.Landing ∨ ∃ restore, s.Building restore c

theorem kept_start : Kept start where
  running := Connection.running_start
  undisturbed _ := rfl
  dialed := nofun
  awaited := nofun
  slot := nofun
  pooled := nofun
  pool := nofun
  known := nofun
  fresh _ := ⟨rfl, rfl, fun ⟨_, ho, _⟩ => nomatch ho⟩

/-- A connection that is installed or about to be tried again keeps the facade going. -/
theorem Kept.notStranded (h : Kept s) (hs : s.Supplied) (he : s.Established) : s.NotStranded := by
  cases hc : s.connection.connection with
  | some c =>
    rcases hs c hc with hp | hl | ⟨restore, stage, hr, hstage⟩
    · exact .inl hp
    · refine .inr (.inr (.inl ?_))
      rcases hl with ⟨c, hl⟩ | ⟨c, hl⟩ | ⟨call, c, hcall, hl⟩
      · exact .inl (by simp [hl])
      · exact .inr (.inl (List.ne_nil_of_mem hl))
      · exact .inr (.inr ⟨call, some c, hcall, hl⟩)
    · exact .inr (.inl ⟨restore, _, hr, by rcases hstage with rfl | rfl | rfl <;> rfl⟩)
  | none =>
    rcases h.running.retries hc with (ht | hf | ⟨attempt, hd⟩) | hd
    · exact .inr (.inr (.inr (.inl ht)))
    · exact .inr (.inr (.inr (.inr hf)))
    · exact .inr (.inr (.inl (.inl (by simp [hd]))))
    · exact absurd he (h.fresh hd).2.2

/-! ## Restores -/

theorem State.Building.setRestore {restore connection r conn : Nat} {stage : RestoreStage}
    (h : s.Building restore connection) (hr : r ≠ restore) :
    (s.setRestore r ⟨some conn, stage⟩).Building restore connection := by
  obtain ⟨st, hget, hst⟩ := h
  refine ⟨st, ?_, hst⟩
  simp only [State.setRestore]
  rw [OrderedMap.get?_set, if_neg (Ne.symm hr)]
  exact hget

/-- `#restoreState` on the installed connection: a restore of it is under way. -/
theorem Kept.restoreState (h : Kept s) {conn : Nat} (hc : s.connection.connection = some conn) :
    Kept s.restoreState.1 ∧ s.restoreState.1.Building s.restoreState.2 conn ∧
      ∃ restores nextRestore restorePromise,
        s.restoreState.1 = { s with restores, nextRestore, restorePromise } := by
  unfold State.restoreState
  cases hslot : s.restorePromise with
  | some restore =>
    obtain ⟨c, hc', hb⟩ := h.slot restore hslot
    cases hc.symm.trans hc'
    exact ⟨h, hb, _, _, _, rfl⟩
  | none =>
    simp only [hc]
    refine ⟨⟨h.running, h.undisturbed, h.dialed, h.awaited, fun restore hr => ?_,
      fun restore c stage hc' hr hst => ?_, h.pool, fun restore c stage hr => ?_, h.fresh⟩,
      ⟨.opening, OrderedMap.get?_set_self _ _ _, .inl rfl⟩, _, _, _, rfl⟩
    · obtain rfl := Option.some.inj hr
      exact ⟨conn, hc, .opening, OrderedMap.get?_set_self _ _ _, .inl rfl⟩
    · simp only [State.setRestore, OrderedMap.get?_set] at hr
      split at hr
      · cases hr; simp at hst
      · exact h.pooled restore c stage hc' hr hst
    · simp only [State.setRestore, OrderedMap.get?_set] at hr
      split at hr
      · cases hr; exact h.running.known conn hc
      · exact h.known restore c stage hr

/-- A restore changes its stage. -/
theorem Kept.setRestore (h : Kept s) {restore conn : Nat} {old : RestoreStage}
    (hold : s.restores.get? restore = some ⟨some conn, old⟩) {stage : RestoreStage}
    (hslot : s.restorePromise = some restore →
      stage = .opening ∨ stage = .exchange ∨ stage = .recreating)
    (hpool : s.connection.connection = some conn → stage = .exchange ∨ stage = .recreating →
      s.channelPool.isSome) : Kept (s.setRestore restore ⟨some conn, stage⟩) where
  running := h.running
  undisturbed := h.undisturbed
  dialed := h.dialed
  awaited := h.awaited
  slot r hr := by
    obtain ⟨c, hc, hb⟩ := h.slot r hr
    by_cases hne : restore = r
    · subst hne
      obtain ⟨st, hget, -⟩ := hb
      cases hold.symm.trans hget
      exact ⟨conn, hc, stage, OrderedMap.get?_set_self _ _ _, hslot hr⟩
    · exact ⟨c, hc, hb.setRestore hne⟩
  pooled r c st hc hr hst := by
    simp only [State.setRestore, OrderedMap.get?_set] at hr
    split at hr
    · cases hr; exact hpool hc hst
    · exact h.pooled r c st hc hr hst
  pool := h.pool
  known r c st hr := by
    simp only [State.setRestore, OrderedMap.get?_set] at hr
    split at hr
    · cases hr; exact h.known restore conn old hold
    · exact h.known r c st hr
  fresh := h.fresh

/-- A restore is over and releases the slot. -/
theorem Kept.settleRestore (h : Kept s) {restore : Nat} {conn : Option Nat} {old : RestoreStage}
    (hold : s.restores.get? restore = some ⟨conn, old⟩) (ok : Bool) :
    Kept (s.settleRestore restore conn ok) where
  running := h.running
  undisturbed := h.undisturbed
  dialed := h.dialed
  awaited := h.awaited
  slot r hr := by
    simp only [State.settleRestore] at hr
    split at hr
    · cases hr
    · next hslot =>
      obtain ⟨c, hc, st, hget, hst⟩ := h.slot r hr
      refine ⟨c, hc, st, ?_, hst⟩
      simp only [State.settleRestore]
      rw [OrderedMap.get?_set, if_neg]
      · exact hget
      · rintro rfl
        exact hslot hr
  pooled r c st hc hr hst := by
    simp only [State.settleRestore, OrderedMap.get?_set] at hr
    split at hr
    · cases hr; simp at hst
    · exact h.pooled r c st hc hr hst
  pool := h.pool
  known r c st hr := by
    simp only [State.settleRestore, OrderedMap.get?_set] at hr
    split at hr
    · cases hr; exact h.known restore c old hold
    · exact h.known r c st hr
  fresh := h.fresh

/-! ## Steps of the connection -/

/-- Without a connection there is neither a pool nor a restore to join. -/
theorem Kept.vacant (h : Kept s) (hc : s.connection.connection = none) :
    s.restorePromise = none ∧ s.channelPool = none := by
  refine ⟨?_, ?_⟩
  · cases hslot : s.restorePromise with
    | none => rfl
    | some restore =>
      obtain ⟨x, hx, -⟩ := h.slot restore hslot
      cases hc.symm.trans hx
  · cases hp : s.channelPool with
    | none => rfl
    | some p => cases hc.symm.trans (h.pool p hp)

/-- The connection moves on with the installed connection in place. -/
theorem Kept.update (h : Kept s) {conn : Connection.State} {call : Option ConnectCall}
    {log : List Output} (hrun : Connection.Running conn)
    (hsame : conn.connection = s.connection.connection)
    (hknown : ∀ c ∈ s.connection.connections, c ∈ conn.connections)
    (hdialed : ∀ cl c, call = some cl → cl.stage = .dialed (some c) → conn.connection = some c)
    (hawaited : conn.connectPromise.isSome → 0 < conn.attempts ∨
      ∃ cl, call = some cl ∧ cl.stage = .dialing)
    (hfresh : conn.connectionState = .disconnected →
      call = none ∧ s.reconnections = [] ∧ ¬ ∃ o ∈ log, o.success) :
    Kept { s with connection := conn, connectCall := call, log } where
  running := hrun
  undisturbed := h.undisturbed
  dialed := hdialed
  awaited := hawaited
  slot restore hr := by
    rw [hsame]
    exact h.slot restore hr
  pooled restore c stage hc := h.pooled restore c stage (hsame ▸ hc)
  pool p hp := hsame ▸ h.pool p hp
  known restore c stage hr := hknown c (h.known restore c stage hr)
  fresh := hfresh

/-- The connection is gone, or a new one is installed: nothing of the facade rests on it. -/
theorem Kept.replace (h : Kept s) {conn : Connection.State} {call : Option ConnectCall}
    {log : List Output} (hrun : Connection.Running conn)
    (hknown : ∀ c ∈ s.connection.connections, c ∈ conn.connections)
    (hnew : ∀ c, conn.connection = some c → c ∉ s.connection.connections)
    (hdialed : ∀ cl c, call = some cl → cl.stage = .dialed (some c) → conn.connection = some c)
    (hawaited : conn.connectPromise.isSome → 0 < conn.attempts ∨
      ∃ cl, call = some cl ∧ cl.stage = .dialing)
    (hfresh : conn.connectionState = .disconnected →
      call = none ∧ s.reconnections = [] ∧ ¬ ∃ o ∈ log, o.success) :
    Kept { s with
      connection := conn
      channelPool := none
      restorePromise := none
      connectCall := call
      log } where
  running := hrun
  undisturbed := h.undisturbed
  dialed := hdialed
  awaited := hawaited
  slot := nofun
  pooled restore c stage hc hr := absurd (h.known restore c stage hr) (hnew c hc)
  pool := nofun
  known restore c stage hr := hknown c (h.known restore c stage hr)
  fresh := hfresh

theorem State.Landing.of_eq (h : s.Landing)
    (hpromise : ∀ c, s.connection.connectPromise = some (.returned (some c)) →
      s'.connection.connectPromise = some (.returned (some c)))
    (hlanded : ∀ c, some c ∈ s.connection.landed → some c ∈ s'.connection.landed)
    (hcall : ∀ call c, s.connectCall = some call → call.stage = .dialed (some c) →
      ∃ call', s'.connectCall = some call' ∧ call'.stage = .dialed (some c)) : s'.Landing := by
  rcases h with ⟨c, h⟩ | ⟨c, h⟩ | ⟨call, c, h, hst⟩
  · exact .inl ⟨c, hpromise c h⟩
  · exact .inr (.inl ⟨c, hlanded c h⟩)
  · obtain ⟨call', h', hst'⟩ := hcall call c h hst
    exact .inr (.inr ⟨call', c, h', hst'⟩)

theorem Kept.connect (h : Kept s) (hs : s.Supplied) (caller : Nat) (options : ConnectOptions) :
    Kept (s.connect caller options) ∧ (s.connect caller options).Supplied := by
  unfold State.connect
  cases hcall : s.connectCall with
  | some call =>
    refine ⟨h.update h.running rfl (fun _ h => h) (fun cl c hcl hst => ?_) (fun hp => ?_)
      fun hd => ?_, fun c hc => ?_⟩
    · obtain rfl := Option.some.inj hcl
      exact h.dialed call c hcall hst
    · refine (h.awaited hp).imp_right ?_
      rintro ⟨cl, hcl, hst⟩
      cases hcall.symm.trans hcl
      exact ⟨_, rfl, hst⟩
    · cases hcall.symm.trans (h.fresh hd).1
    · refine (hs c hc).imp_right (Or.imp_left fun hl => ?_)
      refine hl.of_eq (fun _ h => h) (fun _ h => h) fun cl c hcl hst => ?_
      cases hcall.symm.trans hcl
      exact ⟨_, rfl, hst⟩
  | none =>
    obtain ⟨shown, heq, hshown⟩ := absorb_calm
      { s with connectCall := some ⟨options, [caller], .dialing⟩ }
      (Connection.connect_calm s.connection)
    rw [heq]
    have hrun := (Connection.connect_cases s.connection).running h.running
    have H := Connection.connect_cases s.connection
    have hlanding : ∀ conn : Connection.State, conn.landed = s.connection.landed →
        (∀ c, s.connection.connectPromise = some (.returned (some c)) →
          conn.connectPromise = some (.returned (some c))) → s.Landing →
        State.Landing { s with
          connection := conn
          connectCall := some ⟨options, [caller], .dialing⟩
          log := s.log ++ shown } := fun conn hl hp hland => by
      refine hland.of_eq hp (fun c hc => hl ▸ hc) fun cl c hcl _ => ?_
      cases hcall.symm.trans hcl
    have hdialed : ∀ (cl : ConnectCall) (x : Nat), some ⟨options, [caller], .dialing⟩ = some cl →
        cl.stage = .dialed (some x) → ∀ P : Prop, P := fun cl x hcl hst => by
      cases hcl
      cases hst
    generalize s.connection.connect.1 = conn at hrun H ⊢
    cases H with
    | joins hdial =>
      refine ⟨h.update hrun rfl (fun _ h => h) (fun cl x hcl hst => hdialed cl x hcl hst _)
        (fun _ => .inr ⟨_, rfl, rfl⟩) fun hd => ?_, fun x hx => ?_⟩
      · simp [(h.running.fresh hd).1] at hdial
      · exact (hs x hx).imp_right (Or.imp_left (hlanding _ rfl fun _ h => h))
    | @already connection hidle hstate hconn =>
      refine ⟨h.update hrun rfl (fun _ h => h) (fun cl x hcl hst => hdialed cl x hcl hst _)
        (fun _ => .inr ⟨_, rfl, rfl⟩) fun hd => ?_, fun x hx => ?_⟩
      · cases hstate.symm.trans hd
      · exact .inr (.inl (.inl ⟨connection, congrArg _ (congrArg _ hconn)⟩))
    | dials hidle hlost =>
      refine ⟨h.update hrun rfl (fun _ h => h) (fun cl x hcl hst => hdialed cl x hcl hst _)
        (fun _ => .inr ⟨_, rfl, rfl⟩) nofun, fun x hx => ?_⟩
      cases hx.symm.trans (hlost (h.running.up x hx).1)

theorem Kept.dialSettles (h : Kept s) (hs : s.Supplied) {result : Option Nat}
    (hdial : s.connection.connectPromise = some (.returned result)) :
    Kept (s.dialSettles result) ∧ (s.dialSettles result).Supplied := by
  have hrun := (Connection.Steps.dialSettles (c := ⟨0, 0, 0, none⟩) hdial).running
    ⟨nofun, nofun⟩ h.running
  refine ⟨h.update hrun rfl (fun _ h => h) (fun cl x hcl hst => ?_) nofun fun hd => ?_,
    fun c hc => ?_⟩
  · obtain ⟨call, hcall, rfl⟩ := Option.map_eq_some_iff.mp hcl
    split at hst
    · cases hst
      exact h.running.returned x hdial
    · exact h.dialed call x hcall hst
  · cases hdial.symm.trans (h.running.fresh hd).1
  · refine (hs c hc).imp_right (Or.imp_left ?_)
    rintro (⟨x, hx⟩ | ⟨x, hx⟩ | ⟨call, x, hcall, hst⟩)
    · -- its callers: the calls of `#attemptReconnect`, or the one of `connect`
      cases hdial.symm.trans hx
      rcases h.awaited (by simp [hdial]) with hpos | ⟨call, hcall, hst⟩
      · refine .inr (.inl ⟨x, List.mem_append_right _ (List.mem_replicate.mpr ⟨?_, rfl⟩)⟩)
        exact Nat.pos_iff_ne_zero.mp hpos
      · exact .inr (.inr ⟨{ call with stage := .dialed (some x) }, x,
          by simp only [State.dialSettles, hcall, Option.map_some, hst], rfl⟩)
    · exact .inr (.inl ⟨x, List.mem_append_left _ hx⟩)
    · exact .inr (.inr ⟨call, x, by simp only [State.dialSettles, hcall, Option.map_some, hst], hst⟩)

/-- A connection that is lost leaves nothing to supply. -/
theorem Kept.losing (h : Kept s) (c : Connection.Config) {conn : Connection.State}
    (hlost : conn.connection = none) (hrun : Connection.Running (conn.retrying c))
    (hr : conn.isReconnecting = s.connection.isReconnecting)
    (hdown : s.connection.isReconnecting → s.connection.connection = none)
    (hknown : ∀ c ∈ s.connection.connections, c ∈ conn.connections)
    (hpromise : conn.connectPromise.isSome → s.connection.connectPromise.isSome)
    (hattempts : conn.attempts = s.connection.attempts)
    (hcalls : ∀ call x, s.connectCall = some call → call.stage ≠ .dialed (some x)) :
    Kept (s.losing c conn) ∧ (s.losing c conn).Supplied := by
  have hnone : conn.isReconnecting → s.restorePromise = none ∧ s.channelPool = none := fun hre =>
    h.vacant (hdown (hr ▸ hre))
  obtain ⟨call, shown, heq, hsame, hcall, -, hshown⟩ := losing_eq c hnone
  have hframe := Connection.retrying_frame conn c
  rw [heq]
  have hconn : (conn.retrying c).connection = none := by rw [hframe]; exact hlost
  refine ⟨h.replace hrun (fun x hx => ?_) (fun x hx => ?_) (fun cl x hcl hst => ?_) (fun hp => ?_)
    fun hd => ?_, fun x hx => ?_⟩
  · rw [hframe]; exact hknown x hx
  · cases hconn.symm.trans hx
  · rcases hcall with rfl | rfl
    · cases hcl
    · exact absurd hst (hcalls cl x hcl)
  · rw [hframe] at hp ⊢
    rcases h.awaited (hpromise hp) with hpos | ⟨cl, hcl, hst⟩
    · exact .inl (hattempts ▸ hpos)
    · refine .inr ⟨cl, (hsame fun cl' hcl' => ?_).trans hcl, hst⟩
      cases hcl.symm.trans hcl'
      simp [hst]
  · exfalso
    rcases Connection.retrying_armed conn c with harmed | hfailed
    · have := (hrun.fresh hd).2.2
      unfold Connection.State.retrying at this harmed
      split at harmed
      · simp at harmed
      · next hex => simp [hex] at this
    · cases hd.symm.trans hfailed
  · cases hconn.symm.trans hx

/-- A restore joined or started on the installed connection supplies it. -/
theorem Kept.handleReconnection (h : Kept s) {conn : Nat}
    (hc : s.connection.connection = some conn) :
    Kept s.handleReconnection ∧ s.handleReconnection.Supplied := by
  obtain ⟨hk, hb, restores, nextRestore, restorePromise, heq⟩ := h.restoreState hc
  have hup := (h.running.up conn hc).1
  unfold State.handleReconnection
  generalize s.restoreState = r at hk hb heq ⊢
  obtain ⟨s₁, restore⟩ := r
  dsimp only at hk hb heq ⊢
  have hconn : s₁.connection = s.connection := by rw [heq]
  refine ⟨⟨hk.running, hk.undisturbed, hk.dialed, hk.awaited, hk.slot, hk.pooled, hk.pool, hk.known,
    fun hd => ?_⟩, fun x hx => ?_⟩
  · rw [hconn] at hd
    cases hup.symm.trans hd
  · rw [hconn] at hx
    cases hc.symm.trans hx
    exact .inr (.inr ⟨restore, hb⟩)

/-- A step of the connection on its own. -/
theorem Kept.connection (h : Kept s) (hs : s.Supplied) {event : Connection.Event}
    {r : Connection.State × List Connection.Emitted}
    (hquiet : event.external → s.quiet)
    (hown : event ≠ .connect ∧ (∀ call, event ≠ .disconnect call) ∧ event ≠ .dialSettles ∧
      ∀ call, event ≠ .disconnectCloses call)
    (H : Connection.Steps c.toConfig s.connection event r) :
    Kept (s.absorb r) ∧ (s.absorb r).Supplied := by
  have hrun := H.running ⟨hown.2.1, hown.2.2.2⟩ h.running
  cases H with
  | connect => exact absurd rfl hown.1
  | disconnect => exact absurd rfl (hown.2.1 _)
  | dialSettles => exact absurd rfl hown.2.2.1
  | disconnectCloses => exact absurd rfl (hown.2.2.2 _)
  | discarded _ hdial => exact absurd hdial (h.running.closing _)
  | @dialSucceeds connection attempt _ hdial hfresh =>
    have hnone : s.connection.connection = none := by
      cases hc : s.connection.connection with
      | none => rfl
      | some x => exact absurd hdial ((h.running.up x hc).2.2.2 attempt)
    obtain ⟨hslot, hpool⟩ := h.vacant hnone
    obtain ⟨shown, heq, hshown⟩ := absorb_calm s
      (Connection.dialSucceeds_calm s.connection connection)
    have hfst := Connection.dialSucceeds_fst h.running.running connection
    have hconn : (s.connection.dialSucceeds connection).1.connection = some connection := by
      rw [hfst]
    have hvacant : s.absorb (s.connection.dialSucceeds connection) = { s with
        connection := (s.connection.dialSucceeds connection).1
        channelPool := none
        restorePromise := none
        connectCall := s.connectCall
        log := s.log ++ shown } := by
      rw [heq, ← hslot, ← hpool]
    rw [hvacant]
    refine ⟨h.replace hrun (fun x hx => ?_) (fun x hx => ?_) (fun cl x hcl hst => ?_) (fun _ => ?_)
      fun hd => ?_, fun x hx => ?_⟩
    · rw [hfst]
      exact OrderedMap.mem_set.mpr (.inr hx)
    · cases hconn.symm.trans hx
      exact hfresh
    · cases hnone.symm.trans (h.dialed cl x hcl hst)
    · rw [hfst]
      exact h.awaited (by simp [hdial])
    · rw [hfst] at hd
      cases hd
    · refine .inr (.inl (.inl ⟨connection, ?_⟩))
      simp only [hfst]
  | @dialFails attempt hq hdial =>
    have hnone : s.connection.connection = none := by
      cases hc : s.connection.connection with
      | none => rfl
      | some x => exact absurd hdial ((h.running.up x hc).2.2.2 attempt)
    have hawaited := h.awaited (by simp [hdial])
    unfold Connection.State.dialFails at hrun ⊢
    dsimp only at hrun ⊢
    split at hrun
    · next hmore =>
      rw [if_pos hmore]
      refine ⟨h.update hrun rfl (fun _ h => h) h.dialed (fun _ => hawaited) fun hd => ?_,
        fun x hx => ?_⟩
      · cases hdial.symm.trans (h.running.fresh hd).1
      · cases hnone.symm.trans hx
    · next hlast =>
      rw [if_neg (by simp [h.running.running]),
        Connection.startReconnection_fst (by exact h.running.running)] at hrun
      rw [if_neg hlast, if_neg (by simp [h.running.running]),
        absorb_startReconnection _ _ (by exact h.running.running)]
      exact h.losing c.toConfig rfl hrun rfl (fun _ => hnone) (fun _ h => h)
        (fun _ => by simp [hdial]) rfl fun call x hcall => dialed_of_quiet (hquiet rfl) hcall _
  | @attemptResumes result rest hlanded =>
    have hup : Kept { s with connection := { s.connection with landed := rest } } :=
      h.update hrun rfl (fun _ h => h) h.dialed h.awaited h.fresh
    cases result with
    | none =>
      refine ⟨hup, fun x hx => (hs x hx).imp_right (Or.imp_left fun hl => ?_)⟩
      refine hl.of_eq (fun _ h => h) (fun y hy => ?_) fun call y hcall hst => ⟨call, hcall, hst⟩
      rw [hlanded] at hy
      have hy : some y ∈ rest := by simpa using hy
      exact hy
    | some x =>
      exact hup.handleReconnection (h.running.landed x (hlanded ▸ List.mem_cons_self))
  | timerFires hq harmed =>
    have hdown : s.connection.connectionState ≠ .connected := fun hstate => by
      obtain ⟨x, hx⟩ := Option.isSome_iff_exists.mp (h.running.connected hstate)
      simp [(h.running.up x hx).2.2.1] at harmed
    have hnone : s.connection.connection = none := by
      cases hc : s.connection.connection with
      | none => rfl
      | some x => exact absurd (h.running.up x hc).1 hdown
    obtain ⟨shown, heq, hshown⟩ := absorb_calm s (Connection.timerFires_calm s.connection)
    obtain ⟨dialed, H, hfires⟩ := Connection.timerFires_cases hdown
    rw [heq, hfires]
    rw [hfires] at hrun
    cases H with
    | already hidle hstate => exact absurd hstate hdown
    | joins hdial =>
      refine ⟨h.update hrun rfl (fun _ h => h) h.dialed (fun _ => .inl (Nat.succ_pos _))
        fun hd => ?_, fun x hx => ?_⟩
      · simp [(h.running.fresh hd).1] at hdial
      · cases hnone.symm.trans hx
    | dials hidle =>
      refine ⟨h.update hrun rfl (fun _ h => h) h.dialed (fun _ => .inl (Nat.succ_pos _)) nofun,
        fun x hx => ?_⟩
      cases hnone.symm.trans hx
  | @connectionCloses connection amqp hq hconn hlive =>
    unfold Connection.State.connectionCloses at hrun ⊢
    dsimp only at hrun ⊢
    have hknown : ∀ x ∈ s.connection.connections,
        x ∈ s.connection.connections.set connection { amqp with live := false } := fun x hx =>
      OrderedMap.mem_set.mpr (.inr hx)
    split at hrun
    · next hwatched =>
      rw [Connection.startReconnection_fst (by exact h.running.running)] at hrun
      rw [if_pos hwatched, absorb_startReconnection _ _ (by exact h.running.running)]
      refine h.losing c.toConfig rfl hrun rfl (fun hre => ?_) hknown (fun hp => hp) rfl
        fun call x hcall => dialed_of_quiet (hquiet rfl) hcall _
      cases hc : s.connection.connection with
      | none => rfl
      | some x => cases hre.symm.trans (h.running.up x hc).2.1
    · next hwatched =>
      rw [if_neg hwatched]
      exact ⟨h.update hrun rfl hknown h.dialed h.awaited h.fresh, hs⟩

/-! ## Steps of the facade -/

/-- The call of `connect` is answered, or parks: it was neither dialing nor holding a connection. -/
def State.Answers (s : State) (call : Option ConnectCall) : Prop :=
  call = s.connectCall ∨ ∃ cl, s.connectCall = some cl ∧ cl.stage ≠ .dialing ∧
    (∀ x, cl.stage ≠ .dialed (some x)) ∧ ∀ cl', call = some cl' → cl'.stage = .parked

theorem Kept.answers (h : Kept s) (hs : s.Supplied)
    (hup : s.connection.connectionState ≠ .disconnected) {call : Option ConnectCall}
    (hcall : s.Answers call) {reconnections : List Nat} {log : List Output} :
    Kept { s with reconnections, connectCall := call, log } ∧
      State.Supplied { s with reconnections, connectCall := call, log } := by
  refine ⟨⟨h.running, h.undisturbed, fun cl x hcl hst => ?_, fun hp => ?_, h.slot, h.pooled, h.pool,
    h.known, fun hd => absurd hd hup⟩, fun x hx => (hs x hx).imp_right (Or.imp_left fun hl => ?_)⟩
  · rcases hcall with rfl | ⟨-, -, -, -, hparked⟩
    · exact h.dialed cl x hcl hst
    · cases (hparked cl hcl).symm.trans hst
  · refine (h.awaited hp).imp_right fun ⟨cl, hcl, hst⟩ => ?_
    rcases hcall with rfl | ⟨cl', hcl', hnot, -⟩
    · exact ⟨cl, hcl, hst⟩
    · cases hcl.symm.trans hcl'
      exact absurd hst hnot
  · refine hl.of_eq (fun _ h => h) (fun _ h => h) fun cl y hcl hst => ?_
    rcases hcall with rfl | ⟨cl', hcl', -, hnot, -⟩
    · exact ⟨cl, hcl, hst⟩
    · cases hcl.symm.trans hcl'
      exact absurd hst (hnot y)

/-- `emit('reconnected')` and the other signals of a parked call. -/
theorem emitReconnected_answers (s : State) : ∃ call log,
    s.emitReconnected = { s with connectCall := call, log } ∧ s.Answers call := by
  unfold State.emitReconnected
  dsimp only
  split
  · next hcall => exact ⟨_, _, rfl, .inr ⟨_, hcall, nofun, nofun, nofun⟩⟩
  · exact ⟨_, _, rfl, .inl rfl⟩

theorem abortWaiter_answers (s : State) (error : ConnectError) : ∃ call log,
    s.abortWaiter error = { s with connectCall := call, log } ∧ s.Answers call := by
  rcases abortWaiter_cases s error with ⟨-, h⟩ | ⟨_, _, hcall, h⟩
  · exact ⟨_, _, h, .inl rfl⟩
  · exact ⟨_, _, h, .inr ⟨_, hcall, nofun, nofun, nofun⟩⟩

theorem Kept.connectDialed (h : Kept s) (hs : s.Supplied) {options : ConnectOptions}
    {callers : List Nat} {result : Option Nat}
    (hcall : s.connectCall = some ⟨options, callers, .dialed result⟩) :
    Kept (s.connectDialed options callers result) ∧
      (s.connectDialed options callers result).Supplied := by
  have hup : s.connection.connectionState ≠ .disconnected := fun hd => by
    cases hcall.symm.trans (h.fresh hd).1
  have hawaited : s.connection.connectPromise.isSome → 0 < s.connection.attempts := fun hp => by
    rcases h.awaited hp with hpos | ⟨cl, hcl, hst⟩
    · exact hpos
    · cases hcall.symm.trans hcl
      cases hst
  cases result with
  | some x =>
    have hx : s.connection.connection = some x := h.dialed _ x hcall rfl
    unfold State.connectDialed
    dsimp only
    split
    · next p hp =>
      refine ⟨h.update h.running rfl (fun _ h => h) nofun (fun hp => .inl (hawaited hp))
        fun hd => absurd hd hup, fun y hy => .inl ?_⟩
      exact Option.isSome_iff_exists.mpr ⟨p, hp⟩
    · obtain ⟨hk, hb, restores, nextRestore, restorePromise, heq⟩ := h.restoreState hx
      generalize s.restoreState = r at hk hb heq ⊢
      obtain ⟨s₁, restore⟩ := r
      dsimp only at hk hb heq ⊢
      have hconn : s₁.connection = s.connection := by rw [heq]
      refine ⟨hk.update hk.running rfl (fun _ h => h) nofun (fun hp => .inl ?_) fun hd => ?_,
        fun y hy => ?_⟩
      · rw [hconn] at hp ⊢
        exact hawaited hp
      · exact absurd (hconn ▸ hd) hup
      · cases hx.symm.trans (hconn ▸ hy)
        exact .inr (.inr ⟨restore, hb⟩)
  | none =>
    have hanswers : ∀ call : Option ConnectCall, (∀ cl, call = some cl → cl.stage = .parked) →
        s.Answers call := fun call hparked => .inr ⟨_, hcall, nofun, nofun, hparked⟩
    unfold State.connectDialed
    dsimp only
    split
    · exact h.answers hs hup (hanswers none nofun)
    · split
      · exact h.answers hs hup (hanswers none nofun)
      · exact h.answers hs hup (hanswers _ fun cl hcl => by cases hcl; rfl)

/-- A restore that moves on still serves its connection, or the pool is there. -/
theorem State.Supplied.setRestore (hs : s.Supplied) {restore : Nat} {r : Restore}
    (hr : ∀ c, s.connection.connection = some c → s.Building restore c → s.channelPool.isSome ∨
      r.connection = some c ∧ (r.stage = .opening ∨ r.stage = .exchange ∨ r.stage = .recreating)) :
    (s.setRestore restore r).Supplied := by
  intro x hx
  rcases hs x hx with hp | hl | ⟨restore', hb⟩
  · exact .inl hp
  · exact .inr (.inl hl)
  · by_cases hne : restore = restore'
    · subst hne
      rcases hr x hx hb with hp | ⟨hconn, hst⟩
      · exact .inl hp
      · refine .inr (.inr ⟨restore, r.stage, ?_, hst⟩)
        rw [← hconn]
        exact OrderedMap.get?_set_self _ _ _
    · obtain ⟨st, hget, hst⟩ := hb
      refine .inr (.inr ⟨restore', st, ?_, hst⟩)
      simp only [State.setRestore]
      rw [OrderedMap.get?_set, if_neg (Ne.symm hne)]
      exact hget

/-- A restore whose connection is no longer installed supplies nothing. -/
theorem State.Supplied.setStale (hs : s.Supplied) {restore connection : Nat} {old : RestoreStage}
    (hold : s.restores.get? restore = some ⟨some connection, old⟩)
    (hstale : s.connection.connection ≠ some connection) (r : Restore) :
    (s.setRestore restore r).Supplied := by
  refine hs.setRestore fun x hx ⟨st, hget, _⟩ => ?_
  cases hold.symm.trans hget
  exact absurd hx hstale

theorem Kept.poolInitialized (h : Kept s) (hs : s.Supplied) (c : Config) {restore connection : Nat}
    (hr : s.restores.get? restore = some ⟨some connection, .opening⟩) :
    Kept (s.poolInitialized c restore connection) ∧
      (s.poolInitialized c restore connection).Supplied := by
  unfold State.poolInitialized
  split
  · next hconn =>
    have hpool : Kept { s with channelPool := some ⟨restore, connection⟩ } :=
      ⟨h.running, h.undisturbed, h.dialed, h.awaited, h.slot, fun _ _ _ _ _ _ => rfl,
        fun p hp => by cases hp; exact hconn, h.known, h.fresh⟩
    refine ⟨hpool.setRestore hr (fun _ => ?_) fun _ _ => rfl, fun _ _ => .inl rfl⟩
    cases c.exchange with
    | true => exact .inr (.inl rfl)
    | false => exact .inr (.inr rfl)
  · next hstale =>
    refine ⟨h.setRestore hr (fun hslot => ?_) (by simp), hs.setStale hr hstale _⟩
    obtain ⟨x, hx, st, hget, -⟩ := h.slot restore hslot
    cases hr.symm.trans hget
    exact absurd hx hstale

theorem Steps.kept {event : Event} (H : Steps c s event s')
    (hok : event.Undisturbed ∧ Recoverable s event)
    (h : Kept s) (hs : s.Supplied) : Kept s' ∧ s'.Supplied := by
  have hup : ∀ {call}, s.connectCall = some call →
      s.connection.connectionState ≠ .disconnected := fun hcall hd => by
    cases hcall.symm.trans (h.fresh hd).1
  cases H with
  | connect => exact h.connect hs _ _
  | disconnect => exact hok.1.elim
  | connection hquiet hown H => exact h.connection hs hquiet hown H
  | dialSettles hdial => exact h.dialSettles hs hdial
  | connectDialed hcall => exact h.connectDialed hs hcall
  | connectRestored hcall hr =>
    have hanswers : s.Answers none := .inr ⟨_, hcall, nofun, nofun, nofun⟩
    exact h.answers hs (hup hcall) hanswers
  | connectTimesOut _ hcall htimed =>
    obtain ⟨call, log, heq, hanswers⟩ := abortWaiter_answers s .timedOut
    rw [heq]
    exact h.answers hs (hup hcall) hanswers
  | poolInitialized _ hr => exact h.poolInitialized hs c hr
  | poolFails _ hr =>
    exact ⟨h.settleRestore hr false, hs.setStale hr (hok.2 _ hr) _⟩
  | exchangeAsserted _ hr hlive =>
    refine ⟨h.setRestore hr (fun _ => .inr (.inr rfl)) fun hconn _ => ?_,
      hs.setRestore fun x _ ⟨st, hget, _⟩ => .inr ?_⟩
    · exact h.pooled _ _ _ hconn hr (.inl rfl)
    · cases hr.symm.trans hget
      exact ⟨rfl, .inr (.inr rfl)⟩
  | @exchangeFails restore connection _ hr =>
    have hstale := hok.2 _ hr
    unfold State.exchangeFails
    rw [if_neg fun hp => hstale (h.pool _ hp)]
    exact ⟨h.settleRestore hr false, hs.setStale hr hstale _⟩
  | recreated _ hr =>
    refine ⟨h.settleRestore hr true, hs.setRestore fun x hx ⟨st, hget, _⟩ => .inl ?_⟩
    cases hr.symm.trans hget
    exact h.pooled _ x _ hx hr (.inr rfl)
  | poolClosed _ hr =>
    refine ⟨h.settleRestore hr false, hs.setRestore fun x _ ⟨st, hget, hst⟩ => ?_⟩
    cases hr.symm.trans hget
    simp at hst
  | @reconnectionResumes restore connection ok hr hmem =>
    have hup : s.connection.connectionState ≠ .disconnected := fun hd => by
      rw [(h.fresh hd).2.1] at hmem
      cases hmem
    unfold State.reconnectionRestored
    dsimp only
    split
    · obtain ⟨call, log, heq, hanswers⟩ :=
        emitReconnected_answers { s with reconnections := s.reconnections.erase restore }
      rw [heq]
      exact h.answers hs hup hanswers
    · obtain ⟨call, log, heq, hanswers⟩ := abortWaiter_answers
        (State.emit { s with reconnections := s.reconnections.erase restore } .reconnectError)
        .restoreFailed
      rw [heq]
      exact h.answers hs hup hanswers
  | disposed hcall => cases (h.undisturbed _).symm.trans hcall
  | channelPoolClosed hcall => cases (h.undisturbed _).symm.trans hcall
  | connectionClosed hcall => cases (h.undisturbed _).symm.trans hcall

theorem kept (hr : Reach (step c) (fun s event => event.Undisturbed ∧ Recoverable s event) start s) :
    Kept s ∧ s.Supplied :=
  hr.invariant (I := fun s => Kept s ∧ s.Supplied) ⟨kept_start, nofun⟩
    fun h hok hs => (step_cases hs).kept hok h.1 h.2

/-- Once a `connect` has succeeded and before any `disconnect`, the facade is never stranded, in
every run in which no restore fails on the connection that is still installed. -/
theorem never_stranded
    (hr : Reach (step c) (fun s event => event.Undisturbed ∧ Recoverable s event) start s)
    (he : s.Established) : s.NotStranded :=
  (kept hr).1.notStranded (kept hr).2 he

/-! ## Runs -/

def twoEndpoints : Config := ⟨⟨2, 1000, 30000, none⟩, true⟩

/-- A client comes up, loses its connection and dials again. -/
def redialing : List Event :=
  [.connect 0 ⟨false, none⟩, .connection (.dialSucceeds 0), .dialSettles, .connectResumes,
    .poolInitialized 0 true, .exchangeAsserted 0 true, .recreated 0, .connectResumes,
    .connection (.connectionCloses 0), .connection .timerFires, .connection .dialFails,
    .connection (.dialSucceeds 1), .dialSettles, .connection .attemptResumes]

instance (s : State) : Decidable s.Established :=
  inferInstanceAs (Decidable (∃ o ∈ s.log, _))

/-- The second restore fails because its connection dropped: a timer is armed. -/
theorem never_stranded_run : ∃ s, s.Established ∧ s.NotStranded ∧
    Reach (step twoEndpoints) (fun s event => event.Undisturbed ∧ Recoverable s event) start s := by
  have hrun : (run (step twoEndpoints) (fun s event => event.Undisturbed ∧ Recoverable s event)
      start (redialing ++ [.connection (.connectionCloses 1), .poolInitialized 1 false,
        .reconnectionResumes 1])).any (fun s => decide s.Established) := by decide +kernel
  obtain ⟨s, hs, he⟩ := (Option.any_eq_true _ _).mp hrun
  have he := of_decide_eq_true he
  have hr := reach_of_run hs
  exact ⟨s, he, never_stranded hr he, hr⟩

/-- The second restore fails on a connection that stays up, and nothing will try again. -/
theorem stranded_after_exchange_failure : ∃ s, s.Established ∧ ¬ s.NotStranded ∧
    Reach (step twoEndpoints) (fun _ event => event.Undisturbed) start s := by
  have hrun : (run (step twoEndpoints) (fun _ event => event.Undisturbed) start
      (redialing ++ [.poolInitialized 1 true, .exchangeAsserted 1 false, .poolClosed 1,
        .reconnectionResumes 1])).any (fun s => decide (s.Established ∧ s.channelPool = none ∧
          s.restores.count (fun _ r => !r.stage.isSettled) = 0 ∧
          s.connection.connectPromise = none ∧ s.connection.landed = [] ∧ s.connectCall = none ∧
          s.connection.reconnectTimeout = none ∧ s.connection.connectionState = .connected)) := by
    decide +kernel
  obtain ⟨s, hs, h⟩ := (Option.any_eq_true _ _).mp hrun
  obtain ⟨he, hpool, hrestores, hpromise, hlanded, hcall, htimer, hstate⟩ := of_decide_eq_true h
  refine ⟨s, he, ?_, reach_of_run hs⟩
  rintro (h | ⟨restore, r, hr, hflight⟩ | (h | h | ⟨_, _, h, -⟩) | h | h)
  · simp [hpool] at h
  · have := OrderedMap.count_eq_zero_iff.mp hrestores restore r hr
    simp [hflight] at this
  · simp [hpromise] at h
  · exact h hlanded
  · cases hcall.symm.trans h
  · simp [htimer] at h
  · cases hstate.symm.trans h

end Client
end RabbitMQ

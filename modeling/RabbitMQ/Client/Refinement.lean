import RabbitMQ.Lib.Transition
import RabbitMQ.Connection.Shutdown
import RabbitMQ.Client

/-! The facade drives its connection by the connection's own steps, and passes on what it emits:
every run of the facade is a run of the connection, and shows the application the events of that
run in their order. -/

namespace RabbitMQ

open Transition

namespace Client

open Connection (Emitted)

variable {c : Config} {asked : Bool} {s s' t u : State} {event : Event} {out out' : List Emitted}

/-! ## What is passed on -/

/-- What the facade shows of an event of its connection at once. -/
def passOn : Emitted → Option Output
  | .connected _ => some .connected
  | .disconnected => some .disconnected
  | .reconnectFailed => some .reconnectFailed
  | .connectionStateChanged _ | .reconnected => none

/-- What the facade shows on the word of its connection alone. -/
def Output.relayed : Output → Bool
  | .connected | .reconnectFailed => true
  | _ => false

/-- The end of a recovery, for better or worse. -/
def Output.recovery : Output → Bool
  | .reconnected _ _ | .reconnectError => true
  | _ => false

/-- From one state to the other the facade heard these events and passed them on. -/
structure Relayed (s : State) (out : List Emitted) (t : State) (shown : List Output) : Prop where
  log : t.log = s.log ++ shown
  relayed : shown.filter Output.relayed = (out.filterMap passOn).filter Output.relayed
  inOrder : (out.filterMap passOn).Sublist shown
  recoveries : t.reconnections.length + shown.countP Output.recovery =
    s.reconnections.length + out.count .reconnected

theorem Relayed.trans {shown shown' : List Output} (h : Relayed s out t shown)
    (h' : Relayed t out' u shown') : Relayed s (out ++ out') u (shown ++ shown') := by
  refine ⟨?_, ?_, ?_, ?_⟩
  · rw [h'.log, h.log, List.append_assoc]
  · rw [List.filter_append, List.filterMap_append, List.filter_append, h.relayed, h'.relayed]
  · rw [List.filterMap_append]
    exact h.inOrder.append h'.inOrder
  · have hfirst := h.recoveries
    have hsecond := h'.recoveries
    rw [List.countP_append, List.count_append]
    omega

/-- Nothing was heard, and nothing that sounds like it was shown. -/
theorem relayed_silent {shown : List Output} (hlog : t.log = s.log ++ shown)
    (hreconnections : t.reconnections = s.reconnections)
    (hshown : ∀ o ∈ shown, o.relayed = false ∧ o.recovery = false) : Relayed s [] t shown := by
  refine ⟨hlog, ?_, List.nil_sublist shown, ?_⟩
  · exact List.filter_eq_nil_iff.mpr fun o ho => by simp [(hshown o ho).1]
  · have hnone : shown.countP Output.recovery = 0 :=
      List.countP_eq_zero.mpr fun o ho => by simp [(hshown o ho).2]
    rw [hnone, hreconnections]
    rfl

theorem relayed_refl (h : t.log = s.log) (hreconnections : t.reconnections = s.reconnections) :
    Relayed s [] t [] :=
  relayed_silent (h.trans (List.append_nil s.log).symm) hreconnections fun _ ho => by cases ho

theorem restoreState_log (s : State) : s.restoreState.1.log = s.log ∧
    s.restoreState.1.reconnections = s.reconnections ∧
    s.restoreState.1.connection = s.connection ∧
    s.restoreState.1.disconnects = s.disconnects := by
  obtain ⟨restores, nextRestore, restorePromise, heq⟩ := restoreState_frame s
  rw [heq]
  exact ⟨rfl, rfl, rfl, rfl⟩

/-- A call of `#handleReconnection` is one more recovery to come. -/
theorem handleReconnection_log (s : State) : s.handleReconnection.log = s.log ∧
    s.handleReconnection.reconnections.length = s.reconnections.length + 1 ∧
    s.handleReconnection.connection = s.connection ∧
    s.handleReconnection.disconnects = s.disconnects := by
  obtain ⟨hlog, hreconnections, hconnection, hdisconnects⟩ := restoreState_log s
  unfold State.handleReconnection
  dsimp only
  exact ⟨hlog, congrArg (fun l : List Nat => l.length + 1) hreconnections, hconnection, hdisconnects⟩

/-- A waiter that is aborted says so, and nothing else. -/
theorem abortWaiter_log (s : State) (error : ConnectError) : ∃ shown,
    (s.abortWaiter error).log = s.log ++ shown ∧
    (∀ o ∈ shown, o.relayed = false ∧ o.recovery = false) ∧
    (s.abortWaiter error).reconnections = s.reconnections ∧
    (s.abortWaiter error).connection = s.connection ∧
    (s.abortWaiter error).disconnects = s.disconnects := by
  rcases abortWaiter_cases s error with ⟨-, heq⟩ | ⟨options, callers, -, heq⟩
  · exact ⟨[], by rw [heq, List.append_nil], fun _ ho => (by cases ho), by rw [heq], by rw [heq],
      by rw [heq]⟩
  · rw [heq]
    refine ⟨[.connectRejected callers error], rfl, fun o ho => ?_, rfl, rfl, rfl⟩
    rw [List.mem_singleton.mp ho]
    exact ⟨rfl, rfl⟩

theorem Relayed.abortWaiter {shown : List Output} (h : Relayed s out t shown)
    (error : ConnectError) : ∃ shown, Relayed s out (t.abortWaiter error) shown := by
  obtain ⟨shown', hlog, hshown, hreconnections, -, -⟩ := abortWaiter_log t error
  have h' := h.trans (relayed_silent hlog hreconnections hshown)
  rw [List.append_nil] at h'
  exact ⟨_, h'⟩

/-- A listener passes on what it hears. -/
theorem relayed_react (s : State) (e : Emitted) : ∃ shown, Relayed s [e] (s.react e) shown := by
  cases e with
  | connectionStateChanged state => exact ⟨[], by simp [State.react], rfl, .refl _, rfl⟩
  | connected endpoint => exact ⟨[.connected], rfl, rfl, .refl _, rfl⟩
  | disconnected => exact ⟨[.disconnected], rfl, rfl, .refl _, rfl⟩
  | reconnected =>
    obtain ⟨hlog, hlength, -, -⟩ := handleReconnection_log s
    exact ⟨[], hlog.trans (List.append_nil s.log).symm, rfl, .refl _, hlength⟩
  | reconnectFailed =>
    have h : Relayed s [.reconnectFailed] (s.emit .reconnectFailed) [.reconnectFailed] :=
      ⟨rfl, rfl, .refl _, rfl⟩
    exact h.abortWaiter .attemptsFailed

theorem react_frame (s : State) (e : Emitted) :
    (s.react e).connection = s.connection ∧ (s.react e).disconnects = s.disconnects := by
  cases e with
  | connectionStateChanged state => exact ⟨rfl, rfl⟩
  | connected endpoint => exact ⟨rfl, rfl⟩
  | disconnected => exact ⟨rfl, rfl⟩
  | reconnected => exact (handleReconnection_log s).2.2
  | reconnectFailed =>
    obtain ⟨_, -, -, -, hconnection, hdisconnects⟩ :=
      abortWaiter_log (s.emit .reconnectFailed) .attemptsFailed
    exact ⟨hconnection, hdisconnects⟩

/-- A step of the connection is passed on whole. -/
theorem relayed_absorb (s : State) (r : Connection.State × List Emitted) :
    (∃ shown, Relayed s r.2 (s.absorb r) shown) ∧ (s.absorb r).connection = r.1 ∧
      (s.absorb r).disconnects = s.disconnects := by
  obtain ⟨conn, out⟩ := r
  unfold State.absorb
  dsimp only
  have hfold : ∀ s : State, (∃ shown, Relayed s out (out.foldl State.react s) shown) ∧
      (out.foldl State.react s).connection = s.connection ∧
      (out.foldl State.react s).disconnects = s.disconnects := by
    induction out with
    | nil => exact fun s => ⟨⟨[], relayed_refl rfl rfl⟩, rfl, rfl⟩
    | cons e out ih =>
      intro s
      obtain ⟨shown, hfirst⟩ := relayed_react s e
      obtain ⟨⟨shown', hrest⟩, hconnection, hdisconnects⟩ := ih (s.react e)
      obtain ⟨hconnection', hdisconnects'⟩ := react_frame s e
      exact ⟨⟨_, hfirst.trans hrest⟩, hconnection.trans hconnection',
        hdisconnects.trans hdisconnects'⟩
  obtain ⟨⟨shown, h⟩, hconnection, hdisconnects⟩ := hfold { s with connection := conn }
  exact ⟨⟨shown, h.log, h.relayed, h.inOrder, h.recoveries⟩, hconnection, hdisconnects⟩

/-! ## Every step -/

/-- The closes that the connection awaits are those of calls of `disconnect` that await them. -/
def Awaited (s : State) : Prop :=
  ∀ call connection, s.connection.closing.get? call = some connection →
    ∃ clean, s.disconnects.get? call = some (.closingConnection clean)

theorem Awaited.not_mem (h : Awaited s) {call : Nat}
    (hstage : ∀ clean, s.disconnects.get? call ≠ some (.closingConnection clean)) :
    call ∉ s.connection.closing := by
  intro hmem
  obtain ⟨connection, hget⟩ := OrderedMap.mem_iff.mp hmem
  obtain ⟨clean, hclean⟩ := h call connection hget
  exact hstage clean hclean

theorem Awaited.same (h : Awaited s) (hclosing : t.connection.closing = s.connection.closing)
    (hdisconnects : t.disconnects = s.disconnects) : Awaited t := by
  intro call connection hget
  rw [hclosing] at hget
  rw [hdisconnects]
  exact h call connection hget

/-- A call of `disconnect` that awaits no close of the connection may come, change its stage and
go. -/
theorem Awaited.moved (h : Awaited s) {call : Nat} (hnot : call ∉ s.connection.closing)
    (hclosing : t.connection.closing = s.connection.closing)
    (hdisconnects : ∀ k, k ≠ call → t.disconnects.get? k = s.disconnects.get? k) : Awaited t := by
  intro k connection hget
  rw [hclosing] at hget
  have hne : k ≠ call := by
    rintro rfl
    exact hnot (OrderedMap.mem_of_get? hget)
  rw [hdisconnects k hne]
  exact h k connection hget

/-- A call of `connect`. -/
def Event.isConnect : Event → Bool
  | .connect _ _ => true
  | _ => false

/-- What a step of the facade is to its connection: nothing, or a step of its own, a `connect` only
if the facade was asked to. -/
inductive Drives (c : Config) (asked : Bool) (s s' : State) : Prop
  | idle (hconnection : s'.connection = s.connection) {shown : List Output}
      (h : Relayed s [] s' shown)
  | steps {event : Connection.Event} {out : List Emitted} {shown : List Output}
      (hasked : event = .connect → asked = true)
      (hs : Connection.step c.toConfig s.connection event = some (s'.connection, out))
      (h : Relayed s out s' shown)

theorem drives_absorb (s : State) {r : Connection.State × List Emitted}
    {event : Connection.Event} (hasked : event = .connect → asked = true)
    (hs : Connection.step c.toConfig s.connection event = some r)
    (hclosing : r.1.closing = s.connection.closing) (h : Awaited s) :
    Drives c asked s (s.absorb r) ∧ Awaited (s.absorb r) := by
  obtain ⟨⟨shown, hrelayed⟩, hconnection, hdisconnects⟩ := relayed_absorb s r
  have hstep : Connection.step c.toConfig s.connection event =
      some ((s.absorb r).connection, r.2) := by
    rw [hconnection]
    exact hs
  exact ⟨.steps hasked hstep hrelayed, h.same ((congrArg _ hconnection).trans hclosing) hdisconnects⟩

/-- The end of a call of `disconnect`. -/
theorem relayed_disconnected (s : State) (call : Nat) (clean : Bool) :
    (∃ shown, Relayed s [] (s.disconnected call clean) shown) ∧
      (s.disconnected call clean).connection = s.connection ∧
      (s.disconnected call clean).disconnects = s.disconnects.erase call := by
  unfold State.disconnected
  cases clean with
  | false => exact ⟨⟨[], relayed_refl rfl rfl⟩, rfl, rfl⟩
  | true =>
    refine ⟨⟨[.disconnected], relayed_silent rfl rfl fun o ho => ?_⟩, rfl, rfl⟩
    rw [List.mem_singleton.mp ho]
    exact ⟨rfl, rfl⟩

theorem drives_disconnected (s : State) {call : Nat} {r : Connection.State × List Emitted}
    {event : Connection.Event} (hasked : event = .connect → asked = true)
    (hs : Connection.step c.toConfig s.connection event = some r)
    (hgone : call ∉ r.1.closing)
    (hothers : ∀ k, k ≠ call → r.1.closing.get? k = s.connection.closing.get? k)
    (h : Awaited s) (clean : Bool) :
    Drives c asked s ((s.absorb r).disconnected call clean) ∧
      Awaited ((s.absorb r).disconnected call clean) := by
  obtain ⟨⟨shown, hrelayed⟩, hconnection, hdisconnects⟩ := relayed_absorb s r
  obtain ⟨⟨shown', hend⟩, hconnection', hdisconnects'⟩ :=
    relayed_disconnected (s.absorb r) call clean
  have hlast := hconnection'.trans hconnection
  have hboth := hrelayed.trans hend
  rw [List.append_nil] at hboth
  have hstep : Connection.step c.toConfig s.connection event =
      some (((s.absorb r).disconnected call clean).connection, r.2) := by
    rw [hlast]
    exact hs
  refine ⟨.steps hasked hstep hboth, fun k connection hget => ?_⟩
  · rw [hlast] at hget
    have hne : k ≠ call := by
      rintro rfl
      exact hgone (OrderedMap.mem_of_get? hget)
    rw [hdisconnects', OrderedMap.get?_erase, if_neg hne, hdisconnects]
    exact h k connection ((hothers k hne).symm.trans hget)

/-- `await this.#connection.disconnect()` -/
theorem drives_disconnectConnection (s : State) {call : Nat} (hnot : call ∉ s.connection.closing)
    (h : Awaited s) (clean : Bool) :
    Drives c asked s (s.disconnectConnection call clean) ∧ Awaited (s.disconnectConnection call clean) := by
  have hs : Connection.step c.toConfig s.connection (.disconnect call) =
      some (s.connection.disconnect call) := by
    simp [Connection.step, Connection.Event.external, hnot]
  have hasked : Connection.Event.disconnect call = .connect → asked = true := fun h => by cases h
  have hothers := Connection.disconnect_closing s.connection call
  obtain ⟨⟨shown, hrelayed⟩, hconnection, hdisconnects⟩ :=
    relayed_absorb s (s.connection.disconnect call)
  unfold State.disconnectConnection
  dsimp only
  split
  · have hstep : Connection.step c.toConfig s.connection (.disconnect call) =
        some ((s.absorb (s.connection.disconnect call)).connection,
          (s.connection.disconnect call).2) := by
      rw [hconnection]
      exact hs
    refine ⟨.steps hasked hstep ⟨hrelayed.log, hrelayed.relayed, hrelayed.inOrder, hrelayed.recoveries⟩,
      fun k connection hget => ?_⟩
    dsimp only at hget ⊢
    rw [OrderedMap.get?_set]
    split
    · exact ⟨clean, rfl⟩
    · next hne =>
      rw [hconnection, hothers k hne] at hget
      rw [hdisconnects]
      exact h k connection hget
  · next hgone =>
    rw [hconnection] at hgone
    exact drives_disconnected s hasked hs hgone hothers h clean

theorem Drives.of_eq (h : Drives c asked t s') (hlog : t.log = s.log)
    (hreconnections : t.reconnections = s.reconnections) (hconnection : t.connection = s.connection) :
    Drives c asked s s' := by
  cases h with
  | idle hsame hrelayed =>
    refine .idle (hsame.trans hconnection) ⟨?_, hrelayed.relayed, hrelayed.inOrder, ?_⟩
    · rw [← hlog]
      exact hrelayed.log
    · rw [← hreconnections]
      exact hrelayed.recoveries
  | steps hasked hs hrelayed =>
    rw [hconnection] at hs
    refine .steps hasked hs ⟨?_, hrelayed.relayed, hrelayed.inOrder, ?_⟩
    · rw [← hlog]
      exact hrelayed.log
    · rw [← hreconnections]
      exact hrelayed.recoveries

/-- The facade does something of its own, and says nothing that its connection says. -/
theorem drives_idle (shown : List Output) (hconnection : s'.connection = s.connection)
    (hdisconnects : s'.disconnects = s.disconnects) (hlog : s'.log = s.log ++ shown)
    (hreconnections : s'.reconnections = s.reconnections)
    (hshown : ∀ o ∈ shown, o.relayed = false ∧ o.recovery = false) (h : Awaited s) :
    Drives c asked s s' ∧ Awaited s' :=
  ⟨.idle hconnection (relayed_silent hlog hreconnections hshown),
    h.same (congrArg _ hconnection) hdisconnects⟩

/-- A restore is told of, or settles, behind the scenes. -/
theorem drives_still (hconnection : s'.connection = s.connection)
    (hdisconnects : s'.disconnects = s.disconnects) (hlog : s'.log = s.log)
    (hreconnections : s'.reconnections = s.reconnections) (h : Awaited s) :
    Drives c asked s s' ∧ Awaited s' :=
  drives_idle [] hconnection hdisconnects (hlog.trans (List.append_nil s.log).symm) hreconnections
    (fun _ ho => by cases ho) h

/-- `this.emit('reconnected')` reports one recovery. -/
theorem emitReconnected_log (s : State) : ∃ shown, s.emitReconnected.log = s.log ++ shown ∧
    shown.filter Output.relayed = [] ∧ shown.countP Output.recovery = 1 ∧
    s.emitReconnected.reconnections = s.reconnections ∧
    s.emitReconnected.connection = s.connection ∧
    s.emitReconnected.disconnects = s.disconnects := by
  unfold State.emitReconnected
  dsimp only [State.emit]
  split
  · next options callers hcall =>
    exact ⟨[.reconnected s.connection.connection s.channelPool,
      .resumed callers s.connection.connection s.channelPool], List.append_assoc _ _ _, rfl, rfl, rfl,
      rfl, rfl⟩
  · exact ⟨[.reconnected s.connection.connection s.channelPool], rfl, rfl, rfl, rfl, rfl, rfl⟩

/-- One recovery is over, and the facade says how. -/
theorem drives_reconnectionRestored (s : State) {restore : Nat} (hmem : restore ∈ s.reconnections)
    (ok : Bool) (h : Awaited s) :
    Drives c asked s (s.reconnectionRestored restore ok) ∧ Awaited (s.reconnectionRestored restore ok) := by
  have hlength : (s.reconnections.erase restore).length + 1 = s.reconnections.length := by
    have hpos := List.length_pos_of_mem hmem
    rw [List.length_erase_of_mem hmem]
    omega
  cases ok with
  | true =>
    obtain ⟨shown, hlog, hrelayed, hrecovery, hreconnections, hconnection, hdisconnects⟩ :=
      emitReconnected_log { s with reconnections := s.reconnections.erase restore }
    refine ⟨.idle hconnection ⟨hlog, hrelayed, List.nil_sublist shown, ?_⟩,
      h.same (congrArg _ hconnection) hdisconnects⟩
    rw [hrecovery]
    exact (congrArg (fun l : List Nat => l.length + 1) hreconnections).trans hlength
  | false =>
    have hfirst : Relayed s [] (State.emit { s with reconnections := s.reconnections.erase restore }
        .reconnectError) [.reconnectError] := ⟨rfl, rfl, List.nil_sublist _, hlength⟩
    obtain ⟨shown, hrelayed⟩ := hfirst.abortWaiter .restoreFailed
    obtain ⟨_, -, -, -, hconnection, hdisconnects⟩ := abortWaiter_log
      (State.emit { s with reconnections := s.reconnections.erase restore } .reconnectError)
      .restoreFailed
    exact ⟨.idle hconnection hrelayed, h.same (congrArg _ hconnection) hdisconnects⟩

/-- `#doConnect` after the dial. -/
theorem drives_connectDialed (s : State) (options : ConnectOptions) (callers : List Nat)
    (result : Option Nat) (h : Awaited s) :
    Drives c asked s (s.connectDialed options callers result) ∧
      Awaited (s.connectDialed options callers result) := by
  have hone : ∀ {o : Output}, o.relayed = false ∧ o.recovery = false →
      ∀ o' ∈ [o], o'.relayed = false ∧ o'.recovery = false := by
    intro o ho o' hmem
    rw [List.mem_singleton.mp hmem]
    exact ho
  unfold State.connectDialed
  cases result with
  | some connection =>
    dsimp only
    split
    · exact drives_idle [.connectResolved callers (some connection)] rfl rfl rfl rfl
        (hone ⟨rfl, rfl⟩) h
    · obtain ⟨hlog, hreconnections, hconnection, hdisconnects⟩ := restoreState_log s
      exact drives_still hconnection hdisconnects hlog hreconnections h
  | none =>
    dsimp only
    split
    · exact drives_idle [.connectResolved callers none] rfl rfl rfl rfl
        (hone ⟨rfl, rfl⟩) h
    · split
      · exact drives_idle [.connectRejected callers .attemptsFailed] rfl rfl rfl rfl
          (hone ⟨rfl, rfl⟩) h
      · exact drives_still rfl rfl rfl rfl h

theorem step_connection {event : Connection.Event}
    (hs : step c s (.connection event) = some s') : ∃ r,
      Connection.step c.toConfig s.connection event = some r ∧ s' = s.absorb r := by
  unfold step at hs
  split at hs
  · cases hs
  · cases event with
    | connect | disconnect | dialSettles | disconnectCloses => cases hs
    | dialSucceeds | dialFails | discarded | attemptResumes | timerFires | connectionCloses =>
      obtain ⟨r, hr, rfl⟩ := Option.map_eq_some_iff.mp hs
      exact ⟨r, hr, rfl⟩

theorem Steps.drives (hs : step c s event = some s') (h : Awaited s) :
    Drives c event.isConnect s s' ∧ Awaited s' := by
  cases step_cases hs with
  | @connect caller options =>
    unfold State.connect
    split
    · exact drives_still rfl rfl rfl rfl h
    · have hstep : Connection.step c.toConfig s.connection .connect = some s.connection.connect := rfl
      obtain ⟨hdrives, hawaits⟩ := drives_absorb
        { s with connectCall := some ⟨options, [caller], .dialing⟩ } (fun _ => rfl) hstep
        (Connection.connect_cases s.connection).closing (h.same rfl rfl)
      exact ⟨hdrives.of_eq rfl rfl rfl, hawaits⟩
  | @disconnect call hfresh =>
    obtain ⟨shown, hlog, hshown, hreconnections, hconnection, hdisconnects⟩ :=
      abortWaiter_log (s.emit .disconnecting) .aborted
    have hnot : call ∉ s.connection.closing :=
      h.not_mem fun clean hget => hfresh (OrderedMap.mem_of_get? hget)
    have hsilent : ∀ o ∈ Output.disconnecting :: shown, o.relayed = false ∧ o.recovery = false := by
      intro o ho
      rcases List.mem_cons.mp ho with rfl | ho
      · exact ⟨rfl, rfl⟩
      · exact hshown o ho
    refine ⟨.idle hconnection (relayed_silent (hlog.trans (List.append_assoc _ _ _)) hreconnections
      hsilent), h.moved hnot (congrArg _ hconnection) fun k hne => ?_⟩
    dsimp only [State.disconnect]
    rw [hdisconnects, OrderedMap.get?_set, if_neg hne]
    rfl
  | @connection event r hquiet hown hsteps =>
    obtain ⟨r', hr', heq⟩ := step_connection hs
    rw [heq]
    refine drives_absorb s (fun heq => absurd heq hown.1) hr' ?_ h
    exact (Connection.step_cases hr').closing hown.2.1 hown.2.2.2
  | @dialSettles result hdial =>
    have hstep : Connection.step c.toConfig s.connection .dialSettles =
        some ((s.dialSettles result).connection, []) := by
      simp [Connection.step, Connection.Event.external, hdial, State.dialSettles]
    exact ⟨.steps (fun h => by cases h) hstep (relayed_refl rfl rfl), h.same rfl rfl⟩
  | connectDialed hcall => exact drives_connectDialed s _ _ _ h
  | @connectRestored _ callers _ connection _ ok hcall hr =>
    refine drives_idle _ rfl rfl rfl rfl (fun o ho => ?_) h
    rw [List.mem_singleton.mp ho]
    cases ok <;> exact ⟨rfl, rfl⟩
  | connectTimesOut hquiet hcall htimed =>
    obtain ⟨shown, hlog, hshown, hreconnections, hconnection, hdisconnects⟩ :=
      abortWaiter_log s .timedOut
    exact drives_idle shown hconnection hdisconnects hlog hreconnections hshown h
  | poolInitialized hquiet hr =>
    unfold State.poolInitialized
    split
    · exact drives_still rfl rfl rfl rfl h
    · exact drives_still rfl rfl rfl rfl h
  | poolFails hquiet hr => exact drives_still rfl rfl rfl rfl h
  | exchangeAsserted hquiet hr hlive => exact drives_still rfl rfl rfl rfl h
  | exchangeFails hquiet hr =>
    unfold State.exchangeFails
    split
    · exact drives_still rfl rfl rfl rfl h
    · exact drives_still rfl rfl rfl rfl h
  | recreated hquiet hr => exact drives_still rfl rfl rfl rfl h
  | poolClosed hquiet hr => exact drives_still rfl rfl rfl rfl h
  | reconnectionResumes hr hmem => exact drives_reconnectionRestored s hmem _ h
  | @disposed call throws hcall =>
    have hnot : call ∉ s.connection.closing := h.not_mem fun clean hget => by
      cases hcall.symm.trans hget
    unfold State.disposed
    split
    · exact drives_disconnectConnection s hnot h false
    · split
      · refine ⟨.idle rfl (relayed_refl rfl rfl), h.moved hnot rfl fun k hne => ?_⟩
        dsimp only
        rw [OrderedMap.get?_set, if_neg hne]
      · exact drives_disconnectConnection s hnot h true
  | @channelPoolClosed call hcall =>
    have hnot : call ∉ s.connection.closing := h.not_mem fun clean hget => by
      cases hcall.symm.trans hget
    obtain ⟨hdrives, hawaits⟩ := drives_disconnectConnection (c := c)
      { s with channelPool := none } hnot (h.same rfl rfl) true
    exact ⟨hdrives.of_eq rfl rfl rfl, hawaits⟩
  | @connectionClosed call clean connection hcall hclosing =>
    have hcloses : Connection.step c.toConfig s.connection (.disconnectCloses call) =
        some (s.connection.disconnectCloses call connection) := by
      simp [Connection.step, Connection.Event.external, hclosing]
    have herased := Connection.disconnectCloses_closing s.connection call connection
    refine drives_disconnected s (fun h => by cases h) hcloses ?_ (fun k hne => ?_) h clean
    · rw [herased]
      exact fun hmem => (OrderedMap.mem_erase.mp hmem).1 rfl
    · rw [herased, OrderedMap.get?_erase, if_neg hne]

/-! ## Every run -/

/-- The connection of the facade, with what it has emitted so far. -/
structure Follows (s : State) (w : Connection.State × List Emitted) : Prop where
  connection : w.1 = s.connection
  awaits : Awaited s
  relayed : ∃ shown, Relayed start w.2 s shown

theorem follows_start : Follows start (Connection.start, []) :=
  ⟨rfl, fun _ _ hget => (by cases hget), [], relayed_refl rfl rfl⟩

theorem Follows.step {w : Connection.State × List Emitted} (h : Follows s w)
    (hs : step c s event = some s') : Follows s' w ∨ ∃ event w',
      logged (Connection.step c.toConfig) w event = some w' ∧ Follows s' w' := by
  obtain ⟨shown, hrelayed⟩ := h.relayed
  obtain ⟨hdrives, hawaits⟩ := Steps.drives hs h.awaits
  cases hdrives with
  | idle hconnection hsilent =>
    have hall := hrelayed.trans hsilent
    rw [List.append_nil] at hall
    exact .inl ⟨h.connection.trans hconnection.symm, hawaits, _, hall⟩
  | @steps event out shown' hasked hstep hpassed =>
    refine .inr ⟨event, (s'.connection, w.2 ++ out), ?_, rfl, hawaits, _, hrelayed.trans hpassed⟩
    rw [logged, h.connection, hstep]
    rfl

/-- Every run of the facade is a run of its connection. What the connection emitted in it the
facade has shown in that order, 'connected' and 'reconnectFailed' at no other time, and each
'reconnected' has come to an end, for better or worse, or is being restored. -/
theorem facade_refines_connection {ok : State → Event → Prop} (hr : Reach (step c) ok start s) :
    ∃ out, Reach (logged (Connection.step c.toConfig)) anyStep (Connection.start, [])
        (s.connection, out) ∧
      s.log.filter Output.relayed = (out.filterMap passOn).filter Output.relayed ∧
      (out.filterMap passOn).Sublist s.log ∧
      s.reconnections.length + s.log.countP Output.recovery = out.count .reconnected := by
  have hsim : ∃ w, Reach (logged (Connection.step c.toConfig)) anyStep (Connection.start, []) w ∧
      Follows s w := hr.simulate follows_start fun {s w s' event} h _ hs => by
    rcases h.step hs with hstays | ⟨event', w', hstep, h'⟩
    · exact .inl hstays
    · exact .inr ⟨event', w', trivial, hstep, h'⟩
  obtain ⟨⟨conn, out⟩, hreach, hsame, -, shown, hrelayed⟩ := hsim
  have hsame : conn = s.connection := hsame
  subst hsame
  have hlog : s.log = shown := hrelayed.log
  subst hlog
  have hcount := hrelayed.recoveries
  rw [start, List.length_nil, Nat.zero_add] at hcount
  exact ⟨out, hreach, hrelayed.relayed, hrelayed.inOrder, hcount⟩

def oneRetry : Config := ⟨⟨1, 1000, 30000, some 1⟩, false⟩

/-- The connection is lost and comes back, is lost again, and is given up. -/
theorem facade_refines_connection_lost : ∃ (s : State) (out : List Emitted),
    s.log.filter Output.relayed = [.connected, .connected, .reconnectFailed] ∧
    (out.filterMap passOn).filter Output.relayed = [.connected, .connected, .reconnectFailed] ∧
    s.log.countP Output.recovery = 1 ∧ out.count .reconnected = 1 := by
  have hrun : (run (step oneRetry) anyStep start [.connect 0 ⟨true, none⟩,
      .connection (.dialSucceeds 0), .dialSettles, .connectResumes, .poolInitialized 0 true,
      .recreated 0, .connectResumes, .connection (.connectionCloses 0), .connection .timerFires,
      .connection (.dialSucceeds 1), .dialSettles, .connection .attemptResumes,
      .poolInitialized 1 true, .recreated 1, .reconnectionResumes 1,
      .connection (.connectionCloses 1), .connection .timerFires, .connection .dialFails]).any
        (fun s => decide (s.log.filter Output.relayed = [.connected, .connected, .reconnectFailed] ∧
          s.log.countP Output.recovery = 1 ∧ s.reconnections = [])) := by
    decide +kernel
  obtain ⟨s, hs, h⟩ := (Option.any_eq_true _ _).mp hrun
  obtain ⟨hlog, hcount, hdone⟩ := of_decide_eq_true h
  obtain ⟨out, -, hrelayed, -, hrecoveries⟩ := facade_refines_connection (reach_of_run hs)
  rw [hdone, hcount] at hrecoveries
  exact ⟨s, out, hlog, hrelayed.symm.trans hlog, hcount, hrecoveries.symm⟩

end Client
end RabbitMQ

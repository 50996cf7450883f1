import RabbitMQ.Client.Shutdown

/-! `enableGracefulShutdown`: a signal begins a `disconnect`, and the process exits when one of them
is over. -/

namespace RabbitMQ
namespace GracefulShutdown

open Transition
open Client (Unasked)

inductive Signal where
  | sigint
  | sigterm
  | other (number : Nat)
  deriving DecidableEq

structure Options where
  signals : List Signal
  exitProcess : Bool

def Options.default : Options := ⟨[.sigint, .sigterm], true⟩

inductive Ending where
  /-- `process.exit(0)` -/
  | exited
  /-- by a signal that nobody listens for -/
  | killed (signal : Signal)
  deriving DecidableEq

structure State where
  client : Client.State
  /-- `#shutdownHandlersInstalled`, with the options they were installed with -/
  shutdownHandlersInstalled : Option Options
  /-- the signals that `process.once` still listens for -/
  listeners : List Signal
  /-- the calls of `disconnect` that signals began -/
  shutdowns : List Nat
  ending : Option Ending

def start : State := ⟨Client.start, none, [], [], none⟩

namespace State

def enableGracefulShutdown (s : State) (options : Options) : State :=
  match s.shutdownHandlersInstalled with
  | some _ => s
  | none => { s with shutdownHandlersInstalled := some options, listeners := options.signals }

/-- `gracefulShutdown` after its await. -/
def disconnected (s : State) : State :=
  if s.shutdownHandlersInstalled.any (·.exitProcess) then { s with ending := some .exited } else s

end State

inductive Event where
  | enableGracefulShutdown (options : Options)
  /-- a signal, with the calls of `disconnect` that its listeners make -/
  | signal (signal : Signal) (calls : List Nat)
  | disconnected (call : Nat)
  | killed (signal : Signal)
  /-- whatever else the client does -/
  | client (event : Client.Event)

/-- The calls of `disconnect` that the listeners of one signal make, one after the other. -/
def disconnects (c : Client.Config) (client : Client.State) (calls : List Nat) :
    Option Client.State :=
  calls.foldlM (fun client call => Client.step c client (.disconnect call)) client

def step (c : Client.Config) (s : State) (event : Event) : Option State :=
  if s.ending.isSome then none else
  match event with
  | .enableGracefulShutdown options => some (s.enableGracefulShutdown options)
  | .signal signal calls =>
    if signal ∈ s.listeners ∧ calls.length = s.listeners.count signal ∧
        ∀ call ∈ calls, call ∉ s.shutdowns then
      (disconnects c s.client calls).map fun client => { s with
        client
        -- each listener removes itself as it is called
        listeners := s.listeners.filter (· ≠ signal)
        shutdowns := s.shutdowns ++ calls }
    else none
  | .disconnected call =>
    if call ∈ s.shutdowns ∧ call ∉ s.client.disconnects then some s.disconnected else none
  | .killed signal =>
    if signal ∈ s.listeners then none else some { s with ending := some (.killed signal) }
  | .client event =>
    if s.shutdowns.any fun call => event = .disconnect call then none
    else (Client.step c s.client event).map fun client => { s with client }

variable {c : Client.Config} {s s' : State} {event : Event}

/-- Nobody calls `connect` any more once a signal came. -/
def InTime (s : State) : Event → Prop
  | .client event => s.shutdowns = [] ∨ event.isConnect = false
  | .enableGracefulShutdown _ | .signal _ _ | .disconnected _ | .killed _ => True

instance (s : State) (event : Event) : Decidable (InTime s event) :=
  match event with
  | .client event => inferInstanceAs (Decidable (s.shutdowns = [] ∨ event.isConnect = false))
  | .enableGracefulShutdown _ | .signal _ _ | .disconnected _ | .killed _ => instDecidableTrue

/-! ## The calls of one signal -/

theorem disconnects_cons {client client' : Client.State} {call : Nat} {calls : List Nat}
    (h : disconnects c client (call :: calls) = some client') : ∃ client₁,
      Client.step c client (.disconnect call) = some client₁ ∧
        disconnects c client₁ calls = some client' := by
  unfold disconnects at h ⊢
  rw [List.foldlM_cons] at h
  exact Option.bind_eq_some_iff.mp h

/-- Each of them is on its way, and so is what was on its way before. -/
theorem reaching_of_disconnects {client client' : Client.State} {calls : List Nat}
    (hbacked : Client.Backed client) (h : disconnects c client calls = some client') :
    Client.Backed client' ∧ (∀ call, client.Reaching call → client'.Reaching call) ∧
      ∀ call ∈ calls, client'.Reaching call := by
  induction calls generalizing client with
  | nil =>
    cases h
    exact ⟨hbacked, fun _ hr => hr, fun _ hmem => by cases hmem⟩
  | cons call calls ih =>
    obtain ⟨client₁, hs, hrest⟩ := disconnects_cons h
    obtain ⟨hbacked', hkept, hnew⟩ := ih (hbacked.step hs) hrest
    have hasked : Unasked client (.disconnect call) := rfl
    refine ⟨hbacked', fun other hr => hkept other (hbacked.reaching hr hasked hs),
      fun other hmem => ?_⟩
    rcases List.mem_cons.mp hmem with rfl | hmem
    · exact hkept _ (Client.reaching_of_disconnect hs)
    · exact hnew other hmem

/-! ## Every run -/

structure Sound (s : State) : Prop where
  backed : Client.Backed s.client
  reaching : ∀ call ∈ s.shutdowns, s.client.Reaching call
  /-- each listener begins one shutdown -/
  once : ∀ options, s.shutdownHandlersInstalled = some options →
    s.shutdowns.length + s.listeners.length = options.signals.length
  uninstalled : s.shutdownHandlersInstalled = none → s.shutdowns = [] ∧ s.listeners = []
  exited : s.ending = some .exited → s.shutdownHandlersInstalled.any (·.exitProcess) ∧
    s.client.connection.isShuttingDown = true

theorem sound_start : Sound start :=
  ⟨Client.backed_start, fun _ h => (by cases h), fun _ h => (by cases h), fun _ => ⟨rfl, rfl⟩,
    fun h => by cases h⟩

theorem length_filter_ne (signals : List Signal) (signal : Signal) :
    signals.count signal + (signals.filter (· ≠ signal)).length = signals.length := by
  have hsplit := List.length_eq_countP_add_countP (· == signal) (l := signals)
  have hothers : (signals.filter (· ≠ signal)).length = signals.countP fun other => ¬(other == signal) := by
    rw [List.countP_eq_length_filter]
    simp
  rw [hothers, hsplit]
  rfl

theorem Sound.step (h : Sound s) (hok : InTime s event) (hs : step c s event = some s') :
    Sound s' := by
  unfold GracefulShutdown.step at hs
  split at hs
  · cases hs
  · next hrunning =>
    have hgoing : s.ending = none := by simpa using hrunning
    have hnot : s.ending ≠ some .exited := by
      rw [hgoing]
      exact fun heq => by cases heq
    cases event with
    | enableGracefulShutdown options =>
      cases hs
      unfold State.enableGracefulShutdown
      split
      · exact h
      · next hnone =>
        obtain ⟨hshutdowns, -⟩ := h.uninstalled hnone
        refine ⟨h.backed, h.reaching, fun options' heq => ?_, fun heq => ?_, fun heq => ?_⟩
        · cases heq
          rw [hshutdowns]
          exact Nat.zero_add _
        · cases heq
        · exact absurd heq hnot
    | signal signal calls =>
      dsimp only at hs
      split at hs
      · next hheard =>
        obtain ⟨hmem, hlength, -⟩ := hheard
        obtain ⟨client, hclient, rfl⟩ := Option.map_eq_some_iff.mp hs
        obtain ⟨hbacked, hkept, hnew⟩ := reaching_of_disconnects h.backed hclient
        refine ⟨hbacked, fun call hcall => ?_, fun options heq => ?_, fun heq => ?_, fun heq => ?_⟩
        · rcases List.mem_append.mp hcall with hcall | hcall
          · exact hkept call (h.reaching call hcall)
          · exact hnew call hcall
        · have honce := h.once options heq
          have hfilter := length_filter_ne s.listeners signal
          dsimp only
          rw [List.length_append]
          omega
        · rw [(h.uninstalled heq).2] at hmem
          cases hmem
        · exact absurd heq hnot
      · cases hs
    | disconnected call =>
      dsimp only at hs
      split at hs
      · next hover =>
        cases hs
        unfold State.disconnected
        split
        · next hexits =>
          refine ⟨h.backed, h.reaching, h.once, h.uninstalled, fun _ => ⟨hexits, ?_⟩⟩
          exact (h.reaching call hover.1).down hover.2
        · exact h
      · cases hs
    | killed signal =>
      dsimp only at hs
      split at hs
      · cases hs
      · cases hs
        exact ⟨h.backed, h.reaching, h.once, h.uninstalled, fun heq => by cases heq⟩
    | client event =>
      dsimp only at hs
      split at hs
      · cases hs
      · obtain ⟨client, hclient, rfl⟩ := Option.map_eq_some_iff.mp hs
        refine ⟨h.backed.step hclient, fun call hcall => ?_, h.once, h.uninstalled,
          fun heq => absurd heq hnot⟩
        rcases hok with hnone | hasked
        · dsimp only at hcall
          rw [hnone] at hcall
          cases hcall
        · exact h.backed.reaching (h.reaching call hcall) hasked hclient

/-- Each listener that `enableGracefulShutdown` installed begins one `disconnect` at most, and the
process exits by itself only if it was asked to, and only with the client shut down: no timer is
armed, and a connection it still holds is one that another `disconnect` is closing. -/
theorem exits_shut_down (hr : Reach (step c) InTime start s) :
    (∀ options, s.shutdownHandlersInstalled = some options →
      s.shutdowns.length + s.listeners.length = options.signals.length) ∧
    (s.ending = some .exited → s.shutdownHandlersInstalled.any (·.exitProcess) ∧
      s.client.connection.isShuttingDown = true ∧ s.client.connection.reconnectTimeout = none ∧
      s.client.connection.connectionState ≠ .connected ∧
      (s.client.connection.connection.isSome → ∃ call clean,
        s.client.disconnects.get? call = some (.closingConnection clean))) := by
  have h : Sound s := hr.invariant sound_start fun h hok hs => h.step hok hs
  refine ⟨h.once, fun hexited => ?_⟩
  obtain ⟨hasked, hdown⟩ := h.exited hexited
  exact ⟨hasked, hdown, h.backed.stopped.unarmed hdown, h.backed.stopped.down hdown,
    h.backed.held hdown⟩

/-- The second signal comes while the first one's `disconnect` awaits the close, and its own call
is over before that. -/
theorem exits_shut_down_twice : ∃ s : State,
    s.ending = some .exited ∧ s.shutdowns = [0, 1] ∧ s.listeners = [] ∧
    s.client.disconnects.get? 0 = some (.closingConnection true) ∧
    s.client.connection.isShuttingDown = true ∧ s.client.connection.reconnectTimeout = none := by
  have hrun : (run (step Client.oneRetry) InTime start [.enableGracefulShutdown .default,
      .client (.connect 0 ⟨false, none⟩), .client (.connection (.dialSucceeds 0)),
      .client .dialSettles, .client .connectResumes, .client (.poolInitialized 0 true),
      .client (.recreated 0), .client .connectResumes, .signal .sigint [0],
      .client (.disposed 0 false), .client (.channelPoolClosed 0), .signal .sigterm [1],
      .client (.disposed 1 false), .client (.connectionClosed 1), .disconnected 1]).any
        (fun s => decide (s.ending = some .exited ∧ s.shutdowns = [0, 1] ∧ s.listeners = [] ∧
          s.client.disconnects.get? 0 = some (.closingConnection true))) := by
    decide +kernel
  obtain ⟨s, hs, hholds⟩ := (Option.any_eq_true _ _).mp hrun
  obtain ⟨hending, hshutdowns, hlisteners, hclosing⟩ := of_decide_eq_true hholds
  obtain ⟨-, hexited⟩ := exits_shut_down (reach_of_run hs)
  obtain ⟨-, hdown, htimer, -, -⟩ := hexited hending
  exact ⟨s, hending, hshutdowns, hlisteners, hclosing, hdown, htimer⟩

end GracefulShutdown
end RabbitMQ

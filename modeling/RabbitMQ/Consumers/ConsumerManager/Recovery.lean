import RabbitMQ.Consumers.ConsumerManager.Registry

/-! A recovery loop acts on the pool that it started with, as long as that pool is not replaced
while the drop of its consumer drains.

The ownership of the pool is tested before the drop waits for the handlers in flight, and not again
before the consumer is removed. -/

namespace RabbitMQ
namespace ConsumerManager

open Transition State

variable {s t : State} {event : Event} {d l : Nat}

def Cause.isRecovery : Cause → Bool
  | .recovery _ => true
  | _ => false

/-- The pool that was installed when a loop started. -/
def State.ownedPool (s : State) (l : Nat) : Option (Option Nat) := s.loops[l]?.map (·.ownedPool)

/-- A loop acts on the pool that it started with, and on no consumer that a newer pool restored. -/
structure Fenced (s : State) : Prop where
  /-- A loop runs the setup while its pool is installed. -/
  setups : ∀ setup ∈ s.setups, ∀ l, setup.caller = .recovery l →
    s.ownedPool l = some setup.pool
  /-- A loop removes its consumer while its pool is installed. -/
  removals : ∀ removal ∈ s.removals, ∀ l, removal.cause = .recovery l →
    s.ownedPool l = some removal.pool
  /-- A consumer is not dropped by a loop when a newer pool restored it. -/
  restored : ∀ drop ∈ s.drops, ∀ l, drop.cause = .recovery l → ∀ setup ∈ s.setups,
    setup.consumer = drop.consumer → setup.caller = .recreation → ∀ pool newer,
    s.ownedPool l = some (some pool) → setup.pool = some newer → newer ≤ pool
  /-- A consumer is reported as lost by a loop that dropped it. -/
  lost : ∀ consumer, .consumerLost consumer ∈ s.emitted → ∃ drop ∈ s.drops,
    drop.consumer = consumer ∧ drop.cause.isRecovery

/-- The event installs a pool, or takes away the pool that is installed. -/
def changesPool (s : State) : Event → Bool
  | .poolInstalled | .restoreFails | .poolClosed => true
  | .connectionLost => s.channelPool.isSome
  | _ => false

/-- The pool is not changed while a loop waits for the handlers of a consumer that it is about to
remove. -/
def Steady (s : State) (event : Event) : Prop :=
  changesPool s event → ∀ drop ∈ s.drops, drop.stage.waits → drop.cause.isRecovery →
    drop.consumer ∉ s.activeConsumers

instance : Decidable (Steady s event) :=
  inferInstanceAs (Decidable (_ → ∀ drop ∈ s.drops, _ → _ → _))

theorem Steps.channelPool_of_not_changes (h : Steps s event t) (hchanges : ¬ changesPool s event) :
    t.channelPool = s.channelPool := by
  cases h with
  | poolInstalled | restoreFails | poolClosed => exact absurd rfl hchanges
  | connectionLost => exact (Option.not_isSome_iff_eq_none.mp hchanges).symm
  | _ =>
    simp [setLoop, setDrop, setSetup, modifyConsumer, State.channelOpened, State.consumeOk,
      tryAgain]

theorem Steps.ownedPool (h : Steps s event t) {pool : Option Nat}
    (howned : s.ownedPool l = some pool) : t.ownedPool l = some pool := by
  obtain ⟨loop, hl, rfl⟩ := Option.map_eq_some_iff.mp howned
  obtain ⟨loop', hl', _, heq⟩ := h.loop_kept hl
  rw [State.ownedPool, hl', Option.map_some, heq]

/-- A loop that is about to remove its consumer started with the pool that is installed. -/
structure Owning (s : State) : Prop where
  loops : ∀ {d : Nat} {drop : Drop} {l : Nat}, s.drops[d]? = some drop →
    drop.cause = .recovery l → ∃ pool, s.ownedPool l = some pool
  waiting : ∀ {d : Nat} {drop : Drop} {l : Nat}, s.drops[d]? = some drop →
    drop.cause = .recovery l → drop.stage.waits → drop.consumer ∈ s.activeConsumers →
    s.ownedPool l = some s.channelPool

/-- A drop that waits has waited since it began. -/
theorem DropCases.waits {drop' : Drop} (h : DropCases s t d drop') (hwaits : drop'.stage.waits) :
    (∃ drop, s.drops[d]? = some drop ∧ drop'.consumer = drop.consumer ∧
      drop'.cause = drop.cause ∧ drop.stage.waits) ∨ Dropping s t drop' := by
  cases h with
  | same hd => exact .inl ⟨drop', hd, rfl, rfl, hwaits⟩
  | @drained drop hd hstage heq =>
    refine .inl ⟨drop, hd, ?_⟩
    rw [heq, hstage]
    exact ⟨rfl, rfl, rfl⟩
  | removes _ _ heq | releases _ _ heq | done _ _ heq =>
    rw [heq] at hwaits
    cases hwaits
  | begins _ _ hdropping => exact .inr hdropping

theorem ownedPool_of_loop {loop : Loop} (hl : s.loops[l]? = some loop) :
    s.ownedPool l = some loop.ownedPool := by
  rw [State.ownedPool, hl, Option.map_some]

theorem Owning.step (h : Owning s) (hreg : Registered s) (hok : Steady s event)
    (hsteps : Steps s event t) : Owning t where
  loops := by
    intro d drop l hd hcause
    rcases (hsteps.drops hd).origin with ⟨drop₀, hd₀, _, heq⟩ | ⟨_, _, hdropping⟩
    · obtain ⟨pool, howned⟩ := h.loops hd₀ (heq ▸ hcause)
      exact ⟨pool, hsteps.ownedPool howned⟩
    · cases hdropping with
      | subscribe hcause' => cases hcause.symm.trans hcause'
      | recovery hcause' hl =>
        cases hcause.symm.trans hcause'
        exact ⟨_, hsteps.ownedPool (ownedPool_of_loop hl)⟩
      | unsubscribe hcause' => cases hcause.symm.trans hcause'
  waiting := by
    intro d drop l hd hcause hwaits hactive
    rcases (hsteps.drops hd).waits hwaits with ⟨drop₀, hd₀, hconsumer, heq, hwaits₀⟩ | hdropping
    · rw [hconsumer] at hactive
      rw [heq] at hcause
      have hactive₀ : drop₀.consumer ∈ s.activeConsumers := by
        by_contra hgone
        exact hsteps.stays_removed (hreg.drops hd₀) hgone hactive
      have hsame : ¬ changesPool s event := by
        intro hchanges
        have hrecovery : drop₀.cause.isRecovery := by rw [hcause]; rfl
        exact hok hchanges drop₀ (List.mem_of_getElem? hd₀) hwaits₀ hrecovery hactive₀
      rw [hsteps.channelPool_of_not_changes hsame]
      exact hsteps.ownedPool (h.waiting hd₀ hcause hwaits₀ hactive₀)
    · cases hdropping with
      | subscribe hcause' => cases hcause.symm.trans hcause'
      | recovery hcause' hl hours _ hpool =>
        cases hcause.symm.trans hcause'
        rw [hpool, ← channelPool_of_ours hours]
        exact hsteps.ownedPool (ownedPool_of_loop hl)
      | unsubscribe hcause' => cases hcause.symm.trans hcause'

theorem owning (hr : Reach step Steady start s) : Owning s :=
  hr.invariant_of registered ⟨nofun, nofun⟩ fun hreg _ h hok hs => h.step hreg hok (step_cases hs)

/-- A pool that recreates a consumer is no newer than the pool of a loop that drops it. -/
theorem Fenced.step_restored (h : Fenced s) (hreg : Registered s) (hown : Owning s)
    (hsteps : Steps s event t) {k : Nat} {drop : Drop} {setup : Setup} {pool newer : Nat}
    (hd : t.drops[d]? = some drop) (hcause : drop.cause = .recovery l)
    (hk : t.setups[k]? = some setup) (hconsumer : setup.consumer = drop.consumer)
    (hcaller : setup.caller = .recreation) (howned : t.ownedPool l = some (some pool))
    (hpool : setup.pool = some newer) : newer ≤ pool := by
  rcases (hsteps.drops hd).origin with ⟨drop₀, hd₀, hconsumer₀, hcause₀⟩ | ⟨_, _, hdropping⟩
  · rw [hconsumer₀] at hconsumer
    rw [hcause₀] at hcause
    obtain ⟨owned, howned₀⟩ := hown.loops hd₀ hcause
    cases (hsteps.ownedPool howned₀).symm.trans howned
    rcases (hsteps.setups hk).origin with ⟨setup₀, hk₀, hconsumer', hcaller', hpool'⟩ |
      ⟨_, hbegins, hpool'⟩
    · exact h.restored drop₀ (List.mem_of_getElem? hd₀) l hcause setup₀ (List.mem_of_getElem? hk₀)
        (hconsumer'.symm.trans hconsumer) (hcaller'.symm.trans hcaller) pool newer howned₀
        (hpool'.symm.trans hpool)
    · cases hbegins with
      | subscribe _ hcaller' => cases hcaller.symm.trans hcaller'
      | recovery _ hcaller' => cases hcaller.symm.trans hcaller'
      | recreation _ _ hrecreating =>
        -- `recreateAll` reaches registered consumers only, so the drop has not removed this one
        have hactive : drop₀.consumer ∈ s.activeConsumers := by
          rw [← hconsumer]
          exact hreg.recreating _ (hrecreating ▸ List.mem_cons_self)
        have hwaits : drop₀.stage.waits := by
          by_contra hgone
          exact hreg.removed hd₀ (Bool.eq_false_iff.mpr hgone) hactive
        have heq := hown.waiting hd₀ hcause hwaits hactive
        rw [howned₀, ← hpool', hpool] at heq
        cases heq
        exact Nat.le_refl _
  · cases hdropping with
    | subscribe hcause' => cases hcause.symm.trans hcause'
    | unsubscribe hcause' => cases hcause.symm.trans hcause'
    | recovery hcause' hl hours =>
      cases hcause.symm.trans hcause'
      have heq := Option.some_inj.mp
        ((hsteps.ownedPool (ownedPool_of_loop hl)).symm.trans howned)
      have hinstalled : s.channelPool = some pool := (channelPool_of_ours hours).symm.trans heq
      have hnewest := hreg.newest hinstalled
      rcases (hsteps.setups hk).origin with ⟨setup₀, hk₀, _, _, hpool'⟩ | ⟨_, _, hpool'⟩
      · have hlt := hreg.setupPools hk₀ (hpool'.symm.trans hpool)
        omega
      · rw [hpool', hinstalled] at hpool
        cases hpool
        exact Nat.le_refl _

theorem Fenced.step (h : Fenced s) (hreg : Registered s) (hown : Owning s)
    (hsteps : Steps s event t) : Fenced t where
  setups := by
    intro setup hmem l hcaller
    obtain ⟨k, hk⟩ := List.mem_iff_getElem?.mp hmem
    rcases (hsteps.setups hk).origin with ⟨setup₀, hk₀, _, heq, hpool⟩ | ⟨_, hbegins, hpool⟩
    · rw [hpool]
      exact hsteps.ownedPool (h.setups setup₀ (List.mem_of_getElem? hk₀) l (heq ▸ hcaller))
    · cases hbegins with
      | subscribe _ hcaller' => cases hcaller.symm.trans hcaller'
      | recovery _ hcaller' hl _ hours =>
        cases hcaller.symm.trans hcaller'
        rw [hpool, ← channelPool_of_ours hours]
        exact hsteps.ownedPool (ownedPool_of_loop hl)
      | recreation _ hcaller' => cases hcaller.symm.trans hcaller'
  removals := by
    intro removal hmem l hcause
    rcases hsteps.removals hmem with hmem | ⟨d, drop, hd, hstage, hactive, rfl⟩
    · exact hsteps.ownedPool (h.removals removal hmem l hcause)
    · exact hsteps.ownedPool (hown.waiting hd hcause (by rw [hstage]; rfl) hactive)
  restored := by
    intro drop hdrop l hcause setup hsetup hconsumer hcaller pool newer howned hpool
    obtain ⟨d, hd⟩ := List.mem_iff_getElem?.mp hdrop
    obtain ⟨k, hk⟩ := List.mem_iff_getElem?.mp hsetup
    exact h.step_restored hreg hown hsteps hd hcause hk hconsumer hcaller howned hpool
  lost := by
    intro consumer hmem
    have hlost : ∃ (d : Nat) (drop : Drop), s.drops[d]? = some drop ∧ drop.consumer = consumer ∧
        drop.cause.isRecovery := by
      rcases hsteps.lost hmem with hmem | ⟨d, drop, l, hd, hconsumer, hcause⟩
      · obtain ⟨drop, hdrop, hlost⟩ := h.lost consumer hmem
        obtain ⟨d, hd⟩ := List.mem_iff_getElem?.mp hdrop
        exact ⟨d, drop, hd, hlost⟩
      · exact ⟨d, drop, hd, hconsumer, by rw [hcause]; rfl⟩
    obtain ⟨d, drop, hd, hconsumer, hcause⟩ := hlost
    obtain ⟨drop', hd', hconsumer', hcause'⟩ := hsteps.drop_kept hd
    exact ⟨drop', List.mem_of_getElem? hd', hconsumer'.trans hconsumer, hcause' ▸ hcause⟩

/-- In a run that does not change the pool while a recovery drops its consumer, every loop acts on
the pool that it started with. -/
theorem recovery_fenced (hr : Reach step Steady start s) : Fenced s := by
  refine hr.invariant_of (fun hr => And.intro (registered hr) (owning hr)) ?_ ?_
  · exact ⟨nofun, nofun, nofun, nofun⟩
  · intro s s' e hs _ h _ hstep
    exact h.step hs.1 hs.2 (step_cases hstep)

/-- The broker cancels a consumer whose handler is running, and three attempts to recover it fail. -/
def givesUp : List Event :=
  [.poolInstalled, .recreateAll, .recreated, .subscribe false, .channelOpened 0, .setupContinues 0,
    .prefetched 0, .consumeOk 0 7, .setupCompletes 0, .delivered 0, .brokerCancels 0, .loopWakes 0,
    .setupContinues 1, .setupFails 1, .loopWakes 0, .setupContinues 2, .setupFails 2, .loopWakes 0,
    .setupContinues 3, .setupFails 3]

/-- The handler finishes, and the consumer is removed before the connection is lost. -/
theorem gave_up_then_reconnected : ∃ s, Reach step Steady start s ∧
    s.removals = [⟨0, .recovery 0, some 0⟩] ∧ .consumerLost 0 ∈ s.emitted ∧
    s.channelPool = some 1 ∧ Fenced s := by
  have hrun : (run step Steady start (givesUp ++ [.handled 0, .removeConsumer 0 false,
      .channelCloses 0, .dropped 0, .connectionLost, .poolInstalled])).any (fun s =>
        decide (s.removals = [⟨0, .recovery 0, some 0⟩] ∧ .consumerLost 0 ∈ s.emitted ∧
          s.channelPool = some 1)) := by
    decide +kernel
  obtain ⟨s, hs, h⟩ := (Option.any_eq_true _ _).mp hrun
  obtain ⟨hremovals, hlost, hpool⟩ := of_decide_eq_true h
  have hr := reach_of_run hs
  exact ⟨s, hr, hremovals, hlost, hpool, recovery_fenced hr⟩

/-- The connection is lost while the handler runs. The next pool restores the consumer, and when the
handler finishes the loop of the first pool removes it. -/
theorem restored_consumer_dropped : ∃ s, Reach step anyStep start s ∧
    s.removals = [⟨0, .recovery 0, some 1⟩] ∧ ¬ Fenced s := by
  have hrun : (run step anyStep start (givesUp ++ [.connectionLost, .poolInstalled, .recreateAll,
      .recreates, .channelOpened 4, .setupContinues 4, .prefetched 4, .consumeOk 4 8,
      .setupCompletes 4, .recreated, .handled 0, .removeConsumer 0 false])).any (fun s =>
        decide (s.removals = [⟨0, .recovery 0, some 1⟩] ∧ s.ownedPool 0 = some (some 0))) := by
    decide +kernel
  obtain ⟨s, hs, h⟩ := (Option.any_eq_true _ _).mp hrun
  obtain ⟨hremovals, howned⟩ := of_decide_eq_true h
  refine ⟨s, reach_of_run hs, hremovals, fun hfenced => ?_⟩
  have hmem : ⟨0, .recovery 0, some 1⟩ ∈ s.removals := by
    rw [hremovals]
    exact List.mem_singleton_self _
  cases howned.symm.trans (hfenced.removals _ hmem 0 rfl)

end ConsumerManager
end RabbitMQ

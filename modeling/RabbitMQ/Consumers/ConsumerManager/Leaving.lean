import RabbitMQ.Consumers.ConsumerManager.Tending
import RabbitMQ.Consumers.ConsumerManager.Unsubscribing

/-! A consumer whose `subscribe()` has resolved leaves with a report: `unsubscribe` or `disconnect`
took it out, or the loop that dropped it emits `'consumerLost'`. -/

namespace RabbitMQ
namespace ConsumerManager

open Transition State

variable {s t : State} {event : Event} {consumer channel k l d : Nat}

/-! ## Subscribes -/

/-- A consumer has one setup of its `subscribe()`, which tells whether that has resolved. -/
structure Subscribing (s : State) : Prop where
  one : ∀ {j k : Nat} {setup setup' : Setup}, s.setups[j]? = some setup →
    s.setups[k]? = some setup' → setup.caller = .subscribe → setup'.caller = .subscribe →
    setup.consumer = setup'.consumer → j = k
  unresolved : ∀ {k : Nat} {setup : Setup}, s.setups[k]? = some setup →
    setup.caller = .subscribe → setup.stage ≠ .settled true → ¬ s.subscribed setup.consumer
  drops : ∀ {d : Nat} {drop : Drop}, s.drops[d]? = some drop → drop.cause = .subscribe →
    ∃ (k : Nat) (setup : Setup), s.setups[k]? = some setup ∧ setup.caller = .subscribe ∧
      setup.consumer = drop.consumer ∧ setup.stage = .settled false

theorem subscribing_start : Subscribing start where
  one h := by cases h
  unresolved h := by cases h
  drops h := by cases h

/-- A setup of `subscribe` was there before, or begins for a new consumer. -/
theorem SetupCases.of_subscribe {setup' : Setup} (h : SetupCases s t event k setup')
    (hcaller : setup'.caller = .subscribe) :
    (∃ setup, s.setups[k]? = some setup ∧ setup.caller = .subscribe ∧
      setup.consumer = setup'.consumer) ∨
    (k = s.setups.length ∧ setup'.consumer = s.consumers.length) := by
  rcases h.origin with ⟨setup, hk, hconsumer, heq, -⟩ | ⟨hk, hbegins, -⟩
  · exact .inl ⟨setup, hk, heq.symm.trans hcaller, hconsumer.symm⟩
  · cases hbegins with
    | subscribe _ _ hnew => exact .inr ⟨hk, hnew⟩
    | recovery _ hcaller' | recreation _ hcaller' => cases hcaller.symm.trans hcaller'

theorem Subscribing.step_one (h : Subscribing s) (hreg : Registered s) (hsteps : Steps s event t)
    {j : Nat} {setup setup' : Setup} (hj : t.setups[j]? = some setup)
    (hk : t.setups[k]? = some setup') (hcaller : setup.caller = .subscribe)
    (hcaller' : setup'.caller = .subscribe) (hsame : setup.consumer = setup'.consumer) : j = k := by
  rcases (hsteps.setups hj).of_subscribe hcaller with
    ⟨setup₀, hj₀, hcaller₀, hconsumer₀⟩ | ⟨rfl, hnew⟩
  · have hlt := hreg.setups hj₀
    rcases (hsteps.setups hk).of_subscribe hcaller' with
      ⟨setup₁, hk₀, hcaller₁, hconsumer₁⟩ | ⟨rfl, hnew⟩
    · exact h.one hj₀ hk₀ hcaller₀ hcaller₁ (hconsumer₀.trans (hsame.trans hconsumer₁.symm))
    · rw [hconsumer₀, hsame, hnew] at hlt
      exact absurd hlt (Nat.lt_irrefl _)
  · rcases (hsteps.setups hk).of_subscribe hcaller' with
      ⟨setup₁, hk₀, hcaller₁, hconsumer₁⟩ | ⟨rfl, -⟩
    · have hlt := hreg.setups hk₀
      rw [hconsumer₁, ← hsame, hnew] at hlt
      exact absurd hlt (Nat.lt_irrefl _)
    · rfl

/-- A setup that has settled stays so. -/
theorem StageMove.unsettled {setup : Setup} {stage : SetupStage} (h : StageMove s t setup stage)
    (ok : Bool) : setup.stage ≠ .settled ok := by
  intro hsettled
  cases h with
  | opened hstage | releasing hstage | prefetching hstage | skipsPrefetch hstage | consuming hstage
  | consumed hstage | cancelling hstage | completes hstage => cases hsettled.symm.trans hstage
  | fails hstage => exact hstage ok hsettled

theorem Subscribing.step_unresolved (h : Subscribing s) (hsteps : Steps s event t)
    {setup' : Setup} (hk : t.setups[k]? = some setup') (hcaller : setup'.caller = .subscribe)
    (hstage : setup'.stage ≠ .settled true) : ¬ t.subscribed setup'.consumer := by
  intro hsubscribed
  have hlt := hsteps.subscribed_lt hsubscribed
  obtain ⟨setup, hk₀, hcaller₀, hconsumer₀, hstage₀⟩ : ∃ setup, s.setups[k]? = some setup ∧
      setup.caller = .subscribe ∧ setup.consumer = setup'.consumer ∧
      setup.stage ≠ .settled true := by
    cases hsteps.setups hk with
    | same hk₀ => exact ⟨setup', hk₀, hcaller, rfl, hstage⟩
    | moves hk₀ hmove heq =>
      subst heq
      exact ⟨_, hk₀, hcaller, rfl, hmove.unsettled true⟩
    | begins _ hbegins =>
      cases hbegins with
      | subscribe _ _ hnew =>
        rw [hnew] at hlt
        exact absurd hlt (Nat.lt_irrefl _)
      | recovery _ hcaller' | recreation _ hcaller' => cases hcaller.symm.trans hcaller'
  have hbefore := h.unresolved hk₀ hcaller₀ hstage₀
  rw [hconsumer₀] at hbefore
  rcases hsteps.subscribed_cases hsubscribed with
    ⟨hresolved, -⟩ | ⟨j, setup₁, channel, hcompletes, -, hresolved | ⟨hcaller₁, hafter⟩⟩
  · exact hbefore hresolved
  · exact hbefore hresolved
  · cases h.one hk₀ hcompletes.get hcaller₀ hcaller₁
      (hconsumer₀.trans hcompletes.consumer.symm)
    cases hk.symm.trans hafter
    exact hstage rfl

/-- A loop that gives up drops its consumer in its own name. -/
theorem attemptFails_dropped {s₀ : State} {loop : Loop} {drop : Drop} (hdrops : s₀.drops = s.drops)
    (hd : (s₀.attemptFails l loop).drops[s.drops.length]? = some drop) :
    drop.cause = .recovery l := by
  have hlength : s₀.drops.length = s.drops.length := by rw [hdrops]
  unfold attemptFails at hd
  split at hd
  · exact not_begun hlength hd
  · split at hd
    · rw [← hlength] at hd
      cases List.getElem?_concat_length.symm.trans hd
      rfl
    · exact not_begun hlength hd

/-- Only a setup of `subscribe` that fails has it drop its consumer. -/
theorem settleSetup_dropped {s₀ : State} {setup : Setup} {ok : Bool} {drop : Drop}
    (hk : s₀.setups[k]? = some setup) (hdrops : s₀.drops = s.drops)
    (hd : (s₀.settleSetup k setup ok).drops[s.drops.length]? = some drop)
    (hcause : drop.cause = .subscribe) :
    ∃ (k' : Nat) (setup' : Setup), (s₀.settleSetup k setup ok).setups[k']? = some setup' ∧
      setup'.caller = .subscribe ∧ setup'.consumer = drop.consumer ∧
      setup'.stage = .settled false := by
  have hlength : s₀.drops.length = s.drops.length := by rw [hdrops]
  have hafter : (s₀.settleSetup k setup ok).setups[k]? = some { setup with stage := .settled ok } := by
    rw [settleSetup_setups, List.getElem?_modify_of hk, if_pos rfl]
  unfold settleSetup at hd
  dsimp only at hd
  split at hd
  · next hcaller =>
    split at hd
    · exact not_begun hlength hd
    · next hok =>
      rw [← hlength] at hd
      cases List.getElem?_concat_length.symm.trans hd
      exact ⟨k, _, hafter, hcaller, rfl, congrArg _ (Bool.eq_false_iff.mpr hok)⟩
  · next l hcaller =>
    split at hd
    · exact not_begun hlength hd
    · split at hd
      · exact not_begun hlength hd
      · have hsettled : (s₀.setSetup k (.settled ok)).drops = s.drops := hdrops
        cases hcause.symm.trans (attemptFails_dropped hsettled hd)
  · exact not_begun hlength hd

theorem Steps.subscribe_dropped (h : Steps s event t) {drop : Drop}
    (hd : t.drops[s.drops.length]? = some drop) (hcause : drop.cause = .subscribe) :
    ∃ (k : Nat) (setup : Setup), t.setups[k]? = some setup ∧ setup.caller = .subscribe ∧
      setup.consumer = drop.consumer ∧ setup.stage = .settled false := by
  cases h with
  | @unsubscribe consumerTag consumer c =>
    rcases unsubscribe_cases s consumer c with ⟨_, _, _, _, heq⟩ | heq
    · rw [heq] at hd
      exact not_begun rfl hd
    · rw [heq] at hd
      cases List.getElem?_concat_length.symm.trans hd
      cases hcause
  | @unsubscribeCancelled u consumer channel consumerTag =>
    rcases dropConsumer_drops hd with hd | ⟨-, -, hcause', -⟩
    · exact not_begun (by simp [setUnsubscribe]) hd
    · cases hcause.symm.trans hcause'
  | @setupContinues k setup channel hk =>
    unfold State.setupContinues at hd ⊢
    split at hd
    · exact not_begun (by simp [setSetup]) hd
    · next hactive =>
      rw [if_neg hactive]
      split at hd
      · next hcancelled =>
        rw [if_pos hcancelled]
        exact settleSetup_dropped hk rfl hd hcause
      · split at hd <;> exact not_begun rfl hd
  | @setupCompletes k setup channel consumerTag hk =>
    unfold State.setupCompletes at hd ⊢
    split at hd
    · exact not_begun rfl hd
    · next hours =>
      rw [if_neg hours]
      exact settleSetup_dropped (by simpa using hk) (by simp) hd hcause
  | setupCancelled hk => exact settleSetup_dropped (by simpa using hk) (by simp) hd hcause
  | setupReleased hk | setupFails hk => exact settleSetup_dropped hk rfl hd hcause
  | handled =>
    refine not_begun ?_ hd
    unfold State.handled
    dsimp only
    split <;> simp [modifyConsumer]
  | @removeConsumer d drop workers =>
    refine not_begun ?_ hd
    cases workers with
    | true => simp [removeConsumer_of_workers, setDrop, removed]
    | false => simp [removeConsumer_of_no_workers, setDrop, removed]
  | terminated => exact not_begun (by simp [State.terminated, setDrop]) hd
  | dropped => exact not_begun (by simp [dropped_drops, setDrop]) hd
  | _ =>
    refine not_begun ?_ hd
    simp [setLoop, setDrop, setSetup, modifyConsumer, closePool, State.connectionLost,
      State.channelOpened, State.consumeOk, tryAgain]

theorem Subscribing.step_drops (h : Subscribing s) (hsteps : Steps s event t) {drop' : Drop}
    (hd : t.drops[d]? = some drop') (hcause : drop'.cause = .subscribe) :
    ∃ (k : Nat) (setup : Setup), t.setups[k]? = some setup ∧ setup.caller = .subscribe ∧
      setup.consumer = drop'.consumer ∧ setup.stage = .settled false := by
  rcases (hsteps.drops hd).origin with ⟨drop, hd₀, hconsumer, heq⟩ | ⟨rfl, -⟩
  · obtain ⟨k, setup, hk, hcaller, howner, hstage⟩ := h.drops hd₀ (heq ▸ hcause)
    refine ⟨k, setup, ?_, hcaller, howner.trans hconsumer.symm, hstage⟩
    rcases hsteps.setup_kept hk with hk' | ⟨stage, hmove, -⟩
    · exact hk'
    · exact absurd hstage (hmove.unsettled false)
  · exact hsteps.subscribe_dropped hd hcause

theorem Subscribing.step (h : Subscribing s) (hreg : Registered s) (hsteps : Steps s event t) :
    Subscribing t where
  one := h.step_one hreg hsteps
  unresolved := h.step_unresolved hsteps
  drops := h.step_drops hsteps

theorem subscribing {ok : State → Event → Prop} (hr : Reach step ok start s) : Subscribing s :=
  hr.invariant_of registered subscribing_start fun hreg _ h _ hs => h.step hreg (step_cases hs)

/-! ## Reports -/

theorem attemptFails_drop_kept {loop : Loop} {drop : Drop} (hd : s.drops[d]? = some drop) :
    (s.attemptFails l loop).drops[d]? = some drop := by
  unfold attemptFails
  split
  · exact hd
  · split
    · exact List.getElem?_append_of hd _
    · exact hd

theorem settleSetup_drop_kept {setup : Setup} {ok : Bool} {drop : Drop}
    (hd : s.drops[d]? = some drop) : (s.settleSetup k setup ok).drops[d]? = some drop := by
  unfold settleSetup
  dsimp only
  split
  · split
    · exact hd
    · exact List.getElem?_append_of hd _
  · split
    · exact hd
    · split
      · exact hd
      · exact attemptFails_drop_kept hd
  · exact hd

/-- The stage of another drop is written. -/
theorem setDrop_drop_kept {e : Nat} {drop drop' : Drop} {stage : DropStage}
    (hd : s.drops[d]? = some drop) (he : s.drops[e]? = some drop')
    (hother : drop.stage ≠ drop'.stage) : (s.setDrop e stage).drops[d]? = some drop := by
  rw [setDrop, List.getElem?_modify_of hd, if_neg]
  rintro rfl
  cases hd.symm.trans he
  exact hother rfl

/-- A drop that waits for the channel to close stays as it is, until it is done. -/
theorem Steps.drop_stays (h : Steps s event t) {drop : Drop} {released : Option Nat}
    (hd : s.drops[d]? = some drop) (hstage : drop.stage = .releasing released) :
    t.drops[d]? = some drop ∨ event = .dropped d := by
  cases h with
  | @unsubscribe _ consumer c =>
    left
    rcases unsubscribe_cases s consumer c with ⟨_, _, _, _, heq⟩ | heq <;> rw [heq]
    · exact hd
    · exact List.getElem?_append_of hd _
  | unsubscribeCancelled =>
    refine .inl (List.getElem?_append_of ?_ _)
    simpa [setUnsubscribe] using hd
  | setupContinues =>
    left
    unfold State.setupContinues
    split
    · simpa [setSetup] using hd
    · split
      · exact settleSetup_drop_kept hd
      · split <;> exact hd
  | setupCompletes =>
    left
    unfold State.setupCompletes
    split
    · exact hd
    · exact settleSetup_drop_kept (by simpa using hd)
  | setupCancelled => exact .inl (settleSetup_drop_kept (by simpa using hd))
  | setupReleased | setupFails => exact .inl (settleSetup_drop_kept hd)
  | handled =>
    left
    unfold State.handled
    dsimp only
    split
    · simp [modifyConsumer, hd, hstage]
    · exact hd
  | drainTimesOut he hstage' => exact .inl (setDrop_drop_kept hd he (by simp [hstage, hstage']))
  | @terminated e drop' he hstage' =>
    have hdrops : (s.releaseDedicatedChannel drop'.consumer).2.drops = s.drops := by simp
    rw [← hdrops] at hd he
    exact .inl (setDrop_drop_kept hd he (by simp [hstage, hstage']))
  | @removeConsumer e drop' workers he hstage' =>
    left
    have hother : drop.stage ≠ drop'.stage := by simp [hstage, hstage']
    cases workers with
    | true => exact setDrop_drop_kept hd he hother
    | false =>
      rw [removeConsumer_of_no_workers]
      exact setDrop_drop_kept (by simpa [removed] using hd) (by simpa [removed] using he) hother
  | @dropped e =>
    rcases eq_or_ne e d with rfl | hne
    · exact .inr rfl
    · left
      rw [dropped_drops, setDrop, List.getElem?_modify_of hd, if_neg hne]
  | _ =>
    left
    simpa [setLoop, setDrop, setSetup, modifyConsumer, closePool, State.connectionLost,
      State.channelOpened, State.consumeOk, tryAgain] using hd

/-- A loop that has dropped its consumer has reported it. -/
def Reported (s : State) : Prop :=
  ∀ drop ∈ s.drops, ∀ l, drop.cause = .recovery l → drop.stage = .done →
    .consumerLost drop.consumer ∈ s.emitted

theorem Reported.step (h : Reported s) (hawaited : Awaited s) (hanswering : Answering s)
    (hsteps : Steps s event t) : Reported t := by
  intro drop' hmem l hcause hdone
  obtain ⟨d, hd⟩ := List.mem_iff_getElem?.mp hmem
  have hemitted := (hanswering.recovers hsteps).emitted hawaited hanswering.owner
  cases hsteps.drops hd with
  | same hd₀ =>
    rw [hemitted]
    exact List.mem_append_left _ (h drop' (List.mem_of_getElem? hd₀) l hcause hdone)
  | drained _ _ heq | removes _ _ heq | releases _ _ heq =>
    rw [heq] at hdone
    cases hdone
  | @done drop _ hd₀ hstage heq =>
    rcases hsteps.drop_stays hd₀ hstage with hd' | rfl
    · cases hd.symm.trans hd'
      cases hstage.symm.trans hdone
    · cases hsteps with
      | dropped hd₁ =>
        cases hd₀.symm.trans hd₁
        have hbefore : drop.cause = .recovery l := by
          rw [← hcause, heq]
        simp [State.dropped, hbefore, emit, heq]
  | begins _ hwaits =>
    rw [hdone] at hwaits
    cases hwaits

theorem reported {ok : State → Event → Prop} (hr : Reach step ok start s) : Reported s := by
  refine hr.invariant_of standing (fun drop hmem => by cases hmem) ?_
  intro s s' event h _ hreported _ hs
  exact hreported.step h.awaited h.answering (step_cases hs)

/-! ## Leaving -/

/-- What takes a consumer out of `activeConsumers`: `disconnect`, or a drop by `unsubscribe` or by a
loop. -/
inductive Departs (s : State) (consumer : Nat) : Event → Prop
  | disconnected : Departs s consumer .disconnect
  | unsubscribed {d u : Nat} {workers : Bool} {drop : Drop} {unsubscribe : Unsubscribe}
      (hd : s.drops[d]? = some drop) (hconsumer : drop.consumer = consumer)
      (hcause : drop.cause = .unsubscribe u) (hu : s.unsubscribes[u]? = some unsubscribe)
      (hcall : unsubscribe.consumer = consumer) : Departs s consumer (.removeConsumer d workers)
  | lost {d l : Nat} {workers : Bool} {drop : Drop} (hd : s.drops[d]? = some drop)
      (hconsumer : drop.consumer = consumer) (hcause : drop.cause = .recovery l) :
      Departs s consumer (.removeConsumer d workers)

/-- Only `disconnect` and drops take consumers out. -/
theorem Steps.leaves (h : Steps s event t) (hactive : consumer ∈ s.activeConsumers)
    (hgone : consumer ∉ t.activeConsumers) : event = .disconnect ∨
      ∃ d workers drop, event = .removeConsumer d workers ∧ s.drops[d]? = some drop ∧
        drop.consumer = consumer := by
  cases h with
  | subscribe =>
    refine absurd ?_ hgone
    simp only [runSetup_frame]
    exact List.mem_append_left _ hactive
  | @removeConsumer d drop workers hd =>
    refine .inr ⟨d, workers, drop, rfl, hd, ?_⟩
    by_contra hother
    rw [(removeConsumer_registry ..).1] at hgone
    exact hgone ((List.mem_erase_of_ne (Ne.symm hother)).mpr hactive)
  | disconnect => exact .inl rfl
  | _ =>
    refine absurd ?_ hgone
    simpa [setLoop, setDrop, setSetup, modifyConsumer, State.channelOpened, State.consumeOk,
      tryAgain, closePool, State.connectionLost] using hactive

theorem Subscribing.departs (h : Subscribing s) (hcalled : Called s) (hsteps : Steps s event t)
    (hactive : consumer ∈ s.activeConsumers) (hsubscribed : s.subscribed consumer)
    (hgone : consumer ∉ t.activeConsumers) : Departs s consumer event := by
  rcases hsteps.leaves hactive hgone with rfl | ⟨d, workers, drop, rfl, hd, rfl⟩
  · exact .disconnected
  · cases hcause : drop.cause with
    | subscribe =>
      obtain ⟨k, setup, hk, hcaller, hconsumer, hstage⟩ := h.drops hd hcause
      refine absurd hsubscribed ?_
      rw [← hconsumer]
      exact h.unresolved hk hcaller (by simp [hstage])
    | recovery l => exact .lost hd rfl hcause
    | unsubscribe u =>
      obtain ⟨unsubscribe, hu, hcall⟩ := hcalled.drops hd hcause
      exact .unsubscribed hd rfl hcause hu hcall

/-! ## No consumer dies silently -/

structure Loud (s : State) : Prop where
  /-- A consumer that is registered, not cancelled and subscribed consumes, or is being retried, or
  waits for a restore. -/
  tended : ∀ consumer, s.Ours consumer → s.subscribed consumer → s.Tended consumer
  /-- A subscribed consumer leaves through `unsubscribe`, through `disconnect` or through a loop. -/
  departs : ∀ {event : Event} {t : State} {consumer : Nat}, step s event = some t →
    consumer ∈ s.activeConsumers → s.subscribed consumer → consumer ∉ t.activeConsumers →
    Departs s consumer event
  reported : Reported s

theorem Secured.tended (h : Secured s consumer) : s.Tended consumer := by
  rcases h with hconsuming | hretried | ⟨hrestore, -⟩ | ⟨k, hrestore, -⟩
  · exact .inl hconsuming
  · exact .inr (.inl hretried)
  · exact .inr (.inr (.inr (by simp [hrestore])))
  · exact .inr (.inr (.inr (by simp [hrestore])))

theorem State.Due.tended (h : s.Due) : s.Tended consumer := by
  rcases h with hnone | hrestore
  · exact .inr (.inr (.inl hnone))
  · exact .inr (.inr (.inr (by simp [hrestore])))

/-- In a run in which no setup ends without its consumer, no consumer dies silently. -/
theorem never_silent (hr : Reach step Tending start s) : Loud s where
  tended consumer hours hsubscribed := by
    by_cases hdue : s.Due
    · exact hdue.tended
    · exact (allSecured hr consumer hours hsubscribed hdue).tended
  departs hs := (subscribing hr).departs (called hr) (step_cases hs)
  reported := reported hr

/-- A consumer has subscribed on the first pool. -/
def subscribes : List Event :=
  [.poolInstalled, .recreateAll, .recreated, .subscribe false, .channelOpened 0, .setupContinues 0,
    .prefetched 0, .consumeOk 0 7, .setupCompletes 0]

/-- The connection is lost, and the restore begins. -/
def restores : List Event := [.connectionLost, .poolInstalled, .recreateAll, .recreates]

/-- The broker cancels the consumer, the second attempt of its loop recovers it, and a restore
recreates it. -/
theorem never_silent_run : ∃ s, Reach step Tending start s ∧ s.loops.length = 1 ∧ s.Ours 0 ∧
    s.subscribed 0 ∧ s.Consuming 0 ∧ s.channelPool = some 1 ∧ s.restore = none ∧ Loud s := by
  let recovers : List Event := [.brokerCancels 0, .loopWakes 0, .setupContinues 1, .setupFails 1,
    .loopWakes 0, .setupContinues 2, .prefetched 2, .consumeOk 2 8, .setupCompletes 2]
  let recreates : List Event :=
    [.channelOpened 3, .setupContinues 3, .prefetched 3, .consumeOk 3 9, .setupCompletes 3, .recreated]
  have hrun : (run step Tending start (subscribes ++ recovers ++ restores ++ recreates)).any
      (fun s => decide (s.loops.length = 1 ∧ s.Ours 0 ∧ s.subscribed 0 ∧ s.Consuming 0 ∧
        s.channelPool = some 1 ∧ s.restore = none)) := by
    decide +kernel
  obtain ⟨s, hs, h⟩ := (Option.any_eq_true _ _).mp hrun
  obtain ⟨hloops, hours, hsubscribed, hconsuming, hpool, hrestore⟩ := of_decide_eq_true h
  have hr := reach_of_run hs
  exact ⟨s, hr, hloops, hours, hsubscribed, hconsuming, hpool, hrestore, never_silent hr⟩

/-- The broker refuses the consume of the restore: `recreateAll` logs the error, and the restore
finishes without the consumer. -/
theorem restored_without_consumer : ∃ s, Reach step anyStep start s ∧ s.Ours 0 ∧ s.subscribed 0 ∧
    s.loops = [] ∧ s.channelPool = some 1 ∧ s.restore = none ∧ ¬ s.Consuming 0 ∧ ¬ Loud s := by
  have hrun : (run step anyStep start (subscribes ++ restores ++ [.channelOpened 1,
      .setupContinues 1, .prefetched 1, .setupFails 1, .recreated])).any (fun s =>
        decide (s.Ours 0 ∧ s.subscribed 0 ∧ s.loops = [] ∧ s.channelPool = some 1 ∧
          s.restore = none ∧ ¬ s.Consuming 0 ∧ ¬ s.Tended 0)) := by
    decide +kernel
  obtain ⟨s, hs, h⟩ := (Option.any_eq_true _ _).mp hrun
  obtain ⟨hours, hsubscribed, hloops, hpool, hrestore, hconsuming, huntended⟩ := of_decide_eq_true h
  exact ⟨s, reach_of_run hs, hours, hsubscribed, hloops, hpool, hrestore, hconsuming,
    fun hloud => huntended (hloud.tended 0 hours hsubscribed)⟩

end ConsumerManager
end RabbitMQ

import RabbitMQ.Consumers.ConsumerManager.Frame
import RabbitMQ.Lib.Update

/-! What a step can do to a setup, to a drop, to a loop and to the consumers that are registered,
component by component. -/

namespace RabbitMQ
namespace ConsumerManager

open State

variable {s t : State} {event : Event} {k l d : Nat}

/-! ## Releasing -/

theorem releaseDedicatedChannel_registered (consumer : Nat) :
    (s.releaseDedicatedChannel consumer).2.dedicatedChannels =
      match s.channelPool with
      | none => s.dedicatedChannels
      | some pool => s.dedicatedChannels.erase (pool, consumer) := by
  unfold releaseDedicatedChannel
  cases hpool : s.channelPool with
  | none => rfl
  | some pool =>
    dsimp only
    cases hget : s.dedicatedChannels.get? (pool, consumer) with
    | none => exact (OrderedMap.erase_of_not_mem (OrderedMap.not_mem_iff.mpr hget)).symm
    | some channel => rfl

/-- No channel of the pool that is installed stays registered for a consumer that is released. -/
theorem get?_releaseDedicatedChannel {pool consumer : Nat} (hpool : s.channelPool = some pool) :
    (s.releaseDedicatedChannel consumer).2.dedicatedChannels.get? (pool, consumer) = none := by
  rw [releaseDedicatedChannel_registered, hpool, OrderedMap.get?_erase_self]

/-! ## Setups -/

/-- A setup goes from one stage to another. -/
inductive StageMove (s t : State) (setup : Setup) : SetupStage → Prop
  | opened {pool} (hstage : setup.stage = .opening pool)
      (hconnected : s.pools[pool]?.any (·.connected))
      (hchannel : t.channels[s.channels.length]? = some ⟨pool, setup.consumer, .live, 0⟩) :
      StageMove s t setup (.opened s.channels.length)
  | releasing {channel released} (hstage : setup.stage = .opened channel)
      (hgone : setup.consumer ∉ s.activeConsumers)
      (hreleased : ∀ pool, t.channelPool = some pool →
        t.dedicatedChannels.get? (pool, setup.consumer) = none) :
      StageMove s t setup (.releasing released)
  | prefetching {channel} (hstage : setup.stage = .opened channel)
      (hactive : setup.consumer ∈ s.activeConsumers) : StageMove s t setup (.prefetching channel)
  | skipsPrefetch {channel} (hstage : setup.stage = .opened channel)
      (hactive : setup.consumer ∈ s.activeConsumers) : StageMove s t setup (.consuming channel)
  | consuming {channel} (hstage : setup.stage = .prefetching channel) :
      StageMove s t setup (.consuming channel)
  | consumed {channel consumerTag} (hstage : setup.stage = .consuming channel)
      (hlive : s.live channel) : StageMove s t setup (.consumed channel consumerTag)
  | cancelling {channel consumerTag} (hstage : setup.stage = .consumed channel consumerTag)
      (hcancelled : setup.consumer ∉ s.activeConsumers ∨ s.cancelled setup.consumer) :
      StageMove s t setup (.cancelling channel consumerTag)
  | completes {channel consumerTag} (hstage : setup.stage = .consumed channel consumerTag)
      (hactive : setup.consumer ∈ s.activeConsumers) (hcancelled : ¬ s.cancelled setup.consumer) :
      StageMove s t setup (.settled true)
  | fails (hstage : ∀ ok, setup.stage ≠ .settled ok)
      (hactive : ∀ channel, setup.stage = .opened channel → setup.consumer ∈ s.activeConsumers) :
      StageMove s t setup (.settled false)

/-- The step runs the setup of a consumer. -/
inductive Begins (s : State) (event : Event) (setup : Setup) : Prop
  | subscribe {noAck} (hevent : event = .subscribe noAck) (hcaller : setup.caller = .subscribe)
      (hnew : setup.consumer = s.consumers.length)
  | recovery {l loop} (hevent : event = .loopWakes l) (hcaller : setup.caller = .recovery l)
      (hl : s.loops[l]? = some loop) (hstage : loop.stage = .sleeping) (hours : s.stillOurs loop)
      (hepoch : s.epoch loop.consumer = loop.knownEpoch)
      (hconsumer : setup.consumer = loop.consumer)
  | recreation {recreating} (hevent : event = .recreates) (hcaller : setup.caller = .recreation)
      (hrecreating : s.recreating = setup.consumer :: recreating)

/-- What a step can do to a setup. -/
inductive SetupCases (s t : State) (event : Event) (k : Nat) (setup' : Setup) : Prop
  | same (hk : s.setups[k]? = some setup')
  | moves {setup stage} (hk : s.setups[k]? = some setup) (hmove : StageMove s t setup stage)
      (heq : setup' = { setup with stage })
  | begins (hk : k = s.setups.length) (hbegins : Begins s event setup')
      (hpool : setup'.pool = s.channelPool)
      (hstage : setup'.stage = s.getDedicatedChannel setup'.consumer)

@[simp] theorem settleSetup_setups (setup : Setup) (ok : Bool) :
    (s.settleSetup k setup ok).setups =
      s.setups.modify k fun setup => { setup with stage := .settled ok } := by
  unfold settleSetup
  dsimp only
  split
  · split <;> simp [setSetup, modifyConsumer, dropConsumer]
  · split
    · simp [setSetup]
    · split <;> simp [setSetup, setLoop, emit]
  · simp [setSetup]

/-- Writing the stage of a setup. -/
theorem SetupCases.of_modify {j : Nat} {setup setup' : Setup} {stage : SetupStage}
    (hk : s.setups[k]? = some setup) (hmove : StageMove s t setup stage)
    (h : (s.setups.modify k fun setup => { setup with stage })[j]? = some setup') :
    SetupCases s t event j setup' := by
  obtain ⟨a, ha, rfl⟩ := List.getElem?_modify_cases h
  split
  · next heq =>
    subst heq
    rw [hk] at ha
    cases ha
    exact .moves hk hmove rfl
  · exact .same ha

theorem SetupCases.of_append {setup setup' : Setup} (hbegins : Begins s event setup)
    (hpool : setup.pool = s.channelPool)
    (hstage : setup.stage = s.getDedicatedChannel setup.consumer)
    (h : (s.setups ++ [setup])[k]? = some setup') : SetupCases s t event k setup' := by
  rcases List.getElem?_append_cases h with h | ⟨hk, rfl⟩
  · exact .same h
  · exact .begins hk hbegins hpool hstage

theorem Steps.setups (h : Steps s event t) {setup' : Setup} (hk : t.setups[k]? = some setup') :
    SetupCases s t event k setup' := by
  cases h with
  | subscribe => exact .of_append (.subscribe rfl rfl rfl) rfl rfl hk
  | channelOpened hj hstage hconnected =>
    exact .of_modify hj (.opened hstage hconnected List.getElem?_concat_length) hk
  | @setupContinues j setup channel hj hstage =>
    by_cases hactive : setup.consumer ∈ s.activeConsumers
    · rw [State.setupContinues, if_neg (not_not.mpr hactive)] at hk
      split at hk
      · rw [settleSetup_setups] at hk
        exact .of_modify hj (.fails (by simp [hstage]) fun _ _ => hactive) hk
      · split at hk
        · exact .of_modify hj (.skipsPrefetch hstage hactive) hk
        · exact .of_modify hj (.prefetching hstage hactive) hk
    · rw [State.setupContinues, if_pos hactive] at hk ⊢
      have hsetups : (s.releaseDedicatedChannel setup.consumer).2.setups = s.setups := by simp
      have hpools : (s.releaseDedicatedChannel setup.consumer).2.channelPool = s.channelPool := by
        simp
      have hmove : StageMove s ((s.releaseDedicatedChannel setup.consumer).2.setSetup j
          (.releasing (s.releaseDedicatedChannel setup.consumer).1)) setup
          (.releasing (s.releaseDedicatedChannel setup.consumer).1) :=
        .releasing hstage hactive fun pool hpool => get?_releaseDedicatedChannel (hpools ▸ hpool)
      refine .of_modify hj hmove ?_
      rw [← hsetups]
      exact hk
  | prefetched hj hstage hlive => exact .of_modify hj (.consuming hstage) hk
  | consumeOk hj hstage hlive htag => exact .of_modify hj (.consumed hstage hlive) hk
  | @setupCompletes j setup channel consumerTag hj hstage =>
    unfold State.setupCompletes at hk
    split at hk
    · next hcancelled => exact .of_modify hj (.cancelling hstage hcancelled) hk
    · next hcancelled =>
      rw [not_or, not_not] at hcancelled
      refine .of_modify hj (.completes hstage hcancelled.1 hcancelled.2) ?_
      rw [settleSetup_setups] at hk
      exact hk
  | setupCancelled hj hstage =>
    simp only [settleSetup_setups, cancel_frame] at hk
    exact .of_modify hj (.fails (by simp [hstage]) (by simp [hstage])) hk
  | setupReleased hj hstage =>
    rw [settleSetup_setups] at hk
    exact .of_modify hj (.fails (by simp [hstage]) (by simp [hstage])) hk
  | setupFails hj hstage =>
    rw [settleSetup_setups] at hk
    refine .of_modify hj (.fails ?_ ?_) hk
    · intro ok h
      rw [h] at hstage
      cases hstage
    · intro channel h
      rw [h] at hstage
      cases hstage
  | loopTries hl hstage _ hours hepoch =>
    exact .of_append (.recovery rfl rfl hl hstage hours hepoch rfl) rfl rfl hk
  | recreates hrecreating => exact .of_append (.recreation rfl rfl hrecreating) rfl rfl hk
  | _ =>
    exact .same (by simpa [setLoop, setDrop, modifyConsumer, closePool, State.connectionLost] using hk)

theorem SetupCases.origin {setup' : Setup} (h : SetupCases s t event k setup') :
    (∃ setup, s.setups[k]? = some setup ∧ setup'.consumer = setup.consumer ∧
      setup'.caller = setup.caller ∧ setup'.pool = setup.pool) ∨
    (k = s.setups.length ∧ Begins s event setup' ∧ setup'.pool = s.channelPool) := by
  cases h with
  | same hk => exact .inl ⟨setup', hk, rfl, rfl, rfl⟩
  | @moves setup stage hk _ heq =>
    refine .inl ⟨setup, hk, ?_⟩
    rw [heq]
    exact ⟨rfl, rfl, rfl⟩
  | begins hk hbegins hpool => exact .inr ⟨hk, hbegins, hpool⟩

/-! ## Loops -/

/-- What a loop makes of its setup. -/
inductive Settles (s : State) (ok : Bool) (loop : Loop) : Loop → Prop
  | recovered (hok : ok = true) : Settles s ok loop { loop with stage := .ended }
  | again (hok : ok = false) (hattempt : loop.attempt < maxAttempts) :
      Settles s ok loop { loop with attempt := loop.attempt + 1, stage := .sleeping }
  | givesUp (hok : ok = false) (hattempt : ¬ loop.attempt < maxAttempts) (hours : s.stillOurs loop) :
      Settles s ok loop { loop with stage := .dropping }
  | fenced (hok : ok = false) (hattempt : ¬ loop.attempt < maxAttempts)
      (hfence : ¬ s.stillOurs loop) : Settles s ok loop { loop with stage := .ended }

/-- What a step can do to a loop. -/
inductive LoopCases (s : State) (l : Nat) (loop' : Loop) : Prop
  | same (hl : s.loops[l]? = some loop')
  | tries {loop} (hl : s.loops[l]? = some loop) (hstage : loop.stage = .sleeping)
      (hours : s.stillOurs loop) (hepoch : s.epoch loop.consumer = loop.knownEpoch)
      (heq : loop' = { loop with knownEpoch := s.epoch loop.consumer + 1, stage := .trying })
  | fenced {loop} (hl : s.loops[l]? = some loop) (hstage : loop.stage = .sleeping)
      (hfence : ¬ (s.stillOurs loop ∧ s.epoch loop.consumer = loop.knownEpoch))
      (heq : loop' = { loop with stage := .ended })
  | settles {loop : Loop} {k : Nat} {setup : Setup} {ok} (hl : s.loops[l]? = some loop) (hk : s.setups[k]? = some setup)
      (hstage : ∀ ok, setup.stage ≠ .settled ok) (hcaller : setup.caller = .recovery l)
      (hsettles : Settles s ok loop loop')
  | drops {loop : Loop} {d : Nat} {drop : Drop} {released} (hl : s.loops[l]? = some loop) (hd : s.drops[d]? = some drop)
      (hstage : drop.stage = .releasing released) (hcause : drop.cause = .recovery l)
      (heq : loop' = { loop with stage := .ended })
  | begins (hl : s.loops.length ≤ l) (hactive : loop'.consumer ∈ s.activeConsumers)
      (hcancelled : ¬ s.cancelled loop'.consumer)
      (heq : loop' = ⟨loop'.consumer, s.channelPool, s.epoch loop'.consumer, 1, .sleeping⟩)

theorem Settles.of_frame {ok : Bool} {loop loop' : Loop} (h : Settles s ok loop loop')
    (hours : ok = false → t.stillOurs loop = s.stillOurs loop) : Settles t ok loop loop' := by
  cases h with
  | recovered hok => exact .recovered hok
  | again hok hattempt => exact .again hok hattempt
  | givesUp hok hattempt h => exact .givesUp hok hattempt ((hours hok).trans h)
  | fenced hok hattempt h => exact .fenced hok hattempt (hours hok ▸ h)

theorem setLoop_loops {j : Nat} {loop loop' : Loop} {stage : LoopStage}
    (hl : s.loops[l]? = some loop) (h : (s.setLoop l stage).loops[j]? = some loop') :
    s.loops[j]? = some loop' ∨ (l = j ∧ loop' = { loop with stage }) := by
  obtain ⟨a, ha, rfl⟩ := List.getElem?_modify_cases h
  split
  · next heq =>
    subst heq
    cases ha.symm.trans hl
    exact .inr ⟨rfl, rfl⟩
  · exact .inl ha

theorem attemptFails_loops {j : Nat} {loop loop' : Loop} (hl : s.loops[l]? = some loop)
    (h : (s.attemptFails l loop).loops[j]? = some loop') :
    s.loops[j]? = some loop' ∨ (l = j ∧ Settles s false loop loop') := by
  unfold attemptFails at h
  split at h
  · next hattempt =>
    rcases List.getElem?_set_cases h with ⟨heq, rfl⟩ | ⟨_, h⟩
    · exact .inr ⟨heq, .again rfl hattempt⟩
    · exact .inl h
  · next hattempt =>
    split at h
    · next hours =>
      rcases setLoop_loops hl h with h | ⟨heq, rfl⟩
      · exact .inl h
      · exact .inr ⟨heq, .givesUp rfl hattempt hours⟩
    · next hfence =>
      rcases setLoop_loops hl h with h | ⟨heq, rfl⟩
      · exact .inl h
      · exact .inr ⟨heq, .fenced rfl hattempt hfence⟩

theorem settleSetup_loops {setup : Setup} {ok : Bool} {loop' : Loop}
    (h : (s.settleSetup k setup ok).loops[l]? = some loop') :
    s.loops[l]? = some loop' ∨ ∃ loop, s.loops[l]? = some loop ∧ setup.caller = .recovery l ∧
      Settles s ok loop loop' := by
  unfold settleSetup at h
  dsimp only at h
  split at h
  · left
    split at h <;> exact h
  · next l' hcaller =>
    split at h
    · exact .inl h
    · next loop hl =>
      split at h
      · next hok =>
        rcases setLoop_loops hl h with h | ⟨rfl, rfl⟩
        · exact .inl h
        · exact .inr ⟨loop, hl, hcaller, .recovered hok⟩
      · next hok =>
        cases Bool.eq_false_iff.mpr hok
        rcases attemptFails_loops hl h with h | ⟨rfl, hsettles⟩
        · exact .inl h
        · exact .inr ⟨loop, hl, hcaller, hsettles.of_frame fun _ => rfl⟩
  · exact .inl h

/-- A loop of a setup that settles in `t`, when `t` has the loops and the registry of `s`. -/
theorem LoopCases.of_settleSetup {setup : Setup} {ok : Bool} {loop' : Loop}
    (hk : s.setups[k]? = some setup) (hstage : ∀ ok, setup.stage ≠ .settled ok)
    (hloops : t.loops = s.loops) (hours : ok = false → ∀ loop, s.stillOurs loop = t.stillOurs loop)
    (h : (t.settleSetup k setup ok).loops[l]? = some loop') : LoopCases s l loop' := by
  rcases settleSetup_loops h with h | ⟨loop, hl, hcaller, hsettles⟩
  · exact .same (hloops ▸ h)
  · exact .settles (hloops ▸ hl) hk hstage hcaller (hsettles.of_frame fun hok => hours hok loop)

theorem handleConsumerLoss_loops {consumer : Nat} {loop' : Loop}
    (h : (s.handleConsumerLoss consumer).loops[l]? = some loop') :
    s.loops[l]? = some loop' ∨ (s.loops.length ≤ l ∧ consumer ∈ s.activeConsumers ∧
      ¬ s.cancelled consumer ∧
      loop' = ⟨consumer, s.channelPool, s.epoch consumer, 1, .sleeping⟩) := by
  unfold handleConsumerLoss at h
  split at h
  · next hours =>
    rcases List.getElem?_append_cases h with h | ⟨rfl, rfl⟩
    · exact .inl h
    · exact .inr ⟨Nat.le_refl _, hours.1, by simpa using hours.2, rfl⟩
  · exact .inl h

theorem channelCloses_loops {channel : Nat} {c : Channel} {loop' : Loop}
    (h : (s.channelCloses channel c).loops[l]? = some loop') :
    s.loops[l]? = some loop' ∨ (s.loops.length ≤ l ∧ c.owner ∈ s.activeConsumers ∧
      ¬ s.cancelled c.owner ∧
      loop' = ⟨c.owner, s.channelPool, s.epoch c.owner, 1, .sleeping⟩) := by
  rcases channelCloses_cases s channel c with heq | ⟨_, _, hactive, hcancelled, heq⟩
  · rw [heq] at h
    exact .inl h
  · rw [heq] at h
    rcases Nat.lt_or_ge l s.loops.length with hlt | hge
    · rw [List.getElem?_append_left hlt] at h
      exact .inl h
    · rw [List.getElem?_append_right hge] at h
      exact .inr ⟨hge, hactive, hcancelled, List.eq_of_mem_replicate (List.mem_of_getElem? h)⟩

theorem Steps.loops (h : Steps s event t) {loop' : Loop} (hl : t.loops[l]? = some loop') :
    LoopCases s l loop' := by
  cases h with
  | @setupContinues k setup channel hk hstage =>
    have hunsettled : ∀ ok, setup.stage ≠ .settled ok := by simp [hstage]
    unfold State.setupContinues at hl
    split at hl
    · exact .same (by simpa [setSetup] using hl)
    · split at hl
      · exact .of_settleSetup hk hunsettled rfl (fun _ _ => rfl) hl
      · split at hl <;> exact .same hl
  | @setupCompletes k setup channel consumerTag hk hstage =>
    have hunsettled : ∀ ok, setup.stage ≠ .settled ok := by simp [hstage]
    unfold State.setupCompletes at hl
    split at hl
    · exact .same hl
    · have hloops : (s.track setup.consumer channel consumerTag).loops = s.loops := by simp
      refine .of_settleSetup hk hunsettled hloops (fun hok => ?_) hl
      cases hok
  | setupCancelled hk hstage =>
    refine .of_settleSetup hk (by simp [hstage]) (by simp) (fun _ loop => ?_) hl
    simp [stillOurs, cancelled]
  | setupReleased hk hstage =>
    exact .of_settleSetup hk (by simp [hstage]) rfl (fun _ _ => rfl) hl
  | @setupFails k setup hk hstage =>
    refine .of_settleSetup hk (fun ok h => ?_) rfl (fun _ _ => rfl) hl
    rw [h] at hstage
    cases hstage
  | @loopTries j loop hj hstage _ hours hepoch =>
    rcases List.getElem?_set_cases hl with ⟨rfl, rfl⟩ | ⟨_, hl⟩
    · exact .tries hj hstage hours hepoch rfl
    · exact .same hl
  | loopEnds hj hstage _ hfence =>
    rcases setLoop_loops hj hl with hl | ⟨rfl, rfl⟩
    · exact .same hl
    · exact .fenced hj hstage hfence rfl
  | brokerCancels =>
    rcases handleConsumerLoss_loops hl with hl | ⟨hge, hactive, hcancelled, rfl⟩
    · exact .same hl
    · exact .begins hge hactive hcancelled rfl
  | channelCloses =>
    rcases channelCloses_loops hl with hl | ⟨hge, hactive, hcancelled, rfl⟩
    · exact .same hl
    · exact .begins hge hactive hcancelled rfl
  | @dropped d drop released hd hstage =>
    unfold State.dropped at hl
    dsimp only at hl
    split at hl
    · exact .same hl
    · next j hcause =>
      obtain ⟨a, ha, rfl⟩ := List.getElem?_modify_cases hl
      split
      · next heq =>
        subst heq
        exact .drops ha hd hstage hcause rfl
      · exact .same ha
    · exact .same hl
  | _ =>
    exact .same (by
      simpa [setDrop, setSetup, modifyConsumer, dropConsumer, closePool, State.connectionLost,
        State.channelOpened, State.consumeOk] using hl)

theorem Settles.kept {ok : Bool} {loop loop' : Loop} (h : Settles s ok loop loop') :
    loop'.consumer = loop.consumer ∧ loop'.ownedPool = loop.ownedPool := by
  cases h <;> exact ⟨rfl, rfl⟩

theorem LoopCases.origin {loop' : Loop} (h : LoopCases s l loop') :
    (∃ loop, s.loops[l]? = some loop ∧ loop'.consumer = loop.consumer ∧
      loop'.ownedPool = loop.ownedPool) ∨
    (s.loops.length ≤ l ∧ loop'.consumer ∈ s.activeConsumers ∧
      loop'.ownedPool = s.channelPool) := by
  cases h with
  | same hl => exact .inl ⟨loop', hl, rfl, rfl⟩
  | @tries loop hl _ _ _ heq | @fenced loop hl _ _ heq | @drops loop _ _ _ hl _ _ _ heq =>
    refine .inl ⟨loop, hl, ?_⟩
    rw [heq]
    exact ⟨rfl, rfl⟩
  | @settles loop _ _ _ hl _ _ _ hsettles => exact .inl ⟨loop, hl, hsettles.kept⟩
  | begins hge hactive _ heq =>
    refine .inr ⟨hge, hactive, ?_⟩
    rw [heq]

/-! ## Drops -/

/-- The consumer is still to be removed. -/
def DropStage.waits : DropStage → Bool
  | .draining | .drained => true
  | _ => false

/-- A drop begins. -/
inductive Dropping (s t : State) (drop : Drop) : Prop
  | subscribe {k : Nat} {setup : Setup} (hcause : drop.cause = .subscribe)
      (hk : s.setups[k]? = some setup) (hstage : ∀ ok, setup.stage ≠ .settled ok)
      (hcaller : setup.caller = .subscribe) (hconsumer : drop.consumer = setup.consumer)
  | recovery {l : Nat} {loop : Loop} (hcause : drop.cause = .recovery l)
      (hl : s.loops[l]? = some loop) (hours : s.stillOurs loop)
      (hconsumer : drop.consumer = loop.consumer) (hpool : t.channelPool = s.channelPool)
  | unsubscribe {u : Nat} (hcause : drop.cause = .unsubscribe u)
      (hu : t.unsubscribes[u]? = some ⟨drop.consumer, .dropping⟩)

/-- What a step can do to a drop. -/
inductive DropCases (s t : State) (d : Nat) (drop' : Drop) : Prop
  | same (hd : s.drops[d]? = some drop')
  | drained {drop : Drop} (hd : s.drops[d]? = some drop) (hstage : drop.stage = .draining)
      (heq : drop' = { drop with stage := .drained })
  | removes {drop : Drop} (hd : s.drops[d]? = some drop) (hstage : drop.stage = .drained)
      (heq : drop' = { drop with stage := .terminating })
      (hremoved : t.activeConsumers = s.activeConsumers.erase drop.consumer)
  | releases {drop : Drop} {released} (hd : s.drops[d]? = some drop)
      (hstage : drop.stage = .drained ∨ drop.stage = .terminating)
      (heq : drop' = { drop with stage := .releasing released })
      (hremoved : drop.stage = .drained →
        t.activeConsumers = s.activeConsumers.erase drop.consumer)
      (hreleased : ∀ pool, t.channelPool = some pool →
        t.dedicatedChannels.get? (pool, drop.consumer) = none)
  | done {drop : Drop} {released} (hd : s.drops[d]? = some drop)
      (hstage : drop.stage = .releasing released) (heq : drop' = { drop with stage := .done })
  | begins (hd : d = s.drops.length) (hwaits : drop'.stage.waits) (hdropping : Dropping s t drop')

theorem setDrop_drops {j : Nat} {drop drop' : Drop} {stage : DropStage}
    (hd : s.drops[d]? = some drop) (h : (s.setDrop d stage).drops[j]? = some drop') :
    s.drops[j]? = some drop' ∨ (d = j ∧ drop' = { drop with stage }) := by
  obtain ⟨a, ha, rfl⟩ := List.getElem?_modify_cases h
  split
  · next heq =>
    subst heq
    cases ha.symm.trans hd
    exact .inr ⟨rfl, rfl⟩
  · exact .inl ha

theorem dropped_drops {drop : Drop} : (s.dropped d drop).drops = (s.setDrop d .done).drops := by
  unfold State.dropped
  dsimp only
  split <;> rfl

theorem dropConsumer_drops {consumer : Nat} {cause : Cause} {drop' : Drop}
    (h : (s.dropConsumer consumer cause).drops[d]? = some drop') :
    s.drops[d]? = some drop' ∨ (d = s.drops.length ∧ drop'.consumer = consumer ∧
      drop'.cause = cause ∧ drop'.stage.waits) := by
  rcases List.getElem?_append_cases h with h | ⟨rfl, rfl⟩
  · exact .inl h
  · refine .inr ⟨rfl, rfl, rfl, ?_⟩
    dsimp only
    split <;> rfl

/-- A drop of a setup that settles in `s`, when `s` has the setups, the loops and the registry of
`s₀`. -/
theorem DropCases.of_settleSetup {s₀ : State} {setup : Setup} {ok : Bool} {drop' : Drop}
    (hk : s₀.setups[k]? = some setup) (hstage : ∀ ok, setup.stage ≠ .settled ok)
    (hdrops : s.drops = s₀.drops) (hloops : s.loops = s₀.loops)
    (hours : ok = false → ∀ loop, s.stillOurs loop = s₀.stillOurs loop)
    (hpool : t.channelPool = s₀.channelPool) (h : (s.settleSetup k setup ok).drops[d]? = some drop') : DropCases s₀ t d drop' := by
  unfold settleSetup at h
  dsimp only at h
  split at h
  · next hcaller =>
    split at h
    · exact .same (hdrops ▸ h)
    · rcases dropConsumer_drops h with h | ⟨rfl, hconsumer, hcause, hwaits⟩
      · exact .same (hdrops ▸ h)
      · refine .begins ?_ hwaits (.subscribe hcause hk hstage hcaller hconsumer)
        rw [← hdrops]
        rfl
  · next l hcaller =>
    split at h
    · exact .same (hdrops ▸ h)
    · next loop hl =>
      split at h
      · exact .same (hdrops ▸ h)
      · next hok =>
        have hours := hours (Bool.eq_false_iff.mpr hok)
        unfold attemptFails at h
        split at h
        · exact .same (hdrops ▸ h)
        · split at h
          · next hfence =>
            rcases dropConsumer_drops h with h | ⟨rfl, hconsumer, hcause, hwaits⟩
            · exact .same (hdrops ▸ h)
            · have hfence : s.stillOurs loop := hfence
              have hl : s.loops[l]? = some loop := hl
              refine .begins ?_ hwaits
                (.recovery hcause (hloops ▸ hl) (hours loop ▸ hfence) hconsumer hpool)
              rw [← hdrops]
              rfl
          · exact .same (hdrops ▸ h)
  · exact .same (hdrops ▸ h)

theorem unsubscribe_cases (s : State) (consumer : Nat) (c : Consumer) :
    (∃ channel consumerTag, c.channel = some channel ∧ c.consumerTag = some consumerTag ∧
      s.unsubscribe consumer c =
        { s.modifyConsumer consumer fun c => { c with cancelled := true } with
          unsubscribes := s.unsubscribes ++
            [Unsubscribe.mk consumer (.cancelling channel consumerTag)] }) ∨
    s.unsubscribe consumer c =
      State.dropConsumer { s.modifyConsumer consumer fun c => { c with cancelled := true } with
        unsubscribes := s.unsubscribes ++ [Unsubscribe.mk consumer .dropping] } consumer
        (.unsubscribe s.unsubscribes.length) := by
  unfold State.unsubscribe
  dsimp only
  split
  · next channel consumerTag hchannel htag =>
    exact .inl ⟨channel, consumerTag, hchannel, htag, rfl⟩
  · exact .inr rfl

/-- The registry without the consumer of a drop. -/
def State.removed (s : State) (drop : Drop) : State :=
  { s with
    consumersByTag := s.consumersByTag.filter fun _ owner => owner ≠ drop.consumer
    activeConsumers := s.activeConsumers.erase drop.consumer
    removals :=
      if drop.consumer ∈ s.activeConsumers then
        s.removals ++ [Removal.mk drop.consumer drop.cause s.channelPool]
      else s.removals }

theorem removeConsumer_of_workers (s : State) (d : Nat) (drop : Drop) :
    s.removeConsumer d drop true = (s.removed drop).setDrop d .terminating := rfl

theorem removeConsumer_of_no_workers (s : State) (d : Nat) (drop : Drop) :
    s.removeConsumer d drop false =
      ((s.removed drop).releaseDedicatedChannel drop.consumer).2.setDrop d
        (.releasing ((s.removed drop).releaseDedicatedChannel drop.consumer).1) := rfl

theorem removeConsumer_registry (s : State) (d : Nat) (drop : Drop) (workers : Bool) :
    let t := s.removeConsumer d drop workers
    t.activeConsumers = (s.removed drop).activeConsumers ∧
    t.consumersByTag = (s.removed drop).consumersByTag ∧ t.removals = (s.removed drop).removals := by
  cases workers with
  | true => exact ⟨rfl, rfl, rfl⟩
  | false =>
    rw [removeConsumer_of_no_workers]
    simp [setDrop]

theorem Steps.drops (h : Steps s event t) {drop' : Drop} (hd : t.drops[d]? = some drop') :
    DropCases s t d drop' := by
  cases h with
  | @unsubscribe consumerTag consumer c htag hactive hc =>
    rcases unsubscribe_cases s consumer c with ⟨channel, consumerTag, _, _, heq⟩ | heq
    · rw [heq] at hd
      exact .same hd
    · rw [heq] at hd ⊢
      rcases dropConsumer_drops hd with hd | ⟨hd, hconsumer, hcause, hwaits⟩
      · exact .same hd
      · refine .begins hd hwaits (.unsubscribe hcause ?_)
        rw [hconsumer]
        exact List.getElem?_concat_length
  | @unsubscribeCancelled u consumer channel consumerTag hu =>
    rcases dropConsumer_drops hd with hd | ⟨hd, hconsumer, hcause, hwaits⟩
    · exact .same (by simpa [setUnsubscribe] using hd)
    · refine .begins (by simpa [setUnsubscribe] using hd) hwaits (.unsubscribe hcause ?_)
      rw [hconsumer]
      have hu : (s.cancel channel consumerTag).unsubscribes[u]? =
          some ⟨consumer, .cancelling channel consumerTag⟩ := by simpa using hu
      exact (List.getElem?_modify_of hu).trans (by rw [if_pos rfl])
  | @setupContinues k setup channel hk hstage =>
    have hunsettled : ∀ ok, setup.stage ≠ .settled ok := by simp [hstage]
    unfold State.setupContinues at hd
    split at hd
    · exact .same (by simpa [setSetup] using hd)
    · split at hd
      · exact .of_settleSetup hk hunsettled rfl rfl (fun _ _ => rfl) (by simp) hd
      · split at hd <;> exact .same hd
  | @setupCompletes k setup channel consumerTag hk hstage =>
    have hunsettled : ∀ ok, setup.stage ≠ .settled ok := by simp [hstage]
    unfold State.setupCompletes at hd
    split at hd
    · exact .same hd
    · refine .of_settleSetup hk hunsettled (by simp) (by simp) (fun hok => ?_) (by simp) hd
      cases hok
  | setupCancelled hk hstage =>
    refine .of_settleSetup hk (by simp [hstage]) (by simp) (by simp) (fun _ loop => ?_) (by simp) hd
    simp [stillOurs, cancelled]
  | setupReleased hk hstage =>
    exact .of_settleSetup hk (by simp [hstage]) rfl rfl (fun _ _ => rfl) (by simp) hd
  | @setupFails k setup hk hstage =>
    refine .of_settleSetup hk (fun ok h => ?_) rfl rfl (fun _ _ => rfl) (by simp) hd
    rw [h] at hstage
    cases hstage
  | @handled consumer c hc hflight =>
    unfold State.handled at hd
    dsimp only at hd
    split at hd
    · rw [List.getElem?_map] at hd
      obtain ⟨drop, hdrop, heq⟩ := Option.map_eq_some_iff.mp hd
      split at heq
      · next hdrains => exact .drained hdrop hdrains.2 heq.symm
      · exact .same (heq ▸ hdrop)
    · exact .same hd
  | drainTimesOut hdrop hstage =>
    rcases setDrop_drops hdrop hd with hd | ⟨rfl, rfl⟩
    · exact .same hd
    · exact .drained hdrop hstage rfl
  | @removeConsumer j drop workers hdrop hstage =>
    have hremoved := (removeConsumer_registry s j drop workers).1
    cases workers with
    | true =>
      rw [removeConsumer_of_workers] at hd
      rcases setDrop_drops hdrop hd with hd | ⟨rfl, rfl⟩
      · exact .same hd
      · exact .removes hdrop hstage rfl hremoved
    | false =>
      rw [removeConsumer_of_no_workers] at hd hremoved ⊢
      have hdrops : ((s.removed drop).releaseDedicatedChannel drop.consumer).2.drops = s.drops := by
        simp [removed]
      have hpools : ((s.removed drop).releaseDedicatedChannel drop.consumer).2.channelPool =
          s.channelPool := by simp [removed]
      rcases setDrop_drops (hdrops ▸ hdrop) hd with hd | ⟨rfl, rfl⟩
      · exact .same (hdrops ▸ hd)
      · refine .releases hdrop (.inl hstage) rfl (fun _ => hremoved) fun pool hpool => ?_
        exact get?_releaseDedicatedChannel (hpools ▸ hpool)
  | @terminated _ drop hdrop hstage =>
    have hdrops : (s.releaseDedicatedChannel drop.consumer).2.drops = s.drops := by simp
    have hpools : (s.releaseDedicatedChannel drop.consumer).2.channelPool = s.channelPool := by
      simp
    rcases setDrop_drops (hdrops ▸ hdrop) hd with hd | ⟨rfl, rfl⟩
    · exact .same (hdrops ▸ hd)
    · refine .releases hdrop (.inr hstage) rfl (by simp [hstage]) fun pool hpool => ?_
      exact get?_releaseDedicatedChannel (hpools ▸ hpool)
  | @dropped j drop released hdrop hstage =>
    rw [dropped_drops] at hd
    rcases setDrop_drops hdrop hd with hd | ⟨rfl, rfl⟩
    · exact .same hd
    · exact .done hdrop hstage rfl
  | _ =>
    exact .same (by
      simpa [setLoop, setSetup, modifyConsumer, closePool, State.connectionLost,
        State.channelOpened, State.consumeOk, tryAgain] using hd)

theorem DropCases.origin {drop' : Drop} (h : DropCases s t d drop') :
    (∃ drop, s.drops[d]? = some drop ∧ drop'.consumer = drop.consumer ∧
      drop'.cause = drop.cause) ∨
    (d = s.drops.length ∧ drop'.stage.waits ∧ Dropping s t drop') := by
  cases h with
  | same hd => exact .inl ⟨drop', hd, rfl, rfl⟩
  | @drained drop hd _ heq | @removes drop hd _ heq | @releases drop _ hd _ heq
  | @done drop _ hd _ heq =>
    refine .inl ⟨drop, hd, ?_⟩
    rw [heq]
    exact ⟨rfl, rfl⟩
  | begins hd hwaits hdropping => exact .inr ⟨hd, hwaits, hdropping⟩

/-! ## Unsubscribes -/

/-- What a step can do to a call of `unsubscribe`. -/
inductive UnsubscribeCases (s t : State) (u : Nat) (unsubscribe' : Unsubscribe) : Prop
  | same (hu : s.unsubscribes[u]? = some unsubscribe')
  | begins (hu : u = s.unsubscribes.length) (hactive : unsubscribe'.consumer ∈ s.activeConsumers)
      (hstage : unsubscribe'.stage ≠ .resolved)
  | cancelled {unsubscribe : Unsubscribe} (hu : s.unsubscribes[u]? = some unsubscribe)
      (heq : unsubscribe' = { unsubscribe with stage := .dropping })
  | resolved {unsubscribe : Unsubscribe} {d : Nat} {drop : Drop} {released}
      (hu : s.unsubscribes[u]? = some unsubscribe)
      (heq : unsubscribe' = { unsubscribe with stage := .resolved })
      (hd : s.drops[d]? = some drop) (hstage : drop.stage = .releasing released)
      (hcause : drop.cause = .unsubscribe u)
      (hdone : t.drops[d]? = some { drop with stage := .done })

theorem Steps.unsubscribes (h : Steps s event t) {u : Nat} {unsubscribe' : Unsubscribe}
    (hu : t.unsubscribes[u]? = some unsubscribe') : UnsubscribeCases s t u unsubscribe' := by
  cases h with
  | @unsubscribe consumerTag consumer c htag hactive =>
    rcases unsubscribe_cases s consumer c with ⟨channel, consumerTag, _, _, heq⟩ | heq
    all_goals
      rw [heq] at hu
      rcases List.getElem?_append_cases hu with hu | ⟨hnew, rfl⟩
      · exact .same hu
      · exact .begins hnew hactive nofun
  | @unsubscribeCancelled j consumer channel consumerTag hj =>
    obtain ⟨a, ha, rfl⟩ := List.getElem?_modify_cases hu
    have ha : s.unsubscribes[u]? = some a := by simpa using ha
    split
    · exact .cancelled ha rfl
    · exact .same ha
  | @dropped d drop released hd hstage =>
    have hdone : (s.setDrop d .done).drops[d]? = some { drop with stage := .done } :=
      (List.getElem?_modify_of hd).trans (by rw [if_pos rfl])
    unfold State.dropped at hu
    split at hu
    · exact .same hu
    · exact .same hu
    · next u' hcause =>
      obtain ⟨a, ha, rfl⟩ := List.getElem?_modify_cases hu
      split
      · next heq =>
        subst heq
        exact .resolved ha rfl hd hstage hcause (dropped_drops ▸ hdone)
      · exact .same ha
  | _ =>
    exact .same (by
      simpa [setLoop, setDrop, setSetup, modifyConsumer, State.channelOpened, State.consumeOk,
        tryAgain, closePool, State.connectionLost] using hu)

/-! ## What is kept -/

theorem Steps.setups_length (h : Steps s event t) : s.setups.length ≤ t.setups.length := by
  cases h with
  | subscribe | loopTries | recreates => simp [runSetup, modifyConsumer, tryAgain]
  | setupContinues =>
    unfold State.setupContinues
    split
    · simp [setSetup]
    · split
      · simp
      · split <;> simp [setSetup]
  | setupCompletes =>
    unfold State.setupCompletes
    split <;> simp [setSetup]
  | _ =>
    simp [setLoop, setDrop, setSetup, modifyConsumer, closePool, State.connectionLost,
      State.channelOpened, State.consumeOk]

/-- A setup stays, and keeps all but its stage. -/
theorem Steps.setup_kept (h : Steps s event t) {setup : Setup} (hk : s.setups[k]? = some setup) :
    t.setups[k]? = some setup ∨
      ∃ stage, StageMove s t setup stage ∧ t.setups[k]? = some { setup with stage } := by
  have hlt := Nat.lt_of_lt_of_le (List.getElem?_eq_some_iff.mp hk).1 h.setups_length
  have ht : t.setups[k]? = some t.setups[k] := List.getElem?_eq_getElem hlt
  cases h.setups ht with
  | same hk' =>
    rw [hk] at hk'
    exact .inl (hk'.symm ▸ ht)
  | moves hk' hmove heq =>
    rw [hk] at hk'
    cases hk'
    exact .inr ⟨_, hmove, heq ▸ ht⟩
  | begins heq =>
    have hlt := (List.getElem?_eq_some_iff.mp hk).1
    omega

theorem attemptFails_loops_length (loop : Loop) :
    (s.attemptFails l loop).loops.length = s.loops.length := by
  unfold attemptFails
  split
  · simp
  · split <;> simp [setLoop, dropConsumer]

@[simp] theorem settleSetup_loops_length (setup : Setup) (ok : Bool) :
    (s.settleSetup k setup ok).loops.length = s.loops.length := by
  unfold settleSetup
  dsimp only
  split
  · split <;> simp [setSetup, modifyConsumer, dropConsumer]
  · split
    · simp [setSetup]
    · split
      · simp [setSetup, setLoop, emit]
      · exact attemptFails_loops_length _
  · simp [setSetup]

theorem handleConsumerLoss_loops_length (hloops : t.loops = s.loops) (consumer : Nat) :
    s.loops.length ≤ (t.handleConsumerLoss consumer).loops.length := by
  unfold handleConsumerLoss
  split <;> simp [emit, hloops]

theorem channelCloses_loops_length (channel : Nat) (c : Channel) :
    s.loops.length ≤ (s.channelCloses channel c).loops.length := by
  rcases channelCloses_cases s channel c with heq | ⟨_, _, _, _, heq⟩ <;> simp [heq]

theorem Steps.loops_length (h : Steps s event t) : s.loops.length ≤ t.loops.length := by
  cases h with
  | setupContinues =>
    unfold State.setupContinues
    split
    · simp [setSetup]
    · split
      · simp
      · split <;> simp [setSetup]
  | setupCompletes =>
    unfold State.setupCompletes
    split <;> simp [setSetup]
  | brokerCancels =>
    apply handleConsumerLoss_loops_length
    rfl
  | channelCloses => exact channelCloses_loops_length _ _
  | dropped =>
    unfold State.dropped
    dsimp only
    split <;> simp [setDrop, setLoop, emit, setUnsubscribe]
  | _ =>
    simp [setLoop, setDrop, setSetup, modifyConsumer, closePool, State.connectionLost,
      State.channelOpened, State.consumeOk, tryAgain]

/-- A loop stays, with its consumer and its pool. -/
theorem Steps.loop_kept (h : Steps s event t) {loop : Loop} (hl : s.loops[l]? = some loop) :
    ∃ loop', t.loops[l]? = some loop' ∧ loop'.consumer = loop.consumer ∧
      loop'.ownedPool = loop.ownedPool := by
  have hlt := (List.getElem?_eq_some_iff.mp hl).1
  have ht : t.loops[l]? = some (t.loops.get ⟨l, Nat.lt_of_lt_of_le hlt h.loops_length⟩) :=
    List.getElem?_eq_getElem _
  refine ⟨_, ht, ?_⟩
  rcases (h.loops ht).origin with ⟨loop₀, hl₀, hkept⟩ | ⟨hge, _⟩
  · cases hl₀.symm.trans hl
    exact hkept
  · exact absurd hlt (Nat.not_lt.mpr hge)

@[simp] theorem dropConsumer_drops_length (consumer : Nat) (cause : Cause) :
    (s.dropConsumer consumer cause).drops.length = s.drops.length + 1 := by
  simp [dropConsumer]

theorem settleSetup_drops_length (setup : Setup) (ok : Bool) :
    s.drops.length ≤ (s.settleSetup k setup ok).drops.length := by
  unfold settleSetup
  dsimp only
  split
  · split <;> simp [setSetup, modifyConsumer]
  · split
    · simp [setSetup]
    · split
      · simp [setSetup, setLoop, emit]
      · unfold attemptFails
        split
        · simp [setSetup]
        · split <;> simp [setSetup, setLoop]
  · simp [setSetup]

theorem Steps.drops_length (h : Steps s event t) : s.drops.length ≤ t.drops.length := by
  cases h with
  | unsubscribe =>
    unfold State.unsubscribe
    dsimp only
    split <;> simp [modifyConsumer]
  | unsubscribeCancelled => simp [State.unsubscribeCancelled, setUnsubscribe]
  | setupContinues =>
    unfold State.setupContinues
    split
    · simp [setSetup]
    · split
      · exact settleSetup_drops_length _ _
      · split <;> simp [setSetup]
  | @setupCompletes _ setup channel consumerTag =>
    unfold State.setupCompletes
    split
    · simp [setSetup]
    · have hdrops : (s.track setup.consumer channel consumerTag).drops = s.drops := by simp
      rw [← hdrops]
      exact settleSetup_drops_length _ _
  | @setupCancelled _ _ channel consumerTag =>
    have hdrops : (s.cancel channel consumerTag).drops = s.drops := by simp
    rw [← hdrops]
    exact settleSetup_drops_length _ _
  | setupReleased | setupFails => exact settleSetup_drops_length _ _
  | handled =>
    unfold State.handled
    dsimp only
    split <;> simp [modifyConsumer]
  | @removeConsumer d drop workers =>
    cases workers with
    | true => simp [removeConsumer_of_workers, setDrop, removed]
    | false => simp [removeConsumer_of_no_workers, setDrop, removed]
  | terminated => simp [State.terminated, setDrop]
  | dropped => simp [dropped_drops, setDrop]
  | _ =>
    simp [setLoop, setDrop, setSetup, modifyConsumer, closePool, State.connectionLost,
      State.channelOpened, State.consumeOk, tryAgain]

theorem Steps.drop_cases (h : Steps s event t) {drop : Drop} (hd : s.drops[d]? = some drop) :
    ∃ drop', t.drops[d]? = some drop' ∧ DropCases s t d drop' := by
  have hlt := (List.getElem?_eq_some_iff.mp hd).1
  have ht : t.drops[d]? = some (t.drops.get ⟨d, Nat.lt_of_lt_of_le hlt h.drops_length⟩) :=
    List.getElem?_eq_getElem _
  exact ⟨_, ht, h.drops ht⟩

/-- A drop stays, with its consumer and its cause. -/
theorem Steps.drop_kept (h : Steps s event t) {drop : Drop} (hd : s.drops[d]? = some drop) :
    ∃ drop', t.drops[d]? = some drop' ∧ drop'.consumer = drop.consumer ∧
      drop'.cause = drop.cause := by
  have hlt := (List.getElem?_eq_some_iff.mp hd).1
  obtain ⟨_, ht, _⟩ := h.drop_cases hd
  refine ⟨_, ht, ?_⟩
  rcases (h.drops ht).origin with ⟨drop₀, hd₀, hkept⟩ | ⟨rfl, _⟩
  · cases hd₀.symm.trans hd
    exact hkept
  · exact absurd hlt (Nat.lt_irrefl _)

theorem Steps.unsubscribes_length (h : Steps s event t) :
    s.unsubscribes.length ≤ t.unsubscribes.length := by
  cases h with
  | @unsubscribe _ consumer c =>
    rcases unsubscribe_cases s consumer c with ⟨_, _, _, _, heq⟩ | heq <;> simp [heq, dropConsumer]
  | unsubscribeCancelled => simp [State.unsubscribeCancelled, setUnsubscribe, dropConsumer]
  | dropped =>
    unfold State.dropped
    dsimp only
    split <;> simp [setDrop, setLoop, emit, setUnsubscribe]
  | _ =>
    simp [setLoop, setDrop, setSetup, modifyConsumer, closePool, State.connectionLost,
      State.channelOpened, State.consumeOk, tryAgain]

/-- A call of `unsubscribe` stays, with its consumer. -/
theorem Steps.unsubscribe_kept (h : Steps s event t) {u : Nat} {unsubscribe : Unsubscribe}
    (hu : s.unsubscribes[u]? = some unsubscribe) :
    ∃ unsubscribe', t.unsubscribes[u]? = some unsubscribe' ∧
      unsubscribe'.consumer = unsubscribe.consumer := by
  have hlt := (List.getElem?_eq_some_iff.mp hu).1
  have ht : t.unsubscribes[u]? =
      some (t.unsubscribes.get ⟨u, Nat.lt_of_lt_of_le hlt h.unsubscribes_length⟩) :=
    List.getElem?_eq_getElem _
  refine ⟨_, ht, ?_⟩
  cases h.unsubscribes ht with
  | same hu₀ =>
    cases hu₀.symm.trans hu
    rfl
  | begins heq =>
    rw [heq] at hlt
    exact absurd hlt (Nat.lt_irrefl _)
  | cancelled hu₀ heq | resolved hu₀ heq =>
    cases hu₀.symm.trans hu
    rw [heq]

/-! ## Removals and reports -/

theorem Steps.removals (h : Steps s event t) {removal : Removal} (hmem : removal ∈ t.removals) :
    removal ∈ s.removals ∨ ∃ (d : Nat) (drop : Drop), s.drops[d]? = some drop ∧
      drop.stage = .drained ∧ drop.consumer ∈ s.activeConsumers ∧
      removal = ⟨drop.consumer, drop.cause, s.channelPool⟩ := by
  cases h with
  | @removeConsumer d drop workers hd hstage =>
    rw [(removeConsumer_registry s d drop workers).2.2, removed] at hmem
    dsimp only at hmem
    split at hmem
    · next hactive =>
      rcases List.mem_append.mp hmem with hmem | hmem
      · exact .inl hmem
      · exact .inr ⟨d, drop, hd, hstage, hactive, List.mem_singleton.mp hmem⟩
    · exact .inl hmem
  | _ =>
    left
    simpa [setLoop, setDrop, setSetup, modifyConsumer, State.channelOpened, State.consumeOk,
      tryAgain, closePool, State.connectionLost] using hmem

theorem settleSetup_lost {setup : Setup} {ok : Bool} {consumer : Nat}
    (h : .consumerLost consumer ∈ (s.settleSetup k setup ok).emitted) :
    .consumerLost consumer ∈ s.emitted := by
  unfold settleSetup at h
  dsimp only at h
  split at h
  · split at h <;> exact h
  · split at h
    · exact h
    · split at h
      · simpa [emit, setLoop, setSetup] using h
      · simpa [setSetup] using h
  · exact h

/-- `'consumerLost'` is what a loop reports when its drop is done. -/
theorem Steps.lost (h : Steps s event t) {consumer : Nat}
    (hmem : .consumerLost consumer ∈ t.emitted) :
    .consumerLost consumer ∈ s.emitted ∨ ∃ (d : Nat) (drop : Drop) (l : Nat),
      s.drops[d]? = some drop ∧ drop.consumer = consumer ∧ drop.cause = .recovery l := by
  cases h with
  | setupContinues =>
    left
    unfold State.setupContinues at hmem
    split at hmem
    · simpa [setSetup] using hmem
    · split at hmem
      · exact settleSetup_lost hmem
      · split at hmem <;> exact hmem
  | setupCompletes =>
    left
    unfold State.setupCompletes at hmem
    split at hmem
    · exact hmem
    · simpa using settleSetup_lost hmem
  | setupCancelled => exact .inl (by simpa using settleSetup_lost hmem)
  | setupReleased | setupFails => exact .inl (settleSetup_lost hmem)
  | brokerCancels =>
    left
    unfold handleConsumerLoss at hmem
    split at hmem
    · simpa [emit] using hmem
    · exact hmem
  | @channelCloses channel c =>
    left
    rcases channelCloses_cases s channel c with heq | ⟨_, _, _, _, heq⟩
    · rw [heq] at hmem
      exact hmem
    · rw [heq] at hmem
      simpa using hmem
  | @dropped d drop released hd =>
    unfold State.dropped at hmem
    dsimp only at hmem
    split at hmem
    · exact .inl hmem
    · next l hcause =>
      rcases List.mem_append.mp hmem with hmem | hmem
      · exact .inl hmem
      · cases List.mem_singleton.mp hmem
        exact .inr ⟨d, drop, l, hd, rfl, hcause⟩
    · exact .inl hmem
  | _ =>
    left
    simpa [setLoop, setDrop, setSetup, modifyConsumer, State.channelOpened, State.consumeOk,
      tryAgain, closePool, State.connectionLost] using hmem

end ConsumerManager
end RabbitMQ

import RabbitMQ.Consumers.ConsumerManager

/-! What each function of the consumers leaves as it is. -/

namespace RabbitMQ
namespace ConsumerManager
namespace State

variable (s : State) (k l d u consumer channel consumerTag : Nat)

@[simp] theorem cancel_frame :
    let t := s.cancel channel consumerTag
    t.consumers = s.consumers ∧ t.activeConsumers = s.activeConsumers ∧
    t.consumersByTag = s.consumersByTag ∧ t.pools = s.pools ∧ t.channelPool = s.channelPool ∧
    t.dedicatedChannels = s.dedicatedChannels ∧ t.channels = s.channels ∧ t.setups = s.setups ∧
    t.loops = s.loops ∧ t.drops = s.drops ∧ t.unsubscribes = s.unsubscribes ∧
    t.restore = s.restore ∧ t.recreating = s.recreating ∧ t.emitted = s.emitted ∧
    t.removals = s.removals := by
  unfold cancel
  split <;> simp

@[simp] theorem releaseDedicatedChannel_frame :
    let t := (s.releaseDedicatedChannel consumer).2
    t.consumers = s.consumers ∧ t.activeConsumers = s.activeConsumers ∧
    t.consumersByTag = s.consumersByTag ∧ t.pools = s.pools ∧ t.channelPool = s.channelPool ∧
    t.consumes = s.consumes ∧ t.setups = s.setups ∧ t.loops = s.loops ∧ t.drops = s.drops ∧
    t.unsubscribes = s.unsubscribes ∧ t.restore = s.restore ∧ t.recreating = s.recreating ∧
    t.emitted = s.emitted ∧ t.removals = s.removals := by
  unfold releaseDedicatedChannel
  split
  · simp
  · split <;> simp [closeChannel]

@[simp] theorem runSetup_frame (caller : Caller) :
    let t := s.runSetup consumer caller
    t.activeConsumers = s.activeConsumers ∧ t.consumersByTag = s.consumersByTag ∧
    t.pools = s.pools ∧ t.channelPool = s.channelPool ∧ t.dedicatedChannels = s.dedicatedChannels ∧
    t.channels = s.channels ∧ t.consumes = s.consumes ∧ t.loops = s.loops ∧ t.drops = s.drops ∧
    t.unsubscribes = s.unsubscribes ∧ t.restore = s.restore ∧ t.recreating = s.recreating ∧
    t.emitted = s.emitted ∧ t.removals = s.removals := by
  simp [runSetup, modifyConsumer]

@[simp] theorem handleConsumerLoss_frame :
    let t := s.handleConsumerLoss consumer
    t.consumers = s.consumers ∧ t.activeConsumers = s.activeConsumers ∧
    t.consumersByTag = s.consumersByTag ∧ t.pools = s.pools ∧ t.channelPool = s.channelPool ∧
    t.dedicatedChannels = s.dedicatedChannels ∧ t.channels = s.channels ∧ t.consumes = s.consumes ∧
    t.setups = s.setups ∧ t.drops = s.drops ∧ t.unsubscribes = s.unsubscribes ∧
    t.restore = s.restore ∧ t.recreating = s.recreating ∧ t.removals = s.removals := by
  unfold handleConsumerLoss
  split <;> simp [emit]

@[simp] theorem attemptFails_frame (loop : Loop) :
    let t := s.attemptFails l loop
    t.consumers = s.consumers ∧ t.activeConsumers = s.activeConsumers ∧
    t.consumersByTag = s.consumersByTag ∧ t.pools = s.pools ∧ t.channelPool = s.channelPool ∧
    t.dedicatedChannels = s.dedicatedChannels ∧ t.channels = s.channels ∧ t.consumes = s.consumes ∧
    t.setups = s.setups ∧ t.unsubscribes = s.unsubscribes ∧ t.restore = s.restore ∧
    t.recreating = s.recreating ∧ t.emitted = s.emitted ∧ t.removals = s.removals := by
  unfold attemptFails
  split
  · simp
  · split <;> simp [setLoop, dropConsumer]

@[simp] theorem settleSetup_frame (setup : Setup) (ok : Bool) :
    let t := s.settleSetup k setup ok
    t.activeConsumers = s.activeConsumers ∧ t.consumersByTag = s.consumersByTag ∧
    t.pools = s.pools ∧ t.channelPool = s.channelPool ∧ t.dedicatedChannels = s.dedicatedChannels ∧
    t.channels = s.channels ∧ t.consumes = s.consumes ∧ t.unsubscribes = s.unsubscribes ∧
    t.restore = s.restore ∧ t.recreating = s.recreating ∧ t.removals = s.removals := by
  unfold settleSetup
  dsimp only
  split
  · split <;> simp [setSetup, modifyConsumer, dropConsumer]
  · split
    · simp [setSetup]
    · split <;> simp [setSetup, setLoop, emit]
  · simp [setSetup]

@[simp] theorem setupContinues_frame (setup : Setup) :
    let t := s.setupContinues k setup channel
    t.activeConsumers = s.activeConsumers ∧ t.consumersByTag = s.consumersByTag ∧
    t.pools = s.pools ∧ t.channelPool = s.channelPool ∧ t.consumes = s.consumes ∧
    t.unsubscribes = s.unsubscribes ∧ t.restore = s.restore ∧ t.recreating = s.recreating ∧
    t.removals = s.removals := by
  unfold setupContinues
  split
  · simp [setSetup]
  · split
    · simp
    · split <;> simp [setSetup]

@[simp] theorem track_frame :
    let t := s.track consumer channel consumerTag
    t.activeConsumers = s.activeConsumers ∧ t.pools = s.pools ∧ t.channelPool = s.channelPool ∧
    t.dedicatedChannels = s.dedicatedChannels ∧ t.consumes = s.consumes ∧ t.setups = s.setups ∧
    t.loops = s.loops ∧ t.drops = s.drops ∧ t.unsubscribes = s.unsubscribes ∧
    t.restore = s.restore ∧ t.recreating = s.recreating ∧ t.emitted = s.emitted ∧
    t.removals = s.removals := by
  simp [track, modifyConsumer]

@[simp] theorem setupCompletes_frame (setup : Setup) :
    let t := s.setupCompletes k setup channel consumerTag
    t.activeConsumers = s.activeConsumers ∧ t.pools = s.pools ∧ t.channelPool = s.channelPool ∧
    t.dedicatedChannels = s.dedicatedChannels ∧ t.consumes = s.consumes ∧
    t.unsubscribes = s.unsubscribes ∧ t.restore = s.restore ∧ t.recreating = s.recreating ∧
    t.removals = s.removals := by
  unfold setupCompletes
  split
  · simp [setSetup]
  · simp

@[simp] theorem removeConsumer_frame (drop : Drop) (workers : Bool) :
    let t := s.removeConsumer d drop workers
    t.consumers = s.consumers ∧ t.pools = s.pools ∧ t.channelPool = s.channelPool ∧
    t.consumes = s.consumes ∧ t.setups = s.setups ∧ t.loops = s.loops ∧
    t.unsubscribes = s.unsubscribes ∧ t.restore = s.restore ∧ t.recreating = s.recreating ∧
    t.emitted = s.emitted := by
  unfold removeConsumer
  dsimp only
  split <;> simp [setDrop]

@[simp] theorem terminated_frame (drop : Drop) :
    let t := s.terminated d drop
    t.consumers = s.consumers ∧ t.activeConsumers = s.activeConsumers ∧
    t.consumersByTag = s.consumersByTag ∧ t.pools = s.pools ∧ t.channelPool = s.channelPool ∧
    t.consumes = s.consumes ∧ t.setups = s.setups ∧ t.loops = s.loops ∧
    t.unsubscribes = s.unsubscribes ∧ t.restore = s.restore ∧ t.recreating = s.recreating ∧
    t.emitted = s.emitted ∧ t.removals = s.removals := by
  simp [terminated, setDrop]

@[simp] theorem dropped_frame (drop : Drop) :
    let t := s.dropped d drop
    t.consumers = s.consumers ∧ t.activeConsumers = s.activeConsumers ∧
    t.consumersByTag = s.consumersByTag ∧ t.pools = s.pools ∧ t.channelPool = s.channelPool ∧
    t.dedicatedChannels = s.dedicatedChannels ∧ t.channels = s.channels ∧ t.consumes = s.consumes ∧
    t.setups = s.setups ∧ t.restore = s.restore ∧ t.recreating = s.recreating ∧
    t.removals = s.removals := by
  unfold dropped
  dsimp only
  split <;> simp [setDrop, setLoop, emit, setUnsubscribe]

@[simp] theorem unsubscribe_frame (c : Consumer) :
    let t := s.unsubscribe consumer c
    t.activeConsumers = s.activeConsumers ∧ t.consumersByTag = s.consumersByTag ∧
    t.pools = s.pools ∧ t.channelPool = s.channelPool ∧ t.dedicatedChannels = s.dedicatedChannels ∧
    t.channels = s.channels ∧ t.consumes = s.consumes ∧ t.setups = s.setups ∧ t.loops = s.loops ∧
    t.restore = s.restore ∧ t.recreating = s.recreating ∧ t.emitted = s.emitted ∧
    t.removals = s.removals := by
  unfold unsubscribe
  dsimp only
  split <;> simp [modifyConsumer, dropConsumer]

@[simp] theorem unsubscribeCancelled_frame :
    let t := s.unsubscribeCancelled u consumer channel consumerTag
    t.consumers = s.consumers ∧ t.activeConsumers = s.activeConsumers ∧
    t.consumersByTag = s.consumersByTag ∧ t.pools = s.pools ∧ t.channelPool = s.channelPool ∧
    t.dedicatedChannels = s.dedicatedChannels ∧ t.channels = s.channels ∧ t.setups = s.setups ∧
    t.loops = s.loops ∧ t.restore = s.restore ∧ t.recreating = s.recreating ∧
    t.emitted = s.emitted ∧ t.removals = s.removals := by
  simp [unsubscribeCancelled, dropConsumer, setUnsubscribe]

@[simp] theorem disconnect_frame :
    let t := s.disconnect
    t.channelPool = s.channelPool ∧ t.dedicatedChannels = s.dedicatedChannels ∧
    t.consumes = s.consumes ∧ t.setups = s.setups ∧ t.loops = s.loops ∧ t.drops = s.drops ∧
    t.unsubscribes = s.unsubscribes ∧ t.restore = s.restore ∧ t.recreating = s.recreating ∧
    t.emitted = s.emitted ∧ t.removals = s.removals := by
  unfold disconnect
  dsimp only
  split <;> simp [closePool]

@[simp] theorem handled_frame (c : Consumer) :
    let t := s.handled consumer c
    t.activeConsumers = s.activeConsumers ∧ t.consumersByTag = s.consumersByTag ∧
    t.pools = s.pools ∧ t.channelPool = s.channelPool ∧ t.dedicatedChannels = s.dedicatedChannels ∧
    t.channels = s.channels ∧ t.consumes = s.consumes ∧ t.setups = s.setups ∧ t.loops = s.loops ∧
    t.unsubscribes = s.unsubscribes ∧ t.restore = s.restore ∧ t.recreating = s.recreating ∧
    t.emitted = s.emitted ∧ t.removals = s.removals := by
  unfold handled
  dsimp only
  split <;> simp [modifyConsumer]

/-- Each of `n` watchers starts a loop. -/
theorem handleConsumerLosses (hours : consumer ∈ s.activeConsumers ∧ !s.cancelled consumer)
    (n : Nat) :
    Nat.repeat (fun s : State => s.handleConsumerLoss consumer) n s = { s with
      loops := s.loops ++
        List.replicate n (Loop.mk consumer s.channelPool (s.epoch consumer) 1 .sleeping)
      emitted := s.emitted ++ List.replicate n (.consumerCancelled consumer) } := by
  induction n with
  | zero => simp [Nat.repeat]
  | succ n ih =>
    rw [Nat.repeat, ih]
    refine (if_pos hours).trans ?_
    rw [List.replicate_succ', List.replicate_succ', ← List.append_assoc, ← List.append_assoc]
    rfl

theorem handleConsumerLosses_of_not
    (hours : ¬ (consumer ∈ s.activeConsumers ∧ !s.cancelled consumer)) (n : Nat) :
    Nat.repeat (fun s : State => s.handleConsumerLoss consumer) n s = s := by
  induction n with
  | zero => rfl
  | succ n ih =>
    rw [Nat.repeat, ih]
    exact if_neg hours

/-- A channel that closes starts the loops of its watchers when its consumer lost it alone. -/
theorem channelCloses_cases (c : Channel) :
    s.channelCloses channel c = { s with
      channels := s.channels.set channel { c with life := .closed }
      dedicatedChannels := s.dedicatedChannels.erase (c.pool, c.owner) } ∨
    (s.poolOpen ∧ s.consumers[c.owner]?.any (·.channel = some channel) ∧
      c.owner ∈ s.activeConsumers ∧ ¬ s.cancelled c.owner ∧
      s.channelCloses channel c = { s with
        channels := s.channels.set channel { c with life := .closed }
        dedicatedChannels := s.dedicatedChannels.erase (c.pool, c.owner)
        loops := s.loops ++ List.replicate c.watchers
          (Loop.mk c.owner s.channelPool (s.epoch c.owner) 1 .sleeping)
        emitted := s.emitted ++ List.replicate c.watchers (.consumerCancelled c.owner) }) := by
  by_cases hopen : s.poolOpen ∧ s.consumers[c.owner]?.any (·.channel = some channel)
  · by_cases hours : c.owner ∈ s.activeConsumers ∧ !s.cancelled c.owner
    · refine .inr ⟨hopen.1, hopen.2, hours.1, by simpa using hours.2, ?_⟩
      refine (if_pos hopen).trans ?_
      apply handleConsumerLosses
      exact hours
    · left
      refine (if_pos hopen).trans ?_
      apply handleConsumerLosses_of_not
      exact hours
  · exact .inl (if_neg hopen)

@[simp] theorem channelCloses_frame (c : Channel) :
    let t := s.channelCloses channel c
    t.consumers = s.consumers ∧ t.activeConsumers = s.activeConsumers ∧
    t.consumersByTag = s.consumersByTag ∧ t.pools = s.pools ∧ t.channelPool = s.channelPool ∧
    t.consumes = s.consumes ∧ t.setups = s.setups ∧ t.drops = s.drops ∧
    t.unsubscribes = s.unsubscribes ∧ t.restore = s.restore ∧ t.recreating = s.recreating ∧
    t.removals = s.removals := by
  rcases channelCloses_cases s channel c with heq | ⟨_, _, _, _, heq⟩ <;> simp [heq]

end State
end ConsumerManager
end RabbitMQ

import RabbitMQ.Consumers.ConsumerManager.Channels
import RabbitMQ.Consumers.ConsumerManager.Epochs

/-! What a registered consumer holds: the channel it was tracked with stays its own and watched, and a
live channel or a consume of it is lost to the broker alone while its pool is installed. -/

namespace RabbitMQ
namespace ConsumerManager

open Transition State

variable {s t : State} {event : Event} {consumer channel k : Nat}

namespace State

/-- The consumer is registered, and not cancelled. -/
def Ours (s : State) (consumer : Nat) : Prop := consumer ∈ s.activeConsumers ∧ ¬ s.cancelled consumer

instance : Decidable (s.Ours consumer) := inferInstanceAs (Decidable (_ ∧ _))

/-- Its `subscribe()` has resolved. -/
def subscribed (s : State) (consumer : Nat) : Bool := s.consumers[consumer]?.any (·.subscribed)

def channelOf (s : State) (consumer : Nat) : Option Nat := s.consumers[consumer]?.bind (·.channel)

/-- The channel is open on the pool that is installed, with a consume of the consumer. -/
def Carries (s : State) (consumer channel : Nat) : Prop :=
  (∃ c ∈ s.channels[channel]?, c.life = .live ∧ s.channelPool = some c.pool) ∧
  ∃ consume ∈ s.consumes, consume.consumer = consumer ∧ consume.channel = channel ∧ consume.active

instance : Decidable (s.Carries consumer channel) := inferInstanceAs (Decidable (_ ∧ _))

/-- The consumer consumes on an open channel of the pool that is installed, whose `'close'` event is
watched. -/
def Consuming (s : State) (consumer : Nat) : Prop :=
  ∃ channel ∈ s.channelOf consumer, s.Carries consumer channel ∧
    ∃ c ∈ s.channels[channel]?, 0 < c.watchers

instance : Decidable (s.Consuming consumer) :=
  inferInstanceAs (Decidable (∃ channel ∈ s.channelOf consumer, _))

end State

/-! ## Consumers -/

theorem Steps.ours_before (h : Steps s event t) (hlt : consumer < s.consumers.length)
    (hours : t.Ours consumer) : s.Ours consumer := by
  refine ⟨?_, fun hcancelled => hours.2 (h.cancelled hcancelled)⟩
  by_contra hgone
  exact h.stays_removed hlt hgone hours.1

/-- A step that runs no setup of the consumer keeps its epoch. -/
theorem Steps.epoch_cases (h : Steps s event t) (hlt : consumer < s.consumers.length) :
    t.epoch consumer = s.epoch consumer ∨ ∃ setup, Begins s event setup ∧ setup.consumer = consumer := by
  have hle : s.consumers.length ≤ t.consumers.length := by
    rw [h.consumers_length]
    exact Nat.le_add_right _ _
  have hc' := List.getElem?_eq_getElem (Nat.lt_of_lt_of_le hlt hle)
  rw [epoch_of_get hc']
  cases h.consumers hc' with
  | same hc =>
    rw [epoch_of_get hc]
    exact .inl rfl
  | registers _ hnew =>
    rw [hnew] at hlt
    exact absurd hlt (Nat.lt_irrefl _)
  | begins _ hbegins hconsumer => exact .inr ⟨_, hbegins, hconsumer⟩
  | cancels hc _ heq | tracks hc _ _ _ _ _ _ heq | counts hc _ heq =>
    rw [epoch_of_get hc, heq]
    exact .inl rfl

/-! ## Channels -/

/-- What a step leaves of a channel. -/
structure Channel.Stays (event : Event) (t : State) (channel : Nat) (c c' : Channel) : Prop where
  get : t.channels[channel]? = some c'
  pool : c'.pool = c.pool
  owner : c'.owner = c.owner
  watchers : c.watchers ≤ c'.watchers
  /-- Besides the broker, only a release or the pool closes it. -/
  life : c'.life = c.life ∨ event = .channelCloses channel ∨ c.owner ∉ t.activeConsumers ∨
    t.channelPool = none

theorem Channel.Stays.same {c : Channel} (h : t.channels[channel]? = some c) :
    c.Stays event t channel c := ⟨h, rfl, rfl, Nat.le_refl _, .inl rfl⟩

theorem Channel.Stays.closed {c : Channel} {life : Life}
    (h : t.channels[channel]? = some { c with life })
    (hlife : life = c.life ∨ c.owner ∉ t.activeConsumers ∨ t.channelPool = none) :
    c.Stays event t channel { c with life } :=
  ⟨h, rfl, rfl, Nat.le_refl _, hlife.imp_right .inr⟩

/-- A release closes a channel of its consumer. -/
theorem Owned.released_channel (h : Owned s) {s₀ : State} (consumer : Nat)
    (hchannels : s₀.channels = s.channels)
    (hdedicated : s₀.dedicatedChannels = s.dedicatedChannels) {c : Channel}
    (hc : s.channels[channel]? = some c) :
    ∃ life, (s₀.releaseDedicatedChannel consumer).2.channels[channel]? = some { c with life } ∧
      (life = c.life ∨ c.owner = consumer) := by
  have hsame : s₀.channels[channel]? = some { c with life := c.life } := hchannels ▸ hc
  unfold releaseDedicatedChannel
  split
  · exact ⟨c.life, hsame, .inl rfl⟩
  · split
    · exact ⟨c.life, hsame, .inl rfl⟩
    · next j hget =>
      have hmodify := List.getElem?_modify_of (f := fun c : Channel =>
        if c.life = .live then { c with life := .closing } else c) (i := j) hsame
      split at hmodify
      · next heq =>
        subst heq
        obtain ⟨c₀, hc₀, -, howner⟩ := h.registered (hdedicated ▸ hget)
        cases hc.symm.trans hc₀
        split at hmodify
        · exact ⟨_, hmodify, .inr howner⟩
        · exact ⟨_, hmodify, .inl rfl⟩
      · exact ⟨_, hmodify, .inl rfl⟩

/-- A pool that closes leaves its channels in place. -/
theorem closePool_channel {pool : Nat} {c : Channel} (hc : s.channels[channel]? = some c) :
    ∃ life, (s.closePool pool).channels[channel]? = some { c with life } := by
  simp only [closePool, List.getElem?_map, hc, Option.map_some]
  split
  · exact ⟨_, rfl⟩
  · exact ⟨c.life, rfl⟩

/-- A channel that is tracked may get a watcher. -/
theorem track_channel (consumer' channel' consumerTag : Nat) {c : Channel}
    (hc : s.channels[channel]? = some c) :
    ∃ watchers, c.watchers ≤ watchers ∧
      (s.track consumer' channel' consumerTag).channels[channel]? = some { c with watchers } := by
  have hc' : (s.track consumer' channel' consumerTag).channels[channel]? = _ :=
    List.getElem?_modify_of hc
  rw [hc']
  split
  · split
    · exact ⟨c.watchers, Nat.le_refl _, rfl⟩
    · exact ⟨c.watchers + 1, Nat.le_succ _, rfl⟩
  · exact ⟨c.watchers, Nat.le_refl _, rfl⟩

theorem Owned.channel_stays (h : Owned s) (hreg : Registered s) (hsteps : Steps s event t)
    {c : Channel} (hc : s.channels[channel]? = some c) : ∃ c', c.Stays event t channel c' := by
  cases hsteps with
  | channelOpened => exact ⟨c, .same (List.getElem?_append_of hc _)⟩
  | @setupContinues j setup channel' =>
    unfold State.setupContinues
    split
    · next hgone =>
      obtain ⟨life, hc', hlife⟩ := h.released_channel setup.consumer rfl rfl hc
      refine ⟨_, .closed hc' (hlife.imp_right fun howner => .inl ?_)⟩
      rw [howner]
      simpa [setSetup] using hgone
    · split
      · exact ⟨c, .same (by simpa using hc)⟩
      · split <;> exact ⟨c, .same hc⟩
  | @setupCompletes j setup channel' consumerTag =>
    unfold State.setupCompletes
    split
    · exact ⟨c, .same hc⟩
    · obtain ⟨watchers, hle, hc'⟩ := track_channel setup.consumer channel' consumerTag hc
      refine ⟨{ c with watchers }, ?_, rfl, rfl, hle, .inl rfl⟩
      rw [settleSetup_channels]
      exact hc'
  | @channelCloses j c₁ hj =>
    have hset : (s.channelCloses j c₁).channels = s.channels.set j { c₁ with life := .closed } := by
      rcases channelCloses_cases s j c₁ with heq | ⟨_, _, _, _, heq⟩ <;> rw [heq]
    rcases eq_or_ne j channel with rfl | hne
    · cases hc.symm.trans hj
      have hlt := (List.getElem?_eq_some_iff.mp hc).1
      refine ⟨{ c with life := .closed }, ?_, rfl, rfl, Nat.le_refl _, .inr (.inl rfl)⟩
      rw [hset, List.getElem?_set_self hlt]
    · refine ⟨c, .same ?_⟩
      rw [hset, List.getElem?_set_ne hne]
      exact hc
  | @removeConsumer d drop workers =>
    cases workers with
    | true => exact ⟨c, .same hc⟩
    | false =>
      have hchannels : (s.removed drop).channels = s.channels := rfl
      obtain ⟨life, hc', hlife⟩ := h.released_channel drop.consumer hchannels rfl hc
      refine ⟨_, .closed hc' (hlife.imp_right fun howner => .inl ?_)⟩
      rw [(removeConsumer_registry s d drop false).1, howner]
      exact hreg.nodup.not_mem_erase
  | @terminated d drop hd hstage =>
    obtain ⟨life, hc', hlife⟩ := h.released_channel drop.consumer rfl rfl hc
    refine ⟨_, .closed hc' (hlife.imp_right fun howner => .inl ?_)⟩
    rw [howner]
    simpa [State.terminated, setDrop] using hreg.removed hd (by rw [hstage]; rfl)
  | restoreFails =>
    obtain ⟨life, hc'⟩ := closePool_channel hc
    exact ⟨_, .closed hc' (.inr (.inr rfl))⟩
  | connectionLost =>
    refine ⟨{ c with life := .closed }, .closed ?_ (.inr (.inr rfl))⟩
    simp [State.connectionLost, hc]
  | disconnect =>
    unfold State.disconnect
    dsimp only
    split
    · exact ⟨c, .same hc⟩
    · obtain ⟨life, hc'⟩ := closePool_channel hc
      exact ⟨_, .closed hc' (.inr (.inl (by simp [closePool])))⟩
  | _ =>
    refine ⟨c, .same ?_⟩
    simpa [setLoop, setDrop, setSetup, modifyConsumer, State.consumeOk, tryAgain] using hc

/-! ## What belongs to a consumer -/

/-- The setup is on its way out, for a consumer that was gone. -/
def SetupStage.leaves : SetupStage → Bool
  | .releasing _ | .cancelling _ _ => true
  | _ => false

structure Bound (s : State) : Prop where
  /-- The channel of a consumer is its own, and watched. -/
  channel : ∀ {consumer channel : Nat}, s.channelOf consumer = some channel →
    ∃ c, s.channels[channel]? = some c ∧ c.owner = consumer ∧ 0 < c.watchers
  watched : ∀ {consumer : Nat} {c : Consumer}, s.consumers[consumer]? = some c →
    c.watchedChannel = c.channel
  leaving : ∀ {k : Nat} {setup : Setup}, s.setups[k]? = some setup → setup.stage.leaves →
    ¬ s.Ours setup.consumer
  unsubscribes : ∀ {u consumer channel consumerTag : Nat},
    s.unsubscribes[u]? = some ⟨consumer, .cancelling channel consumerTag⟩ →
    s.cancelled consumer ∧ ∃ c, s.channels[channel]? = some c ∧ c.owner = consumer
  recreating : s.recreating ≠ [] → s.channelPool = none ∨ s.restore = some .recreating

theorem bound_start : Bound start where
  channel h := by cases h
  watched h := by cases h
  leaving h := by cases h
  unsubscribes h := by cases h
  recreating h := absurd rfl h

theorem channelOf_eq_some : s.channelOf consumer = some channel ↔
    ∃ c, s.consumers[consumer]? = some c ∧ c.channel = some channel := Option.bind_eq_some_iff

/-- A channel that is tracked and was not watched gets a watcher. -/
theorem track_watches {c : Channel} {consumerTag : Nat} (hc : s.channels[channel]? = some c)
    (hwatched : ¬ s.consumers[consumer]?.any (·.watchedChannel = some channel)) :
    (s.track consumer channel consumerTag).channels[channel]? =
      some { c with watchers := c.watchers + 1 } := by
  have hc' : (s.track consumer channel consumerTag).channels[channel]? = _ :=
    List.getElem?_modify_of hc
  rw [hc', if_pos rfl, if_neg hwatched]

theorem Bound.tracked (h : Bound s) (howned : Owned s) {setup : Setup} {consumerTag : Nat}
    (hk : s.setups[k]? = some setup) (hstage : setup.stage = .consumed channel consumerTag) :
    ∃ c, (s.track setup.consumer channel consumerTag).channels[channel]? = some c ∧
      c.owner = setup.consumer ∧ 0 < c.watchers := by
  obtain ⟨c, hc, howner⟩ := howned.setups hk (by rw [hstage]; rfl)
  by_cases hwatched : s.consumers[setup.consumer]?.any (·.watchedChannel = some channel)
  · obtain ⟨consumer, hconsumer, heq⟩ := (Option.any_eq_true _ _).mp hwatched
    have hchannel : s.channelOf setup.consumer = some channel :=
      channelOf_eq_some.mpr ⟨consumer, hconsumer, (h.watched hconsumer) ▸ of_decide_eq_true heq⟩
    obtain ⟨c₀, hc₀, -, hpos⟩ := h.channel hchannel
    cases hc.symm.trans hc₀
    obtain ⟨watchers, hle, hc'⟩ := track_channel setup.consumer channel consumerTag hc
    exact ⟨_, hc', howner, Nat.lt_of_lt_of_le hpos hle⟩
  · exact ⟨_, track_watches hc hwatched, howner, Nat.succ_pos _⟩

theorem Bound.step_channel (h : Bound s) (hreg : Registered s) (howned : Owned s)
    (hsteps : Steps s event t) (hchannel : t.channelOf consumer = some channel) :
    ∃ c, t.channels[channel]? = some c ∧ c.owner = consumer ∧ 0 < c.watchers := by
  obtain ⟨c', hc', hchannel'⟩ := channelOf_eq_some.mp hchannel
  have hkept : s.channelOf consumer = some channel →
      ∃ c, t.channels[channel]? = some c ∧ c.owner = consumer ∧ 0 < c.watchers := by
    intro hbefore
    obtain ⟨c, hc, howner, hpos⟩ := h.channel hbefore
    obtain ⟨c', hstays⟩ := howned.channel_stays hreg hsteps hc
    exact ⟨c', hstays.get, hstays.owner.trans howner, Nat.lt_of_lt_of_le hpos hstays.watchers⟩
  cases hsteps.consumers hc' with
  | same hc => exact hkept (channelOf_eq_some.mpr ⟨c', hc, hchannel'⟩)
  | registers _ _ heq =>
    rw [heq] at hchannel'
    cases hchannel'
  | begins hc _ _ heq | cancels hc _ heq | counts hc _ heq =>
    rw [heq] at hchannel'
    exact hkept (channelOf_eq_some.mpr ⟨_, hc, hchannel'⟩)
  | tracks hc hevent hk hstage hconsumer hactive hcancelled heq =>
    rw [heq] at hchannel'
    cases hchannel'
    subst hevent hconsumer
    obtain ⟨c, htracked⟩ := h.tracked howned hk hstage
    cases hsteps with
    | setupCompletes hk' hstage' =>
      cases hk.symm.trans hk'
      cases hstage.symm.trans hstage'
      refine ⟨c, ?_⟩
      unfold State.setupCompletes
      rw [if_neg (by rw [not_or, not_not]; exact ⟨hactive, hcancelled⟩), settleSetup_channels]
      exact htracked

theorem Bound.step_watched (h : Bound s) (hsteps : Steps s event t) {c' : Consumer}
    (hc' : t.consumers[consumer]? = some c') : c'.watchedChannel = c'.channel := by
  cases hsteps.consumers hc' with
  | same hc => exact h.watched hc
  | registers _ _ heq | tracks _ _ _ _ _ _ _ heq => rw [heq]
  | begins hc _ _ heq | cancels hc _ heq | counts hc _ heq =>
    have hwatched := h.watched hc
    rw [heq]
    exact hwatched

theorem Bound.step_leaving (h : Bound s) (hreg : Registered s) (hsteps : Steps s event t)
    {setup' : Setup} (hk : t.setups[k]? = some setup') (hleaves : setup'.stage.leaves) :
    ¬ t.Ours setup'.consumer := by
  intro hours
  cases hsteps.setups hk with
  | same hk₀ => exact h.leaving hk₀ hleaves (hsteps.ours_before (hreg.setups hk₀) hours)
  | @moves setup stage hk₀ hmove heq =>
    subst heq
    have hbefore := hsteps.ours_before (hreg.setups hk₀) hours
    cases hmove with
    | releasing _ hgone => exact hgone hbefore.1
    | cancelling _ hgone => exact hgone.elim (· hbefore.1) hbefore.2
    | opened | prefetching | skipsPrefetch | consuming | consumed | completes | fails =>
      cases hleaves
  | begins _ _ _ hstage =>
    rw [hstage] at hleaves
    rcases getDedicatedChannel_cases s setup'.consumer with heq | ⟨_, heq⟩ | ⟨_, heq⟩ <;>
      (rw [heq] at hleaves; cases hleaves)

/-- A call of `unsubscribe` that begins cancels the consume that its consumer was tracked with. -/
theorem Steps.unsubscribe_begun (h : Steps s event t) {u consumerTag : Nat}
    (hnew : u = s.unsubscribes.length)
    (hu : t.unsubscribes[u]? = some ⟨consumer, .cancelling channel consumerTag⟩) :
    t.cancelled consumer ∧ s.channelOf consumer = some channel ∧ t.channels = s.channels := by
  subst hnew
  cases h with
  | @unsubscribe _ X c _ _ hc =>
    rcases unsubscribe_cases s X c with ⟨_, _, hchannel, _, heq⟩ | heq
    · rw [heq] at hu ⊢
      cases List.getElem?_concat_length.symm.trans hu
      refine ⟨?_, channelOf_eq_some.mpr ⟨c, hc, hchannel⟩, rfl⟩
      rw [State.cancelled, modifyConsumer, List.getElem?_modify_of hc, if_pos rfl]
      rfl
    · rw [heq] at hu
      cases List.getElem?_concat_length.symm.trans hu
  | unsubscribeCancelled hu₀ =>
    have hlt := (List.getElem?_eq_some_iff.mp hu).1
    simp [State.unsubscribeCancelled, setUnsubscribe, dropConsumer] at hlt
  | dropped =>
    have hlt := (List.getElem?_eq_some_iff.mp hu).1
    unfold State.dropped at hlt
    dsimp only at hlt
    split at hlt <;> simp [setDrop, setLoop, emit, setUnsubscribe] at hlt
  | _ =>
    have hlt := (List.getElem?_eq_some_iff.mp hu).1
    simp [setLoop, setDrop, setSetup, modifyConsumer, State.channelOpened, State.consumeOk,
      tryAgain, closePool, State.connectionLost] at hlt

theorem Bound.step_unsubscribes (h : Bound s) (hreg : Registered s) (howned : Owned s)
    (hsteps : Steps s event t) {u consumerTag : Nat}
    (hu : t.unsubscribes[u]? = some ⟨consumer, .cancelling channel consumerTag⟩) :
    t.cancelled consumer ∧ ∃ c, t.channels[channel]? = some c ∧ c.owner = consumer := by
  cases hsteps.unsubscribes hu with
  | same hu₀ =>
    obtain ⟨hcancelled, c, hc, howner⟩ := h.unsubscribes hu₀
    obtain ⟨c', hstays⟩ := howned.channel_stays hreg hsteps hc
    exact ⟨hsteps.cancelled hcancelled, c', hstays.get, hstays.owner.trans howner⟩
  | begins hnew =>
    obtain ⟨hcancelled, hchannel, hchannels⟩ := hsteps.unsubscribe_begun hnew hu
    obtain ⟨c, hc, howner, -⟩ := h.channel hchannel
    exact ⟨hcancelled, c, hchannels ▸ hc, howner⟩
  | cancelled _ heq | resolved _ heq => cases heq

theorem Bound.step_recreating (h : Bound s) (hs : step s event = some t)
    (hrecreating : t.recreating ≠ []) : t.channelPool = none ∨ t.restore = some .recreating := by
  have hsteps := step_cases hs
  by_cases hbefore : s.recreating = []
  · cases hsteps with
    | recreateAll => exact .inr rfl
    | recreateAllLate hpool => exact .inl hpool
    | recreates heq => cases hbefore.symm.trans heq
    | _ =>
      refine absurd hbefore ?_
      simpa [setLoop, setDrop, setSetup, modifyConsumer, State.channelOpened, State.consumeOk,
        tryAgain, closePool, State.connectionLost] using hrecreating
  · cases recreates_of_recreating hs hbefore
    cases hsteps with
    | recreates => simpa using h.recreating hbefore

theorem Bound.step (h : Bound s) (hreg : Registered s) (howned : Owned s)
    (hs : step s event = some t) : Bound t where
  channel := h.step_channel hreg howned (step_cases hs)
  watched := h.step_watched (step_cases hs)
  leaving := h.step_leaving hreg (step_cases hs)
  unsubscribes := h.step_unsubscribes hreg howned (step_cases hs)
  recreating := h.step_recreating hs

theorem bound {ok : State → Event → Prop} (hr : Reach step ok start s) : Bound s :=
  hr.invariant_of (fun hr => And.intro (registered hr) (owned hr)) bound_start
    fun hbefore _ h _ hs => h.step hbefore.1 hbefore.2 hs

/-! ## Consumes -/

/-- A cancel deactivates no consume on the channel of another consumer. -/
theorem Owned.cancel_consume (h : Owned s) {i consumerTag : Nat} {consume : Consume} {c : Channel}
    (hi : s.consumes[i]? = some consume) (hc : s.channels[channel]? = some c)
    (hother : c.owner ≠ consume.consumer) :
    (s.cancel channel consumerTag).consumes[i]? = some consume := by
  unfold State.cancel
  split
  · rw [List.getElem?_map, hi, Option.map_some, if_neg]
    rintro ⟨rfl, -⟩
    obtain ⟨c₀, hc₀, howner⟩ := h.consumes hi
    cases hc.symm.trans hc₀
    exact hother howner
  · exact hi

/-- A consume of a registered consumer stays as it is, unless the broker cancels it. -/
theorem Bound.consume_stays (h : Bound s) (howned : Owned s)
    (hsteps : Steps s event t) {i : Nat} {consume : Consume} (hi : s.consumes[i]? = some consume)
    (hours : s.Ours consume.consumer) :
    t.consumes[i]? = some consume ∨ event = .brokerCancels i := by
  cases hsteps with
  | @unsubscribeCancelled u consumer channel consumerTag hu =>
    obtain ⟨hcancelled, c, hc, howner⟩ := h.unsubscribes hu
    refine .inl (howned.cancel_consume hi hc ?_)
    intro heq
    rw [← heq, howner] at hours
    exact hours.2 hcancelled
  | consumeOk => exact .inl (List.getElem?_append_of hi _)
  | @setupCancelled j setup channel consumerTag hk hstage =>
    obtain ⟨c, hc, howner⟩ := howned.setups hk (by rw [hstage]; rfl)
    rw [(settleSetup_frame ..).2.2.2.2.2.2.1]
    refine .inl (howned.cancel_consume hi hc ?_)
    intro heq
    rw [← heq, howner] at hours
    exact h.leaving hk (by rw [hstage]; rfl) hours
  | @brokerCancels j c hj =>
    rw [(handleConsumerLoss_frame ..).2.2.2.2.2.2.2.1]
    rcases eq_or_ne j i with rfl | hne
    · exact .inr rfl
    · left
      rw [List.getElem?_set_ne hne]
      exact hi
  | _ =>
    left
    simpa [setLoop, setDrop, setSetup, modifyConsumer, State.channelOpened, tryAgain, closePool,
      State.connectionLost] using hi

/-- What a consumer holds on the pool that stays is lost to the broker alone. -/
theorem Bound.carries_step (h : Bound s) (howned : Owned s) (hreg : Registered s)
    (hsteps : Steps s event t) (hours : t.Ours consumer) (hpool : t.channelPool = s.channelPool)
    (hcarries : s.Carries consumer channel) :
    t.Carries consumer channel ∨ event = .channelCloses channel ∨
      ∃ (i : Nat) (consume : Consume), event = .brokerCancels i ∧ s.consumes[i]? = some consume ∧
        consume.consumer = consumer := by
  obtain ⟨⟨c, hc, hlive, hinstalled⟩, consume, hmem, hconsumer, hchannel, hactive⟩ := hcarries
  obtain ⟨i, hi⟩ := List.mem_iff_getElem?.mp hmem
  obtain ⟨c', hstays⟩ := howned.channel_stays hreg hsteps hc
  have howner : c.owner = consumer := by
    obtain ⟨c₀, hc₀, howner⟩ := howned.consumes hi
    rw [hchannel] at hc₀
    cases hc.symm.trans hc₀
    exact howner.trans hconsumer
  have hbefore : s.Ours consume.consumer := by
    rw [hconsumer]
    exact hsteps.ours_before (howner ▸ howned.owners hc) hours
  rcases h.consume_stays howned hsteps hi hbefore with hi' | hevent
  · rcases hstays.life with hlife | hevent | hgone | hnone
    · left
      refine ⟨⟨c', hstays.get, hlife.trans hlive, ?_⟩, consume, List.mem_of_getElem? hi', hconsumer,
        hchannel, hactive⟩
      rw [hpool, hinstalled, hstays.pool]
    · exact .inr (.inl hevent)
    · rw [howner] at hgone
      exact absurd hours.1 hgone
    · rw [hpool, hinstalled] at hnone
      cases hnone
  · exact .inr (.inr ⟨i, consume, hevent, hi, hconsumer⟩)

end ConsumerManager
end RabbitMQ

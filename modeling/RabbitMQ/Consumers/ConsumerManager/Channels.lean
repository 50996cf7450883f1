import RabbitMQ.Consumers.ConsumerManager.Registry

/-! What a step can do to a channel, to the channels that are registered and to a consume, and to
whom they belong. -/

namespace RabbitMQ
namespace ConsumerManager

open Transition State

variable {s t : State} {event : Event} {pool consumer channel : Nat}

/-! ## Channels -/

/-- What a step can do to a channel. -/
inductive ChannelCases (s t : State) (channel : Nat) (c' : Channel) : Prop
  | kept {c : Channel} (hc : s.channels[channel]? = some c) (hpool : c'.pool = c.pool)
      (howner : c'.owner = c.owner) (hlive : c'.life = .live → c.life = .live)
      (hclosed : c.life = .closed → c'.life = .closed)
  | opened {k : Nat} {setup : Setup} (heq : channel = s.channels.length)
      (hk : s.setups[k]? = some setup) (hstage : setup.stage = .opening c'.pool)
      (hconsumer : setup.consumer = c'.owner)
      (hregistered : t.dedicatedChannels.get? (c'.pool, c'.owner) = some channel)

theorem ChannelCases.same {c : Channel} (hc : s.channels[channel]? = some c) :
    ChannelCases s t channel c :=
  .kept hc rfl rfl id id

/-- A channel that `close()` was called on. -/
theorem ChannelCases.closing {c : Channel} (hc : s.channels[channel]? = some c)
    (hlife : c.life = .live) : ChannelCases s t channel { c with life := .closing } := by
  refine .kept hc rfl rfl (fun _ => hlife) fun hclosed => ?_
  rw [hlife] at hclosed
  cases hclosed

theorem closeChannel_channels {s₀ : State} {j : Nat} {c' : Channel}
    (hchannels : s₀.channels = s.channels)
    (h : (s₀.closeChannel channel).channels[j]? = some c') : ChannelCases s t j c' := by
  obtain ⟨c, hc, rfl⟩ := List.getElem?_modify_cases h
  rw [hchannels] at hc
  split
  · split
    · next hlife => exact .closing hc hlife
    · exact .same hc
  · exact .same hc

theorem releaseDedicatedChannel_channels {s₀ : State} {j : Nat} {c' : Channel}
    (hchannels : s₀.channels = s.channels)
    (h : (s₀.releaseDedicatedChannel consumer).2.channels[j]? = some c') :
    ChannelCases s t j c' := by
  unfold releaseDedicatedChannel at h
  split at h
  · exact .same (hchannels ▸ h)
  · split at h
    · exact .same (hchannels ▸ h)
    · exact closeChannel_channels hchannels h

theorem closePool_channels {s₀ : State} {j : Nat} {c' : Channel}
    (hchannels : s₀.channels = s.channels) (h : (s₀.closePool pool).channels[j]? = some c') :
    ChannelCases s t j c' := by
  simp only [closePool, List.getElem?_map, Option.map_eq_some_iff] at h
  obtain ⟨c, hc, rfl⟩ := h
  rw [hchannels] at hc
  split
  · next hlive => exact .closing hc hlive.2
  · exact .same hc

theorem settleSetup_channels {k : Nat} (setup : Setup) (ok : Bool) :
    (s.settleSetup k setup ok).channels = s.channels := by simp

theorem Steps.channels (h : Steps s event t) {c' : Channel}
    (hc : t.channels[channel]? = some c') : ChannelCases s t channel c' := by
  cases h with
  | channelOpened hk hstage =>
    rcases List.getElem?_append_cases hc with hc | ⟨rfl, rfl⟩
    · exact .same hc
    · exact .opened rfl hk hstage rfl (OrderedMap.get?_set_self ..)
  | setupContinues =>
    unfold State.setupContinues at hc
    split at hc
    · exact releaseDedicatedChannel_channels rfl hc
    · split at hc
      · exact .same (by simpa using hc)
      · split at hc <;> exact .same hc
  | setupCompletes =>
    unfold State.setupCompletes at hc
    split at hc
    · exact .same hc
    · rw [settleSetup_channels] at hc
      obtain ⟨c, hc₀, rfl⟩ := List.getElem?_modify_cases hc
      split
      · split
        · exact .same hc₀
        · exact .kept hc₀ rfl rfl id id
      · exact .same hc₀
  | @channelCloses j c hj hlife =>
    have hset : (s.channels.set j { c with life := .closed })[channel]? = some c' := by
      rcases channelCloses_cases s j c with heq | ⟨_, _, _, _, heq⟩ <;> simpa [heq] using hc
    rcases List.getElem?_set_cases hset with ⟨rfl, rfl⟩ | ⟨_, hc⟩
    · exact .kept hj rfl rfl nofun fun _ => rfl
    · exact .same hc
  | @removeConsumer d drop workers =>
    cases workers with
    | true => exact .same hc
    | false =>
      have hchannels : (s.removed drop).channels = s.channels := rfl
      exact releaseDedicatedChannel_channels hchannels hc
  | terminated => exact releaseDedicatedChannel_channels rfl hc
  | restoreFails => exact closePool_channels rfl hc
  | connectionLost =>
    simp only [State.connectionLost, List.getElem?_map, Option.map_eq_some_iff] at hc
    obtain ⟨c, hc, rfl⟩ := hc
    exact .kept hc rfl rfl nofun fun _ => rfl
  | disconnect =>
    unfold State.disconnect at hc
    dsimp only at hc
    split at hc
    · exact .same hc
    · exact closePool_channels rfl hc
  | _ =>
    exact .same (by
      simpa [setLoop, setDrop, setSetup, modifyConsumer, State.consumeOk, tryAgain] using hc)

@[simp] theorem closeChannel_channels_length :
    (s.closeChannel channel).channels.length = s.channels.length := by
  simp [closeChannel]

@[simp] theorem releaseDedicatedChannel_channels_length :
    (s.releaseDedicatedChannel consumer).2.channels.length = s.channels.length := by
  unfold releaseDedicatedChannel
  split
  · rfl
  · split
    · rfl
    · rw [closeChannel_channels_length]

theorem Steps.channels_length_eq (h : Steps s event t) (hopen : ∀ k, event ≠ .channelOpened k) :
    t.channels.length = s.channels.length := by
  cases h with
  | channelOpened => exact absurd rfl (hopen _)
  | setupContinues =>
    unfold State.setupContinues
    split
    · simp [setSetup]
    · split
      · simp
      · split <;> simp [setSetup]
  | setupCompletes =>
    unfold State.setupCompletes
    split <;> simp [setSetup, track, modifyConsumer]
  | @channelCloses j c =>
    rcases channelCloses_cases s j c with heq | ⟨_, _, _, _, heq⟩ <;> simp [heq]
  | @removeConsumer d drop workers =>
    cases workers with
    | true => rfl
    | false => simp [removeConsumer_of_no_workers, setDrop, removed]
  | terminated => simp [State.terminated, setDrop]
  | disconnect =>
    unfold State.disconnect
    dsimp only
    split <;> simp [closePool]
  | _ =>
    simp [setLoop, setDrop, setSetup, modifyConsumer, State.consumeOk, tryAgain, closePool,
      State.connectionLost]

theorem Steps.channels_length (h : Steps s event t) : s.channels.length ≤ t.channels.length := by
  by_cases hopen : ∃ k, event = .channelOpened k
  · obtain ⟨k, rfl⟩ := hopen
    cases h with
    | channelOpened => simp [State.channelOpened, setSetup]
  · exact Nat.le_of_eq (h.channels_length_eq fun k heq => hopen ⟨k, heq⟩).symm

/-- A channel stays, with its pool and its owner. -/
theorem Steps.channel_kept (h : Steps s event t) {c : Channel}
    (hc : s.channels[channel]? = some c) :
    ∃ c', t.channels[channel]? = some c' ∧ c'.pool = c.pool ∧ c'.owner = c.owner := by
  have hlt := (List.getElem?_eq_some_iff.mp hc).1
  have ht : t.channels[channel]? =
      some (t.channels.get ⟨channel, Nat.lt_of_lt_of_le hlt h.channels_length⟩) :=
    List.getElem?_eq_getElem _
  refine ⟨_, ht, ?_⟩
  cases h.channels ht with
  | kept hc₀ hpool howner =>
    cases hc₀.symm.trans hc
    exact ⟨hpool, howner⟩
  | opened heq =>
    rw [heq] at hlt
    exact absurd hlt (Nat.lt_irrefl _)

/-! ## Registered channels -/

/-- What a step can register for a consumer. -/
inductive RegisteredCases (s t : State) (pool consumer channel : Nat) : Prop
  | same (hget : s.dedicatedChannels.get? (pool, consumer) = some channel)
  | opened {k : Nat} {setup : Setup} (heq : channel = s.channels.length)
      (hk : s.setups[k]? = some setup) (hstage : setup.stage = .opening pool)
      (hconsumer : setup.consumer = consumer)
      (hopened : t.setups[k]? = some { setup with stage := .opened channel })
      (hchannel : t.channels[channel]? = some ⟨pool, consumer, .live, 0⟩)

theorem get?_of_releaseDedicatedChannel {consumer' : Nat}
    (h : (s.releaseDedicatedChannel consumer').2.dedicatedChannels.get? (pool, consumer) =
      some channel) : s.dedicatedChannels.get? (pool, consumer) = some channel := by
  rw [releaseDedicatedChannel_registered] at h
  split at h
  · exact h
  · rw [OrderedMap.get?_erase] at h
    split at h
    · cases h
    · exact h

theorem Steps.dedicatedChannels (h : Steps s event t)
    (hget : t.dedicatedChannels.get? (pool, consumer) = some channel) :
    RegisteredCases s t pool consumer channel := by
  cases h with
  | @channelOpened k setup pool' hk hstage =>
    simp only [State.channelOpened, setSetup, OrderedMap.get?_set] at hget
    split at hget
    · next heq =>
      cases heq
      cases hget
      refine .opened rfl hk hstage rfl ?_ List.getElem?_concat_length
      exact (List.getElem?_modify_of hk).trans (by rw [if_pos rfl])
    · exact .same hget
  | setupContinues =>
    unfold State.setupContinues at hget
    split at hget
    · exact .same (get?_of_releaseDedicatedChannel hget)
    · split at hget
      · exact .same (by simpa using hget)
      · split at hget <;> exact .same hget
  | @channelCloses j c hj hlife =>
    have herase : (s.dedicatedChannels.erase (c.pool, c.owner)).get? (pool, consumer) =
        some channel := by
      rcases channelCloses_cases s j c with heq | ⟨_, _, _, _, heq⟩ <;> simpa [heq] using hget
    rw [OrderedMap.get?_erase] at herase
    split at herase
    · cases herase
    · exact .same herase
  | @removeConsumer d drop workers =>
    cases workers with
    | true => exact .same hget
    | false =>
      have hget : (s.removed drop).dedicatedChannels.get? (pool, consumer) = some channel :=
        get?_of_releaseDedicatedChannel hget
      exact .same hget
  | terminated => exact .same (get?_of_releaseDedicatedChannel hget)
  | connectionLost => cases hget
  | poolClosed => exact .same (OrderedMap.get?_filter.mp hget).1
  | _ =>
    exact .same (by
      simpa [setLoop, setDrop, setSetup, modifyConsumer, State.consumeOk, tryAgain, closePool]
        using hget)

/-- Why a channel is no longer registered for a consumer. -/
inductive Forgets (s t : State) (pool consumer channel : Nat) : Prop
  | uninstalled (hpool : t.channelPool ≠ some pool)
  | closed {j : Nat} {c : Channel} (hc : s.channels[j]? = some c) (hlife : c.life ≠ .closed)
      (hpool : c.pool = pool) (howner : c.owner = consumer)
      (hclosed : t.channels[j]? = some { c with life := .closed })
  | released (hinstalled : s.channelPool = some pool) (hgone : consumer ∉ t.activeConsumers)
      (hlive : ¬ t.live channel)
  | replaced {k : Nat} {setup : Setup} (hk : s.setups[k]? = some setup)
      (hstage : setup.stage = .opening pool) (hconsumer : setup.consumer = consumer)

theorem closeChannel_live : ¬ (s.closeChannel channel).live channel := by
  simp only [live, closeChannel, List.getElem?_modify_eq]
  cases s.channels[channel]? with
  | none => simp
  | some c =>
    simp only [Option.map_eq_map, Option.map_some, Option.any_some, decide_eq_true_eq]
    split
    · simp
    · next hlife => exact hlife

theorem releaseDedicatedChannel_forgets (consumer' : Nat)
    (hget : s.dedicatedChannels.get? (pool, consumer) = some channel) :
    (s.releaseDedicatedChannel consumer').2.dedicatedChannels.get? (pool, consumer) =
      some channel ∨
    (s.channelPool = some pool ∧ consumer = consumer' ∧
      ¬ (s.releaseDedicatedChannel consumer').2.live channel) := by
  unfold releaseDedicatedChannel
  split
  · exact .inl hget
  · next pool' hpool =>
    split
    · exact .inl hget
    · next channel' hget' =>
      rcases eq_or_ne (pool, consumer) (pool', consumer') with heq | hne
      · cases heq
        cases hget.symm.trans hget'
        exact .inr ⟨hpool, rfl, closeChannel_live⟩
      · refine .inl ?_
        change (s.dedicatedChannels.erase (pool', consumer')).get? (pool, consumer) = _
        rw [OrderedMap.get?_erase, if_neg hne]
        exact hget

theorem Steps.forgets (h : Steps s event t) (hreg : Registered s)
    (hget : s.dedicatedChannels.get? (pool, consumer) = some channel) :
    t.dedicatedChannels.get? (pool, consumer) = some channel ∨
      Forgets s t pool consumer channel := by
  cases h with
  | @channelOpened k setup pool' hk hstage =>
    rcases eq_or_ne (pool, consumer) (pool', setup.consumer) with heq | hne
    · cases heq
      exact .inr (.replaced hk hstage rfl)
    · left
      change (s.dedicatedChannels.set _ _).get? _ = _
      rw [OrderedMap.get?_set, if_neg hne]
      exact hget
  | @setupContinues k setup channel' =>
    unfold State.setupContinues
    split
    · next hgone =>
      rcases releaseDedicatedChannel_forgets setup.consumer hget with hget | ⟨hpool, rfl, hlive⟩
      · exact .inl hget
      · refine .inr (.released hpool ?_ hlive)
        simpa [setSetup] using hgone
    · left
      split
      · simpa using hget
      · split <;> exact hget
  | @channelCloses j c hj hlife =>
    have herase : (s.channelCloses j c).dedicatedChannels =
        s.dedicatedChannels.erase (c.pool, c.owner) := by
      rcases channelCloses_cases s j c with heq | ⟨_, _, _, _, heq⟩ <;> simp [heq]
    rcases eq_or_ne (pool, consumer) (c.pool, c.owner) with heq | hne
    · cases heq
      refine .inr (.closed hj hlife rfl rfl ?_)
      have hlt := (List.getElem?_eq_some_iff.mp hj).1
      rcases channelCloses_cases s j c with heq | ⟨_, _, _, _, heq⟩ <;> simp [heq, hlt]
    · left
      rw [herase, OrderedMap.get?_erase, if_neg hne]
      exact hget
  | @removeConsumer d drop workers hd hstage =>
    cases workers with
    | true => exact .inl hget
    | false =>
      have hget' : (s.removed drop).dedicatedChannels.get? (pool, consumer) = some channel := hget
      rw [removeConsumer_of_no_workers]
      rcases releaseDedicatedChannel_forgets drop.consumer hget' with hget' | ⟨hpool, rfl, hlive⟩
      · exact .inl hget'
      · refine .inr (.released hpool ?_ hlive)
        have hactive : ((s.removed drop).releaseDedicatedChannel drop.consumer).2.activeConsumers =
            s.activeConsumers.erase drop.consumer := by simp [removed]
        intro hmem
        exact hreg.nodup.not_mem_erase (hactive ▸ hmem)
  | @terminated d drop hd hstage =>
    rcases releaseDedicatedChannel_forgets drop.consumer hget with hget | ⟨hpool, rfl, hlive⟩
    · exact .inl hget
    · refine .inr (.released hpool ?_ hlive)
      have hgone := hreg.removed hd (by rw [hstage]; rfl)
      simpa [State.terminated, setDrop] using hgone
  | connectionLost => exact .inr (.uninstalled (by rintro ⟨⟩))
  | poolClosed => exact .inr (.uninstalled (by simp))
  | _ =>
    left
    simpa [setLoop, setDrop, setSetup, modifyConsumer, State.consumeOk, tryAgain, closePool]
      using hget

/-! ## Consumes -/

/-- What a step can do to a consume. -/
inductive ConsumeCases (s : State) (i : Nat) (c' : Consume) : Prop
  | kept {c : Consume} (hi : s.consumes[i]? = some c) (hconsumer : c'.consumer = c.consumer)
      (hchannel : c'.channel = c.channel) (hactive : c'.active → c.active)
  | begins {k : Nat} {setup : Setup} (hk : s.setups[k]? = some setup)
      (hstage : setup.stage = .consuming c'.channel) (hconsumer : c'.consumer = setup.consumer)
      (hlive : s.live c'.channel)

theorem cancel_consume_kept {s₀ : State} {consumerTag i : Nat} {c' : Consume}
    (hconsumes : s₀.consumes = s.consumes)
    (hi : (s₀.cancel channel consumerTag).consumes[i]? = some c') :
    ∃ c, s.consumes[i]? = some c ∧ c'.consumer = c.consumer ∧ c'.channel = c.channel ∧
      (c'.active → c.active) := by
  unfold State.cancel at hi
  split at hi
  · simp only [List.getElem?_map, Option.map_eq_some_iff] at hi
    obtain ⟨c, hc, rfl⟩ := hi
    rw [hconsumes] at hc
    split
    · exact ⟨c, hc, rfl, rfl, nofun⟩
    · exact ⟨c, hc, rfl, rfl, id⟩
  · exact ⟨c', hconsumes ▸ hi, rfl, rfl, id⟩

/-- A consume that is not new. -/
theorem Steps.consume_kept (h : Steps s event t) (hnew : ∀ k consumerTag, event ≠ .consumeOk k consumerTag)
    {i : Nat} {c' : Consume} (hi : t.consumes[i]? = some c') :
    ∃ c, s.consumes[i]? = some c ∧ c'.consumer = c.consumer ∧ c'.channel = c.channel ∧
      (c'.active → c.active) := by
  cases h with
  | unsubscribeCancelled => exact cancel_consume_kept rfl hi
  | consumeOk => exact absurd rfl (hnew _ _)
  | setupCancelled => exact cancel_consume_kept rfl (by simpa using hi)
  | @brokerCancels j c hj =>
    simp only [handleConsumerLoss_frame] at hi
    rcases List.getElem?_set_cases hi with ⟨rfl, rfl⟩ | ⟨_, hi⟩
    · exact ⟨c, hj, rfl, rfl, by simp⟩
    · exact ⟨c', hi, rfl, rfl, id⟩
  | _ =>
    refine ⟨c', ?_, rfl, rfl, id⟩
    simpa [setLoop, setDrop, setSetup, modifyConsumer, State.channelOpened, tryAgain, closePool,
      State.connectionLost] using hi

theorem Steps.consumes (h : Steps s event t) {i : Nat} {c' : Consume}
    (hi : t.consumes[i]? = some c') : ConsumeCases s i c' := by
  by_cases hnew : ∀ k consumerTag, event ≠ .consumeOk k consumerTag
  · obtain ⟨c, hc, hconsumer, hchannel, hactive⟩ := h.consume_kept hnew hi
    exact .kept hc hconsumer hchannel hactive
  · simp only [not_forall, not_not] at hnew
    obtain ⟨k, consumerTag, rfl⟩ := hnew
    cases h with
    | consumeOk hk hstage hlive =>
      rcases List.getElem?_append_cases hi with hi | ⟨rfl, rfl⟩
      · exact .kept hi rfl rfl id
      · exact .begins hk hstage rfl hlive

/-! ## Owners -/

/-- The channel that a setup uses. -/
def SetupStage.channel? : SetupStage → Option Nat
  | .opened channel | .prefetching channel | .consuming channel | .consumed channel _
  | .cancelling channel _ => some channel
  | _ => none

/-- Setups, consumes and the registered channels refer to channels of their consumer. -/
structure Owned (s : State) : Prop where
  pools : ∀ {channel : Nat} {c : Channel}, s.channels[channel]? = some c → c.pool < s.pools.length
  owners : ∀ {channel : Nat} {c : Channel}, s.channels[channel]? = some c →
    c.owner < s.consumers.length
  registered : ∀ {pool consumer channel : Nat},
    s.dedicatedChannels.get? (pool, consumer) = some channel →
    ∃ c, s.channels[channel]? = some c ∧ c.pool = pool ∧ c.owner = consumer
  opening : ∀ {k : Nat} {setup : Setup} {pool : Nat}, s.setups[k]? = some setup →
    setup.stage = .opening pool → setup.pool = some pool
  setups : ∀ {k : Nat} {setup : Setup} {channel : Nat}, s.setups[k]? = some setup →
    setup.stage.channel? = some channel →
    ∃ c, s.channels[channel]? = some c ∧ c.owner = setup.consumer
  consumes : ∀ {i : Nat} {consume : Consume}, s.consumes[i]? = some consume →
    ∃ c, s.channels[consume.channel]? = some c ∧ c.owner = consume.consumer

/-- A setup begins without a pool, or by opening a channel, or with the channel that is registered. -/
theorem getDedicatedChannel_cases (s : State) (consumer : Nat) :
    s.getDedicatedChannel consumer = .notConnected ∨
      (∃ pool, s.getDedicatedChannel consumer = .opening pool) ∨
      ∃ channel, s.getDedicatedChannel consumer = .opened channel := by
  unfold getDedicatedChannel
  split
  · exact .inl rfl
  · split
    · exact .inr (.inr ⟨_, rfl⟩)
    · exact .inr (.inl ⟨_, rfl⟩)

theorem getDedicatedChannel_opening (h : s.getDedicatedChannel consumer = .opening pool) :
    s.channelPool = some pool ∧ s.dedicatedChannels.get? (pool, consumer) = none := by
  unfold getDedicatedChannel at h
  split at h
  · cases h
  · next pool' hpool =>
    split at h
    · cases h
    · next hget =>
      cases h
      exact ⟨hpool, hget⟩

theorem getDedicatedChannel_channel (h : (s.getDedicatedChannel consumer).channel? = some channel) :
    ∃ pool, s.channelPool = some pool ∧
      s.dedicatedChannels.get? (pool, consumer) = some channel := by
  unfold getDedicatedChannel at h
  split at h
  · cases h
  · next pool hpool =>
    split at h
    · next channel' hget =>
      cases h
      exact ⟨pool, hpool, hget⟩
    · cases h

/-- The channel of a setup that moves is the one it has, or one that it has just opened. -/
theorem StageMove.uses {setup : Setup} {stage : SetupStage} (h : StageMove s t setup stage)
    (hchannel : stage.channel? = some channel) :
    setup.stage.channel? = some channel ∨
      ∃ c, t.channels[channel]? = some c ∧ c.owner = setup.consumer := by
  cases h with
  | opened _ _ hopened =>
    cases hchannel
    exact .inr ⟨_, hopened, rfl⟩
  | prefetching hstage | skipsPrefetch hstage | consuming hstage | consumed hstage
  | cancelling hstage =>
    left
    rw [hstage]
    exact hchannel
  | releasing | completes | fails => cases hchannel

theorem Owned.step (h : Owned s) (hreg : Registered s) (hsteps : Steps s event t) : Owned t where
  pools := by
    intro channel c hc
    have hle : s.pools.length ≤ t.pools.length := by
      rw [hsteps.pools_length]
      exact Nat.le_add_right _ _
    cases hsteps.channels hc with
    | kept hc₀ hpool =>
      rw [hpool]
      exact Nat.lt_of_lt_of_le (h.pools hc₀) hle
    | opened _ hk hstage =>
      exact Nat.lt_of_lt_of_le (hreg.setupPools hk (h.opening hk hstage)) hle
  owners := by
    intro channel c hc
    have hle : s.consumers.length ≤ t.consumers.length := by
      rw [hsteps.consumers_length]
      exact Nat.le_add_right _ _
    cases hsteps.channels hc with
    | kept hc₀ _ howner =>
      rw [howner]
      exact Nat.lt_of_lt_of_le (h.owners hc₀) hle
    | opened _ hk _ hconsumer =>
      rw [← hconsumer]
      exact Nat.lt_of_lt_of_le (hreg.setups hk) hle
  registered := by
    intro pool consumer channel hget
    cases hsteps.dedicatedChannels hget with
    | same hget =>
      obtain ⟨c, hc, hpool, howner⟩ := h.registered hget
      obtain ⟨c', hc', hpool', howner'⟩ := hsteps.channel_kept hc
      exact ⟨c', hc', hpool'.trans hpool, howner'.trans howner⟩
    | opened _ _ _ _ _ hchannel => exact ⟨_, hchannel, rfl, rfl⟩
  opening := by
    intro k setup pool hk hstage
    cases hsteps.setups hk with
    | same hk => exact h.opening hk hstage
    | moves _ hmove heq =>
      rw [heq] at hstage
      cases hstage
      cases hmove
    | begins _ _ hpool hbegins =>
      rw [hpool]
      exact (getDedicatedChannel_opening (hbegins.symm.trans hstage)).1
  setups := by
    intro k setup channel hk hchannel
    cases hsteps.setups hk with
    | same hk =>
      obtain ⟨c, hc, howner⟩ := h.setups hk hchannel
      obtain ⟨c', hc', _, howner'⟩ := hsteps.channel_kept hc
      exact ⟨c', hc', howner'.trans howner⟩
    | moves hk₀ hmove heq =>
      subst heq
      rcases hmove.uses hchannel with hchannel | hopened
      · obtain ⟨c, hc, howner⟩ := h.setups hk₀ hchannel
        obtain ⟨c', hc', _, howner'⟩ := hsteps.channel_kept hc
        exact ⟨c', hc', howner'.trans howner⟩
      · exact hopened
    | begins _ _ _ hbegins =>
      rw [hbegins] at hchannel
      obtain ⟨pool, _, hget⟩ := getDedicatedChannel_channel hchannel
      obtain ⟨c, hc, _, howner⟩ := h.registered hget
      obtain ⟨c', hc', _, howner'⟩ := hsteps.channel_kept hc
      exact ⟨c', hc', howner'.trans howner⟩
  consumes := by
    intro i consume hi
    cases hsteps.consumes hi with
    | kept hi₀ hconsumer hchannel =>
      obtain ⟨c, hc, howner⟩ := h.consumes hi₀
      obtain ⟨c', hc', _, howner'⟩ := hsteps.channel_kept hc
      rw [hconsumer, hchannel]
      exact ⟨c', hc', howner'.trans howner⟩
    | begins hk hstage hconsumer =>
      obtain ⟨c, hc, howner⟩ := h.setups hk (by rw [hstage]; rfl)
      obtain ⟨c', hc', _, howner'⟩ := hsteps.channel_kept hc
      rw [hconsumer]
      exact ⟨c', hc', howner'.trans howner⟩

theorem owned {ok : State → Event → Prop} (hr : Reach step ok start s) : Owned s :=
  hr.invariant_of registered ⟨nofun, nofun, nofun, nofun, nofun, nofun⟩
    fun hreg _ h _ hs => h.step hreg (step_cases hs)

end ConsumerManager
end RabbitMQ

import RabbitMQ.Consumers.ConsumerManager.Channels

/-! The open channel of a consumer is the one that its pool has registered.

A channel that opens is registered in the place of the one before. So the consumer has to be without
another channel by then, and the pool still be installed: a setup may have asked for the channel
before a restore took the pool down, or while another setup of the consumer was asking too. -/

namespace RabbitMQ
namespace ConsumerManager

open Transition State

variable {s t : State} {event : Event} {pool consumer channel : Nat}

/-- A channel opens on the pool that is installed, for a consumer whose other channels have closed,
and nothing is disconnected. -/
def OpensAlone (s : State) : Event → Prop
  | .channelOpened k => ∀ setup ∈ s.setups[k]?, setup.pool = s.channelPool ∧
    ∀ c ∈ s.channels, c.owner = setup.consumer → c.life = .closed
  | .disconnect | .poolClosed => False
  | _ => True

instance : Decidable (OpensAlone s event) := by
  unfold OpensAlone
  split <;> infer_instance

/-- The channel is live. -/
structure Live (s : State) (channel : Nat) (c : Channel) : Prop where
  get : s.channels[channel]? = some c
  life : c.life = .live

theorem live_iff : s.live channel ↔ ∃ c, Live s channel c := by
  rw [live, Option.any_eq_true]
  constructor
  · rintro ⟨c, hc, hlife⟩
    exact ⟨c, hc, of_decide_eq_true hlife⟩
  · rintro ⟨c, hc, hlife⟩
    exact ⟨c, hc, decide_eq_true hlife⟩

/-- A channel that there was is not open again. -/
theorem Steps.live_before (h : Steps s event t) {c : Channel} (hc : s.channels[channel]? = some c)
    (hlive : t.live channel) : s.live channel := by
  obtain ⟨c', hc', hlife⟩ := live_iff.mp hlive
  cases h.channels hc' with
  | kept hc₀ _ _ hbefore => exact live_iff.mpr ⟨_, hc₀, hbefore hlife⟩
  | opened heq =>
    rw [heq] at hc
    exact absurd (List.getElem?_eq_some_iff.mp hc).1 (Nat.lt_irrefl _)

theorem not_live_of_closed {c : Channel} (hc : s.channels[channel]? = some c)
    (hlife : c.life = .closed) : ¬ s.live channel := by
  intro hlive
  obtain ⟨c', hc', hlife'⟩ := live_iff.mp hlive
  cases hc.symm.trans hc'
  cases hlife.symm.trans hlife'

structure Sole (s : State) : Prop where
  /-- A consumer has one channel at most that has not closed. -/
  one : ∀ {i j : Nat} {c c' : Channel}, s.channels[i]? = some c → s.channels[j]? = some c' →
    c.owner = c'.owner → c.life ≠ .closed → c'.life ≠ .closed → i = j
  installed : ∀ {i : Nat} {c : Channel}, Live s i c → s.channelPool = some c.pool
  registered : ∀ {i : Nat} {c : Channel}, Live s i c →
    s.dedicatedChannels.get? (c.pool, c.owner) = some i

theorem sole_start : Sole start where
  one hi := by cases hi
  installed h := by cases h.get
  registered h := by cases h.get

/-- Only the channels matter, and what is installed and registered. -/
theorem Sole.congr (h : Sole s) (hchannels : t.channels = s.channels)
    (hpool : t.channelPool = s.channelPool)
    (hdedicated : t.dedicatedChannels = s.dedicatedChannels) : Sole t where
  one hi hj := h.one (hchannels ▸ hi) (hchannels ▸ hj)
  installed hlive := hpool ▸ h.installed ⟨hchannels ▸ hlive.get, hlive.life⟩
  registered hlive := hdedicated ▸ h.registered ⟨hchannels ▸ hlive.get, hlive.life⟩

/-! ## Channels that are there -/

/-- What a channel was before a step that opens none. -/
theorem Steps.channel_before (h : Steps s event t) (hopen : ∀ k, event ≠ .channelOpened k)
    {c' : Channel} (hc : t.channels[channel]? = some c') :
    ∃ c, s.channels[channel]? = some c ∧ c'.pool = c.pool ∧ c'.owner = c.owner ∧
      (c'.life = .live → c.life = .live) ∧ (c.life = .closed → c'.life = .closed) := by
  cases h.channels hc with
  | kept hc₀ hpool howner hlive hclosed => exact ⟨_, hc₀, hpool, howner, hlive, hclosed⟩
  | opened heq =>
    have hlt := (List.getElem?_eq_some_iff.mp hc).1
    rw [h.channels_length_eq hopen, heq] at hlt
    exact absurd hlt (Nat.lt_irrefl _)

/-- A pool goes with the channels that are live on it. -/
theorem Steps.installed_kept (h : Steps s event t) (hopen : ∀ k, event ≠ .channelOpened k)
    (hclosed : event ≠ .poolClosed) {c' : Channel} (hlive : Live t channel c')
    (hpool : s.channelPool = some c'.pool) : t.channelPool = some c'.pool := by
  cases h with
  | channelOpened => exact absurd rfl (hopen _)
  | poolClosed => exact absurd rfl hclosed
  | poolInstalled hnone => cases hnone.symm.trans hpool
  | @restoreFails pool hinstalled =>
    obtain ⟨hc, hlife⟩ := hlive
    simp only [closePool, List.getElem?_map, Option.map_eq_some_iff] at hc
    obtain ⟨c, hc, rfl⟩ := hc
    split at hlife
    · cases hlife
    · next hother =>
      refine absurd ⟨?_, hlife⟩ hother
      rw [if_neg hother, hinstalled] at hpool
      exact (Option.some.inj hpool).symm
  | connectionLost =>
    obtain ⟨hc, hlife⟩ := hlive
    simp only [State.connectionLost, List.getElem?_map, Option.map_eq_some_iff] at hc
    obtain ⟨c, hc, rfl⟩ := hc
    cases hlife
  | _ =>
    refine Eq.trans ?_ hpool
    simp [setLoop, setDrop, setSetup, modifyConsumer, State.consumeOk, tryAgain]

/-- A channel that is live after a release is registered as before. -/
theorem releaseDedicatedChannel_live (consumer' : Nat)
    (hget : s.dedicatedChannels.get? (pool, consumer) = some channel)
    (hlive : (s.releaseDedicatedChannel consumer').2.live channel) :
    (s.releaseDedicatedChannel consumer').2.dedicatedChannels.get? (pool, consumer) =
      some channel :=
  (releaseDedicatedChannel_forgets consumer' hget).resolve_right fun h => h.2.2 hlive

/-- The channel of a consumer stays registered while it is live, if none takes its place. -/
theorem Sole.registered_kept (h : Sole s) (hsteps : Steps s event t)
    (hopen : ∀ k, event ≠ .channelOpened k) (hclosed : event ≠ .poolClosed) {c c' : Channel}
    (hlive : Live t channel c') (hbefore : Live s channel c)
    (hpool : c'.pool = c.pool) (howner : c'.owner = c.owner) :
    t.dedicatedChannels.get? (c'.pool, c'.owner) = some channel := by
  have hget := h.registered hbefore
  have hlive' : t.live channel := live_iff.mpr ⟨c', hlive⟩
  rw [hpool, howner]
  cases hsteps with
  | channelOpened => exact absurd rfl (hopen _)
  | poolClosed => exact absurd rfl hclosed
  | @setupContinues k setup channel' =>
    unfold State.setupContinues at hlive' ⊢
    by_cases hgone : setup.consumer ∉ s.activeConsumers
    · rw [if_pos hgone] at hlive' ⊢
      exact releaseDedicatedChannel_live setup.consumer hget hlive'
    · rw [if_neg hgone]
      split
      · simpa using hget
      · split <;> exact hget
  | @channelCloses j c₁ hj hlife =>
    have herase : (s.channelCloses j c₁).dedicatedChannels =
        s.dedicatedChannels.erase (c₁.pool, c₁.owner) := by
      rcases channelCloses_cases s j c₁ with heq | ⟨_, _, _, _, heq⟩ <;> simp [heq]
    rw [herase, OrderedMap.get?_erase, if_neg]
    · exact hget
    · intro heq
      -- the channel that closes would be the one that is live
      have hsame := h.one hbefore.get hj (Prod.mk.inj heq).2
        (by rw [hbefore.life]; simp) hlife
      subst hsame
      have hset : (s.channelCloses channel c₁).channels[channel]? =
          some { c₁ with life := .closed } := by
        have hlt := (List.getElem?_eq_some_iff.mp hj).1
        rcases channelCloses_cases s channel c₁ with heq | ⟨_, _, _, _, heq⟩ <;> simp [heq, hlt]
      have hlife' := hlive.life
      cases hset.symm.trans hlive.get
      cases hlife'
  | @removeConsumer d drop workers =>
    cases workers with
    | true => exact hget
    | false =>
      rw [removeConsumer_of_no_workers] at hlive' ⊢
      have hget' : (s.removed drop).dedicatedChannels.get? (c.pool, c.owner) = some channel := hget
      exact releaseDedicatedChannel_live drop.consumer hget' hlive'
  | @terminated d drop =>
    exact releaseDedicatedChannel_live drop.consumer hget hlive'
  | connectionLost =>
    obtain ⟨hc, hlife⟩ := hlive
    simp only [State.connectionLost, List.getElem?_map, Option.map_eq_some_iff] at hc
    obtain ⟨c₁, hc, rfl⟩ := hc
    cases hlife
  | _ =>
    simpa [setLoop, setDrop, setSetup, modifyConsumer, State.consumeOk, tryAgain, closePool]
      using hget

/-! ## The invariant -/

/-- The channel that opens is the only one of its consumer, on the pool that is installed. -/
theorem Sole.channelOpened (h : Sole s) {k : Nat} {setup : Setup} (hpool : s.channelPool = some pool)
    (hothers : ∀ c ∈ s.channels, c.owner = setup.consumer → c.life = .closed) :
    Sole (s.channelOpened k setup pool) where
  one := by
    intro i j c c' hi hj howner hlife hlife'
    rcases List.getElem?_append_cases hi with hi | ⟨rfl, rfl⟩
    · rcases List.getElem?_append_cases hj with hj | ⟨rfl, rfl⟩
      · exact h.one hi hj howner hlife hlife'
      · exact absurd (hothers c (List.mem_of_getElem? hi) howner) hlife
    · rcases List.getElem?_append_cases hj with hj | ⟨rfl, rfl⟩
      · exact absurd (hothers c' (List.mem_of_getElem? hj) howner.symm) hlife'
      · rfl
  installed := by
    rintro i c ⟨hi, hlife⟩
    rcases List.getElem?_append_cases hi with hi | ⟨rfl, rfl⟩
    · exact h.installed ⟨hi, hlife⟩
    · exact hpool
  registered := by
    rintro i c ⟨hi, hlife⟩
    change (s.dedicatedChannels.set (pool, setup.consumer) s.channels.length).get? _ = _
    rw [OrderedMap.get?_set]
    rcases List.getElem?_append_cases hi with hi | ⟨rfl, rfl⟩
    · rw [if_neg]
      · exact h.registered ⟨hi, hlife⟩
      · intro heq
        have hclosed := hothers c (List.mem_of_getElem? hi) (Prod.mk.inj heq).2
        rw [hlife] at hclosed
        cases hclosed
    · exact if_pos rfl

theorem Sole.step (h : Sole s) (howned : Owned s) (hok : OpensAlone s event)
    (hsteps : Steps s event t) : Sole t := by
  by_cases hopened : ∃ k, event = .channelOpened k
  · obtain ⟨k, rfl⟩ := hopened
    cases hsteps with
    | channelOpened hk hstage =>
      obtain ⟨hpool, hothers⟩ := hok _ hk
      exact h.channelOpened (hpool.symm.trans (howned.opening hk hstage)) hothers
  · have hopen : ∀ k, event ≠ .channelOpened k := fun k heq => hopened ⟨k, heq⟩
    have hclosed : event ≠ .poolClosed := by
      rintro rfl
      exact hok
    refine ⟨fun {i j c c'} hi hj howner hlife hlife' => ?_, fun {i c} hlive => ?_,
      fun {i c} hlive => ?_⟩
    · obtain ⟨c₀, hc₀, -, howner₀, -, hclosed₀⟩ := hsteps.channel_before hopen hi
      obtain ⟨c₁, hc₁, -, howner₁, -, hclosed₁⟩ := hsteps.channel_before hopen hj
      refine h.one hc₀ hc₁ ?_ (fun heq => hlife (hclosed₀ heq)) fun heq => hlife' (hclosed₁ heq)
      exact howner₀.symm.trans (howner.trans howner₁)
    · obtain ⟨c₀, hc₀, hpool₀, -, hlive₀, -⟩ := hsteps.channel_before hopen hlive.get
      refine hsteps.installed_kept hopen hclosed hlive ?_
      rw [hpool₀]
      exact h.installed ⟨hc₀, hlive₀ hlive.life⟩
    · obtain ⟨c₀, hc₀, hpool₀, howner₀, hlive₀, -⟩ := hsteps.channel_before hopen hlive.get
      exact h.registered_kept hsteps hopen hclosed hlive ⟨hc₀, hlive₀ hlive.life⟩ hpool₀ howner₀

/-- Removing a consumer without workers closes its open channel. -/
theorem Sole.removed_not_live (h : Sole s) {d : Nat} {drop : Drop} {c : Channel}
    (hc : s.channels[channel]? = some c) (howner : c.owner = drop.consumer) :
    ¬ (s.removeConsumer d drop false).live channel := by
  rw [removeConsumer_of_no_workers]
  by_cases hlife : c.life = .live
  · have hpool := h.installed ⟨hc, hlife⟩
    have hget := h.registered ⟨hc, hlife⟩
    rw [howner] at hget
    have hget' : (s.removed drop).dedicatedChannels.get? (c.pool, drop.consumer) = some channel :=
      hget
    have hpool' : (s.removed drop).channelPool = some c.pool := hpool
    change ¬ ((s.removed drop).releaseDedicatedChannel drop.consumer).2.live channel
    unfold releaseDedicatedChannel
    simp only [hpool', hget']
    exact closeChannel_live
  · intro hlive
    obtain ⟨c', hc', hlife'⟩ := live_iff.mp hlive
    have hchannels : (s.removed drop).channels = s.channels := rfl
    cases releaseDedicatedChannel_channels (t := s) hchannels hc' with
    | kept hc₀ _ _ hlive₀ =>
      cases hc.symm.trans hc₀
      exact hlife (hlive₀ hlife')
    | opened heq =>
      rw [heq] at hc
      exact absurd (List.getElem?_eq_some_iff.mp hc).1 (Nat.lt_irrefl _)

end ConsumerManager
end RabbitMQ

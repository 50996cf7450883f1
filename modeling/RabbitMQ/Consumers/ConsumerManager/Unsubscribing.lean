import RabbitMQ.Consumers.ConsumerManager.Channels

/-! A consumer that was unsubscribed is stopped, whatever setup of it was in flight.

The channels of a consumer on the pool that is installed are tidy while the consumer is registered
or uses one of them: each of them that is not closed is the registered one, so releasing the consumer
closes whatever carries a consume of it. -/

namespace RabbitMQ
namespace ConsumerManager

open Transition State

variable {s t : State} {event : Event} {pool consumer channel : Nat}

/-- Nothing is left of a consumer on the pool that is installed. -/
structure Stopped (s : State) (consumer : Nat) : Prop where
  /-- No open channel carries a consume that has not been cancelled. -/
  consumes : ∀ consume ∈ s.consumes, consume.consumer = consumer → consume.active →
    ∀ channel, s.channels[consume.channel]? = some channel → channel.life = .live →
      s.channelPool ≠ some channel.pool
  dedicatedChannels : ∀ pool, s.channelPool = some pool →
    s.dedicatedChannels.get? (pool, consumer) = none
  activeConsumers : consumer ∉ s.activeConsumers
  consumersByTag : ∀ consumerTag, s.consumersByTag.get? consumerTag ≠ some consumer

def SetupStage.isSettled : SetupStage → Bool
  | .settled _ => true
  | _ => false

/-- The consumer whose setup a step runs. -/
def runsSetup (s : State) : Event → Option Nat
  | .subscribe _ => some s.consumers.length
  | .loopWakes l => s.loops[l]?.bind fun loop =>
    if s.stillOurs loop ∧ s.epoch loop.consumer = loop.knownEpoch then some loop.consumer else none
  | .recreates => s.recreating.head?
  | _ => none

/-- A consumer has one setup in flight at a time. -/
def OneAtATime (consumer : Nat) (s : State) (event : Event) : Prop :=
  runsSetup s event = some consumer →
    ∀ setup ∈ s.setups, setup.consumer = consumer → setup.stage.isSettled

instance : Decidable (OneAtATime consumer s event) :=
  inferInstanceAs (Decidable (_ → ∀ setup ∈ s.setups, _ → _))

theorem Begins.runs {setup : Setup} (h : Begins s event setup) :
    runsSetup s event = some setup.consumer := by
  cases h with
  | subscribe hevent _ hnew => rw [hevent, runsSetup, hnew]
  | recovery hevent _ hl _ hours hepoch hconsumer =>
    rw [hevent, runsSetup, hl, Option.bind_some, if_pos ⟨hours, hepoch⟩, hconsumer]
  | recreation hevent _ hrecreating =>
    rw [hevent, runsSetup, hrecreating, List.head?_cons]

/-! ## Tags and calls -/

/-- A tag belongs to a registered consumer. -/
def TagsRegistered (s : State) : Prop :=
  ∀ consumerTag consumer, s.consumersByTag.get? consumerTag = some consumer →
    consumer ∈ s.activeConsumers

theorem TagsRegistered.step (h : TagsRegistered s) (hsteps : Steps s event t) :
    TagsRegistered t := by
  intro consumerTag consumer htag
  have hkept := h consumerTag consumer
  cases hsteps with
  | subscribe =>
    simp only [runSetup_frame] at htag ⊢
    exact List.mem_append_left _ (hkept htag)
  | @setupCompletes k setup channel consumerTag' =>
    unfold State.setupCompletes at htag ⊢
    split at htag
    · next hcancelled =>
      rw [if_pos hcancelled]
      exact hkept htag
    · next hcancelled =>
      rw [if_neg hcancelled]
      rw [not_or, not_not] at hcancelled
      simp only [settleSetup_frame, track_frame] at htag ⊢
      change (s.consumersByTag.set consumerTag' setup.consumer).get? consumerTag = _ at htag
      rw [OrderedMap.get?_set] at htag
      split at htag
      · cases htag
        exact hcancelled.1
      · exact hkept htag
  | @removeConsumer d drop workers =>
    rw [(removeConsumer_registry s d drop workers).2.1] at htag
    rw [(removeConsumer_registry s d drop workers).1]
    obtain ⟨htag, hne⟩ := OrderedMap.get?_filter.mp htag
    exact (List.mem_erase_of_ne (of_decide_eq_true hne)).mpr (hkept htag)
  | disconnect =>
    unfold State.disconnect at htag
    dsimp only at htag
    split at htag <;> cases htag
  | _ =>
    have htag₀ : s.consumersByTag.get? consumerTag = some consumer := by
      simpa [setLoop, setDrop, setSetup, modifyConsumer, State.channelOpened, State.consumeOk,
        tryAgain, closePool, State.connectionLost] using htag
    simpa [setLoop, setDrop, setSetup, modifyConsumer, State.channelOpened, State.consumeOk,
      tryAgain, closePool, State.connectionLost] using hkept htag₀

/-- The consumer's channel has been released. -/
def DropStage.isReleased : DropStage → Bool
  | .releasing _ | .done => true
  | _ => false

theorem DropStage.waits_of_isReleased {stage : DropStage} (h : stage.isReleased) :
    stage.waits = false := by
  cases stage with
  | releasing | done => rfl
  | draining | drained | terminating => cases h

/-- A drop of the consumer has released its channel. -/
def Released (s : State) (consumer : Nat) : Prop :=
  ∃ (d : Nat) (drop : Drop), s.drops[d]? = some drop ∧ drop.consumer = consumer ∧
    drop.stage.isReleased

/-- A step releases a consumer, or it was released before. -/
theorem Steps.released (h : Steps s event t) (hreleased : Released t consumer) :
    Released s consumer ∨ ∃ drop ∈ s.drops, drop.consumer = consumer ∧
      (drop.stage = .drained ∨ drop.stage = .terminating) ∧
      ∀ pool, t.channelPool = some pool → t.dedicatedChannels.get? (pool, consumer) = none := by
  obtain ⟨d, drop, hd, hconsumer, hstage⟩ := hreleased
  cases h.drops hd with
  | same hd => exact .inl ⟨d, drop, hd, hconsumer, hstage⟩
  | drained _ _ heq | removes _ _ heq =>
    rw [heq] at hstage
    cases hstage
  | @releases drop₀ _ hd₀ hstage₀ heq _ hreleased =>
    have heq : drop.consumer = drop₀.consumer := by rw [heq]
    refine .inr ⟨drop₀, List.mem_of_getElem? hd₀, heq.symm.trans hconsumer, hstage₀, ?_⟩
    rw [← hconsumer, heq]
    exact hreleased
  | @done drop₀ _ hd₀ hstage₀ heq =>
    have heq : drop.consumer = drop₀.consumer := by rw [heq]
    exact .inl ⟨d, drop₀, hd₀, heq.symm.trans hconsumer, by rw [hstage₀]; rfl⟩
  | begins _ hwaits =>
    rw [DropStage.waits_of_isReleased hstage] at hwaits
    cases hwaits

/-- A drop that is done stays as it is. -/
theorem Steps.drop_done (h : Steps s event t) {d : Nat} {drop : Drop}
    (hd : s.drops[d]? = some drop) (hdone : drop.stage = .done) : t.drops[d]? = some drop := by
  obtain ⟨drop', hd', hcases⟩ := h.drop_cases hd
  cases hcases with
  | same hd₀ =>
    cases hd₀.symm.trans hd
    exact hd'
  | drained hd₀ hstage | removes hd₀ hstage | done hd₀ hstage =>
    cases hd₀.symm.trans hd
    cases hstage.symm.trans hdone
  | releases hd₀ hstage =>
    cases hd₀.symm.trans hd
    rw [hdone] at hstage
    rcases hstage with hstage | hstage <;> cases hstage
  | begins heq =>
    rw [heq, List.getElem?_eq_none (Nat.le_refl _)] at hd
    cases hd

/-- A call of `unsubscribe` drops its consumer, and has resolved when the drop is done. -/
structure Called (s : State) : Prop where
  drops : ∀ {d u : Nat} {drop : Drop}, s.drops[d]? = some drop → drop.cause = .unsubscribe u →
    ∃ unsubscribe, s.unsubscribes[u]? = some unsubscribe ∧ unsubscribe.consumer = drop.consumer
  resolved : ∀ {u : Nat} {unsubscribe : Unsubscribe}, s.unsubscribes[u]? = some unsubscribe →
    unsubscribe.stage = .resolved → ∃ (d : Nat) (drop : Drop), s.drops[d]? = some drop ∧
      drop.consumer = unsubscribe.consumer ∧ drop.stage = .done

theorem Called.step (h : Called s) (hsteps : Steps s event t) : Called t where
  drops := by
    intro d u drop hd hcause
    rcases (hsteps.drops hd).origin with ⟨drop₀, hd₀, hconsumer, heq⟩ | ⟨_, _, hdropping⟩
    · obtain ⟨unsubscribe, hu, hconsumer₀⟩ := h.drops hd₀ (heq ▸ hcause)
      obtain ⟨unsubscribe', hu', hconsumer'⟩ := hsteps.unsubscribe_kept hu
      exact ⟨unsubscribe', hu', hconsumer'.trans (hconsumer₀.trans hconsumer.symm)⟩
    · cases hdropping with
      | subscribe hcause' => cases hcause.symm.trans hcause'
      | recovery hcause' => cases hcause.symm.trans hcause'
      | unsubscribe hcause' hu =>
        cases hcause.symm.trans hcause'
        exact ⟨_, hu, rfl⟩
  resolved := by
    intro u unsubscribe hu hstage
    cases hsteps.unsubscribes hu with
    | same hu₀ =>
      obtain ⟨d, drop, hd, hconsumer, hdone⟩ := h.resolved hu₀ hstage
      exact ⟨d, drop, hsteps.drop_done hd hdone, hconsumer, hdone⟩
    | begins _ _ hne => exact absurd hstage hne
    | cancelled _ heq =>
      rw [heq] at hstage
      cases hstage
    | resolved hu₀ heq hd _ hcause hdone =>
      obtain ⟨unsubscribe₀, hu', hconsumer⟩ := h.drops hd hcause
      cases hu₀.symm.trans hu'
      rw [heq]
      exact ⟨_, _, hdone, hconsumer.symm, rfl⟩

theorem called_start : Called start where
  drops := by
    intro d u drop hd
    cases hd
  resolved := by
    intro u unsubscribe hu
    cases hu

theorem called {ok : State → Event → Prop} (hr : Reach step ok start s) : Called s :=
  hr.invariant called_start fun h _ hs => h.step (step_cases hs)

/-! ## Channels of a consumer -/

/-- The consumer consumes on a channel, or is about to. -/
def Uses (s : State) (consumer channel : Nat) : Prop :=
  (∃ (i : Nat) (consume : Consume), s.consumes[i]? = some consume ∧
    consume.consumer = consumer ∧ consume.channel = channel ∧ consume.active) ∨
  ∃ (k : Nat) (setup : Setup), s.setups[k]? = some setup ∧ setup.consumer = consumer ∧
    (setup.stage = .prefetching channel ∨ setup.stage = .consuming channel)

/-- A live channel of the consumer on a pool. -/
def Open (s : State) (consumer pool channel : Nat) : Prop :=
  ∃ c, s.channels[channel]? = some c ∧ c.owner = consumer ∧ c.pool = pool ∧ c.life = .live

/-- The channels of the consumer on a pool that are not closed are registered. -/
def Tidy (s : State) (consumer pool : Nat) : Prop :=
  ∀ {channel : Nat} {c : Channel}, s.channels[channel]? = some c → c.owner = consumer →
    c.pool = pool → c.life ≠ .closed → s.dedicatedChannels.get? (pool, consumer) = some channel

/-- A channel comes into use while its consumer is registered. -/
theorem Steps.uses (h : Steps s event t) (huses : Uses t consumer channel) :
    Uses s consumer channel ∨ consumer ∈ s.activeConsumers := by
  rcases huses with ⟨i, consume, hi, hconsumer, hchannel, hactive⟩ | ⟨k, setup, hk, hconsumer, hstage⟩
  · left
    cases h.consumes hi with
    | @kept consume₀ hi₀ hconsumer₀ hchannel₀ hactive₀ =>
      exact .inl ⟨i, consume₀, hi₀, hconsumer₀ ▸ hconsumer, hchannel₀ ▸ hchannel, hactive₀ hactive⟩
    | @begins k setup hk hstage hconsumer₀ =>
      exact .inr ⟨k, setup, hk, hconsumer₀.symm.trans hconsumer, .inr (hchannel ▸ hstage)⟩
  · cases h.setups hk with
    | same hk₀ => exact .inl (.inr ⟨k, setup, hk₀, hconsumer, hstage⟩)
    | @moves setup₀ stage hk₀ hmove heq =>
      subst heq
      rcases hstage with rfl | rfl
      · cases hmove with
        | prefetching _ hactive => exact .inr (hconsumer ▸ hactive)
      · cases hmove with
        | skipsPrefetch _ hactive => exact .inr (hconsumer ▸ hactive)
        | consuming hstage₀ => exact .inl (.inr ⟨k, setup₀, hk₀, hconsumer, .inl hstage₀⟩)
    | begins _ _ _ hbegins =>
      rw [hbegins] at hstage
      rcases getDedicatedChannel_cases s setup.consumer with heq | ⟨_, heq⟩ | ⟨_, heq⟩ <;>
        simp [heq] at hstage

/-- A live channel was live before the step, or the step opens it. -/
theorem Steps.opens (h : Steps s event t) (hopen : Open t consumer pool channel) :
    Open s consumer pool channel ∨ (channel = s.channels.length ∧
      ∃ (k : Nat) (setup : Setup), s.setups[k]? = some setup ∧ setup.consumer = consumer ∧
        setup.stage = .opening pool) := by
  obtain ⟨c', hc', howner, hpool, hlive⟩ := hopen
  cases h.channels hc' with
  | @kept c hc hpool₀ howner₀ hlive₀ =>
    exact .inl ⟨c, hc, howner₀.symm.trans howner, hpool₀.symm.trans hpool, hlive₀ hlive⟩
  | @opened k setup heq hk hstage hconsumer =>
    exact .inr ⟨heq, k, setup, hk, hconsumer.trans howner, hpool ▸ hstage⟩

theorem Owned.exists_of_uses (h : Owned s) (huses : Uses s consumer channel) :
    ∃ c, s.channels[channel]? = some c ∧ c.owner = consumer := by
  rcases huses with ⟨i, consume, hi, hconsumer, hchannel, _⟩ | ⟨k, setup, hk, hconsumer, hstage⟩
  · rw [← hconsumer, ← hchannel]
    exact h.consumes hi
  · rw [← hconsumer]
    refine h.setups hk ?_
    rcases hstage with hstage | hstage <;> rw [hstage] <;> rfl

/-- A live channel in use was live and in use before the step, or its consumer was registered. -/
theorem Owned.uses_open (h : Owned s) (hsteps : Steps s event t)
    (huses : Uses t consumer channel) (hopen : Open t consumer pool channel) :
    (Uses s consumer channel ∧ Open s consumer pool channel) ∨ consumer ∈ s.activeConsumers := by
  rcases hsteps.uses huses with huses | hactive
  · rcases hsteps.opens hopen with hopen | ⟨rfl, _⟩
    · exact .inl ⟨huses, hopen⟩
    · obtain ⟨c, hc, _⟩ := h.exists_of_uses huses
      exact absurd (List.getElem?_eq_some_iff.mp hc).1 (Nat.lt_irrefl _)
  · exact .inr hactive

/-- The pool of a channel that there was before the step is installed after it only if it was. -/
theorem Owned.installed (h : Owned s) (hsteps : Steps s event t) {c : Channel}
    (hpool : t.channelPool = some c.pool) (hc : s.channels[channel]? = some c) :
    s.channelPool = some c.pool := by
  have hlt := h.pools hc
  rcases hsteps.channelPool hpool with ⟨hpool, _⟩ | ⟨_, heq, _⟩
  · exact hpool
  · omega

/-- The channels of a consumer that has one setup in flight at a time. -/
structure Tidied (consumer : Nat) (s : State) : Prop where
  /-- At most one setup is in flight. -/
  alone : ∀ {k j : Nat} {setup setup' : Setup}, s.setups[k]? = some setup →
    s.setups[j]? = some setup' → setup.consumer = consumer → setup'.consumer = consumer →
    ¬ setup.stage.isSettled → ¬ setup'.stage.isSettled → k = j
  opening : ∀ {k pool : Nat} {setup : Setup}, s.setups[k]? = some setup →
    setup.consumer = consumer → setup.stage = .opening pool →
    s.dedicatedChannels.get? (pool, consumer) = none
  tidy : ∀ {pool : Nat}, s.channelPool = some pool →
    (consumer ∈ s.activeConsumers ∨
      ∃ channel, Uses s consumer channel ∧ Open s consumer pool channel) → Tidy s consumer pool
  stopped : ∀ {pool channel : Nat}, Released s consumer → s.channelPool = some pool →
    Uses s consumer channel → ¬ Open s consumer pool channel
  /-- What is registered for a consumer that was released belongs to a setup that is about to
  release it. -/
  leftover : ∀ {pool channel : Nat}, Released s consumer → s.channelPool = some pool →
    s.dedicatedChannels.get? (pool, consumer) = some channel →
    ∃ (k : Nat) (setup : Setup), s.setups[k]? = some setup ∧ setup.consumer = consumer ∧
      setup.stage = .opened channel

theorem tidied_start : Tidied consumer start where
  alone := by
    intro k j setup setup' hk
    cases hk
  opening := by
    intro k pool setup hk
    cases hk
  tidy := nofun
  stopped := nofun
  leftover := nofun

/-- A setup that is in flight after a step was in flight before it, or begins. -/
theorem SetupCases.unsettled {k : Nat} {setup' : Setup} (h : SetupCases s t event k setup')
    (hsettled : ¬ setup'.stage.isSettled) :
    (∃ setup, s.setups[k]? = some setup ∧ setup.consumer = setup'.consumer ∧
      ¬ setup.stage.isSettled) ∨ (k = s.setups.length ∧ Begins s event setup') := by
  cases h with
  | same hk => exact .inl ⟨setup', hk, rfl, hsettled⟩
  | @moves setup stage hk hmove heq =>
    refine .inl ⟨setup, hk, by rw [heq], ?_⟩
    cases hmove with
    | opened hstage | releasing hstage | prefetching hstage | skipsPrefetch hstage
    | consuming hstage | consumed hstage | cancelling hstage | completes hstage =>
      rw [hstage]
      nofun
    | fails hstage =>
      rw [heq] at hsettled
      exact absurd rfl hsettled
  | begins hk hbegins => exact .inr ⟨hk, hbegins⟩

theorem Tidied.step_alone (h : Tidied consumer s) (hok : OneAtATime consumer s event)
    (hsteps : Steps s event t) {k j : Nat} {setup setup' : Setup}
    (hk : t.setups[k]? = some setup) (hj : t.setups[j]? = some setup')
    (hconsumer : setup.consumer = consumer) (hconsumer' : setup'.consumer = consumer)
    (hstage : ¬ setup.stage.isSettled) (hstage' : ¬ setup'.stage.isSettled) : k = j := by
  rcases (hsteps.setups hk).unsettled hstage with ⟨a, ha, haconsumer, hastage⟩ | ⟨rfl, hbegins⟩
  · rcases (hsteps.setups hj).unsettled hstage' with ⟨b, hb, hbconsumer, hbstage⟩ | ⟨rfl, hbegins⟩
    · exact h.alone ha hb (haconsumer.trans hconsumer) (hbconsumer.trans hconsumer') hastage hbstage
    · have hsettled := hok (hconsumer' ▸ hbegins.runs) a (List.mem_of_getElem? ha)
        (haconsumer.trans hconsumer)
      exact absurd hsettled hastage
  · rcases (hsteps.setups hj).unsettled hstage' with ⟨b, hb, hbconsumer, hbstage⟩ | ⟨rfl, _⟩
    · have hsettled := hok (hconsumer ▸ hbegins.runs) b (List.mem_of_getElem? hb)
        (hbconsumer.trans hconsumer')
      exact absurd hsettled hbstage
    · rfl

theorem Tidied.step_opening (h : Tidied consumer s) (hok : OneAtATime consumer s event)
    (hsteps : Steps s event t) {k : Nat} {setup : Setup} (hk : t.setups[k]? = some setup)
    (hconsumer : setup.consumer = consumer) (hstage : setup.stage = .opening pool) :
    t.dedicatedChannels.get? (pool, consumer) = none := by
  have hbefore : s.dedicatedChannels.get? (pool, consumer) = none := by
    cases hsteps.setups hk with
    | same hk => exact h.opening hk hconsumer hstage
    | moves _ hmove heq =>
      rw [heq] at hstage
      cases hstage
      cases hmove
    | begins _ _ _ hbegins =>
      rw [← hconsumer]
      exact (getDedicatedChannel_opening (hbegins.symm.trans hstage)).2
  refine Option.eq_none_iff_forall_ne_some.mpr fun channel hget => ?_
  cases hsteps.dedicatedChannels hget with
  | same hget => cases hbefore.symm.trans hget
  | @opened j setup' _ hj hstage' hconsumer' hopened =>
    -- both setups are in flight, so they are one, which still has to open its channel
    have hkj := h.step_alone hok hsteps hk hopened hconsumer hconsumer' (by rw [hstage]; nofun)
      (by nofun)
    subst hkj
    cases hk.symm.trans hopened
    cases hstage

/-- What was tidy is tidy after a step, when the consumer still is registered or uses one of its
channels. -/
theorem Tidied.step_tidy (h : Tidied consumer s) (hreg : Registered s) (howned : Owned s)
    (hsteps : Steps s event t) (hpool : t.channelPool = some pool)
    (huses : consumer ∈ t.activeConsumers ∨
      ∃ channel, Uses t consumer channel ∧ Open t consumer pool channel) :
    Tidy t consumer pool := by
  intro channel c' hc' howner hcpool hlife
  cases hsteps.channels hc' with
  | opened heq hk hstage hconsumer hregistered =>
    rw [← hcpool, ← howner]
    exact hregistered
  | @kept c hc hpool₀ howner₀ hlive₀ hclosed₀ =>
    subst hcpool
    rw [hpool₀] at hpool ⊢
    have howner := howner₀.symm.trans howner
    have hlife₀ : c.life ≠ .closed := fun hclosed => hlife (hclosed₀ hclosed)
    have hbefore : s.channelPool = some c.pool := howned.installed hsteps hpool hc
    have hreason : consumer ∈ s.activeConsumers ∨
        ∃ channel, Uses s consumer channel ∧ Open s consumer c.pool channel := by
      rcases huses with hactive | ⟨used, huses, hopen⟩
      · rcases hsteps.active hactive with hactive | ⟨rfl, _⟩
        · exact .inl hactive
        · have hlt := howned.owners hc
          omega
      · rw [hpool₀] at hopen
        rcases howned.uses_open hsteps huses hopen with hboth | hactive
        · exact .inr ⟨used, hboth⟩
        · exact .inl hactive
    have htidy : Tidy s consumer c.pool := h.tidy hbefore hreason
    have hget := htidy hc howner rfl hlife₀
    rcases hsteps.forgets hreg hget with hget | hforgets
    · exact hget
    · exfalso
      cases hforgets with
      | uninstalled hne => exact hne hpool
      | @closed j c₁ hj hlife₁ hpool₁ howner₁ hclosed =>
        cases hget.symm.trans (htidy hj howner₁ hpool₁ hlife₁)
        cases hc'.symm.trans hclosed
        exact hlife rfl
      | released _ hgone hlive =>
        rcases huses with hactive | ⟨used, _, hopen⟩
        · exact hgone hactive
        · rw [hpool₀] at hopen
          have hlive' : t.live used := by
            obtain ⟨c₁, hc₁, _, _, hlife₁⟩ := hopen
            rw [live, hc₁, Option.any_some, hlife₁]
            rfl
          rcases hsteps.opens hopen with ⟨c₁, hc₁, howner₁, hpool₁, hlife₁⟩ | ⟨_, k, setup, hk,
            hconsumer, hstage⟩
          · have hused := htidy hc₁ howner₁ hpool₁ (by rw [hlife₁]; simp)
            cases hget.symm.trans hused
            exact hlive hlive'
          · cases hget.symm.trans (h.opening hk hconsumer hstage)
      | replaced hk hstage hconsumer => cases hget.symm.trans (h.opening hk hconsumer hstage)

theorem Registered.released (h : Registered s) (hreleased : Released s consumer) :
    consumer ∉ s.activeConsumers := by
  obtain ⟨d, drop, hd, hconsumer, hstage⟩ := hreleased
  rw [← hconsumer]
  exact h.removed hd (DropStage.waits_of_isReleased hstage)

theorem Tidied.step_stopped (h : Tidied consumer s) (hreg : Registered s) (howned : Owned s)
    (hsteps : Steps s event t) (hreleased : Released t consumer)
    (hpool : t.channelPool = some pool) (huses : Uses t consumer channel) :
    ¬ Open t consumer pool channel := by
  intro hopen
  rcases hsteps.released hreleased with hreleased | ⟨_, _, _, _, hnone⟩
  · rcases howned.uses_open hsteps huses hopen with ⟨huses, hopen⟩ | hactive
    · obtain ⟨c, hc, _, rfl, _⟩ := id hopen
      exact h.stopped hreleased (howned.installed hsteps hpool hc) huses hopen
    · exact hreg.released hreleased hactive
  · obtain ⟨c, hc, howner, hcpool, hlife⟩ := id hopen
    have hget := h.step_tidy hreg howned hsteps hpool (.inr ⟨channel, huses, hopen⟩) hc howner
      hcpool (by rw [hlife]; nofun)
    cases hget.symm.trans (hnone pool hpool)

theorem Tidied.step_leftover (h : Tidied consumer s) (hreg : Registered s) (howned : Owned s)
    (hsteps : Steps s event t) (hreleased : Released t consumer)
    (hpool : t.channelPool = some pool)
    (hget : t.dedicatedChannels.get? (pool, consumer) = some channel) :
    ∃ (k : Nat) (setup : Setup), t.setups[k]? = some setup ∧ setup.consumer = consumer ∧
      setup.stage = .opened channel := by
  rcases hsteps.released hreleased with hreleased | ⟨_, _, _, _, hnone⟩
  · cases hsteps.dedicatedChannels hget with
    | same hget₀ =>
      obtain ⟨c, hc, rfl, _⟩ := howned.registered hget₀
      obtain ⟨k, setup, hk, hconsumer, hstage⟩ :=
        h.leftover hreleased (howned.installed hsteps hpool hc) hget₀
      have hgone := hreg.released hreleased
      rw [← hconsumer] at hgone
      rcases hsteps.setup_kept hk with hk' | ⟨stage, hmove, _⟩
      · exact ⟨k, setup, hk', hconsumer, hstage⟩
      · exfalso
        cases hmove with
        | releasing _ _ hreleased =>
          have hnone := hreleased _ hpool
          rw [hconsumer] at hnone
          cases hget.symm.trans hnone
        | prefetching _ hactive | skipsPrefetch _ hactive => exact hgone hactive
        | fails _ hactive => exact hgone (hactive channel hstage)
        | opened hstage' | consuming hstage' | consumed hstage' | cancelling hstage'
        | completes hstage' => cases hstage.symm.trans hstage'
    | opened _ _ _ hconsumer hopened => exact ⟨_, _, hopened, hconsumer, rfl⟩
  · cases hget.symm.trans (hnone pool hpool)

theorem Tidied.step (h : Tidied consumer s) (hreg : Registered s) (howned : Owned s)
    (hok : OneAtATime consumer s event) (hsteps : Steps s event t) : Tidied consumer t where
  alone := h.step_alone hok hsteps
  opening := h.step_opening hok hsteps
  tidy hpool huses := h.step_tidy hreg howned hsteps hpool huses
  stopped := h.step_stopped hreg howned hsteps
  leftover := h.step_leftover hreg howned hsteps

theorem tidied (hr : Reach step (OneAtATime consumer) start s) : Tidied consumer s :=
  hr.invariant_of (fun hr => And.intro (registered hr) (owned hr)) tidied_start
    fun hs _ h hok hstep => h.step hs.1 hs.2 hok (step_cases hstep)

theorem tags_registered {ok : State → Event → Prop} (hr : Reach step ok start s) :
    TagsRegistered s := by
  refine hr.invariant ?_ fun h _ hs => h.step (step_cases hs)
  intro consumerTag consumer htag
  cases htag

/-- A consumer has one setup in flight at a time. Once a call of `unsubscribe` has resolved and no
setup of its consumer is in flight, the consumer is stopped. -/
theorem unsubscribe_stops (hr : Reach step (OneAtATime consumer) start s) {u : Nat}
    (hu : s.unsubscribes[u]? = some ⟨consumer, .resolved⟩)
    (hsettled : ∀ setup ∈ s.setups, setup.consumer = consumer → setup.stage.isSettled) :
    Stopped s consumer := by
  have h := tidied hr
  have howned := owned hr
  obtain ⟨d, drop, hd, hconsumer, hdone⟩ := (called hr).resolved hu rfl
  have hreleased : Released s consumer := ⟨d, drop, hd, hconsumer, by rw [hdone]; rfl⟩
  have hgone := (registered hr).released hreleased
  refine ⟨?_, ?_, hgone, fun tag htag => hgone (tags_registered hr tag consumer htag)⟩
  · intro consume hmem hconsume hactive channel hchannel hlife hpool
    obtain ⟨i, hi⟩ := List.mem_iff_getElem?.mp hmem
    obtain ⟨c, hc, howner⟩ := howned.consumes hi
    cases hc.symm.trans hchannel
    exact h.stopped hreleased hpool (.inl ⟨i, consume, hi, hconsume, rfl, hactive⟩)
      ⟨_, hchannel, howner.trans hconsume, rfl, hlife⟩
  · intro pool hpool
    refine Option.eq_none_iff_forall_ne_some.mpr fun channel hget => ?_
    obtain ⟨k, setup, hk, hsetup, hstage⟩ := h.leftover hreleased hpool hget
    have hsettled := hsettled setup (List.mem_of_getElem? hk) hsetup
    rw [hstage] at hsettled
    cases hsettled

/-- The channel of a consumer closes, and it is unsubscribed while the loop that recovers it opens
another. The setup releases the channel that comes too late. -/
theorem unsubscribed_while_opening : ∃ s, Reach step (OneAtATime 0) start s ∧
    s.unsubscribes[0]? = some ⟨0, .resolved⟩ ∧ s.channels.length = 2 ∧ Stopped s 0 := by
  have hrun : (run step (OneAtATime 0) start [.poolInstalled, .recreateAll, .recreated,
      .subscribe false, .channelOpened 0, .setupContinues 0, .prefetched 0, .consumeOk 0 7,
      .setupCompletes 0, .channelCloses 0, .loopWakes 0, .unsubscribe 7, .unsubscribeCancelled 0,
      .removeConsumer 0 false, .dropped 0, .channelOpened 1, .setupContinues 1, .channelCloses 1,
      .setupReleased 1]).any (fun s =>
        decide (s.unsubscribes[0]? = some ⟨0, .resolved⟩ ∧ s.channels.length = 2 ∧
          ∀ setup ∈ s.setups, setup.consumer = 0 → setup.stage.isSettled)) := by
    decide +kernel
  obtain ⟨s, hs, h⟩ := (Option.any_eq_true _ _).mp hrun
  obtain ⟨hresolved, hchannels, hsettled⟩ := of_decide_eq_true h
  have hr := reach_of_run hs
  exact ⟨s, hr, hresolved, hchannels, unsubscribe_stops hr hresolved hsettled⟩

end ConsumerManager
end RabbitMQ

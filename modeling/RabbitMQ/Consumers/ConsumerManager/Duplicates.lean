import RabbitMQ.Consumers.ConsumerManager.Recovery
import RabbitMQ.Consumers.ConsumerManager.Resting

/-! A registered consumer has one live consume at most.

Whatever may deliver to a consumer is one thing at a time: a setup that begins finds none, and a loop
that tries again has seen its last setup fail. A consumer whose setup is in flight has its channel
registered, or none that is open. -/

namespace RabbitMQ
namespace ConsumerManager

open Transition State

variable {s t : State} {event : Event} {consumer channel pool k l : Nat}

/-- A channel that a source delivers on, or may open. -/
theorem Feeds.opens_on {a : Source} (hfeeds : Feeds t consumer a) (howned : Owned t) :
    (∃ (i : Nat) (c : Channel), t.channels[i]? = some c ∧ c.owner = consumer ∧ c.life = .live) ∨
      ∃ (k : Nat) (setup : Setup) (pool : Nat), t.setups[k]? = some setup ∧
        setup.consumer = consumer ∧ setup.stage = .opening pool ∧ t.connected pool := by
  have hlive : ∀ {channel : Nat} {c : Channel}, t.live channel → t.channels[channel]? = some c →
      c.owner = consumer →
      ∃ (i : Nat) (c : Channel), t.channels[i]? = some c ∧ c.owner = consumer ∧ c.life = .live := by
    intro channel c hlive hc howner
    obtain ⟨c', hc', hlife⟩ := live_iff.mp hlive
    cases hc.symm.trans hc'
    exact ⟨channel, c, hc, howner, hlife⟩
  cases hfeeds with
  | @setup k setup hk hconsumer hviable =>
    cases hstage : setup.stage with
    | opening pool =>
      rw [hstage] at hviable
      exact .inr ⟨k, setup, pool, hk, hconsumer, hstage, hviable⟩
    | opened | prefetching | consuming =>
      rw [hstage] at hviable
      obtain ⟨c, hc, howner⟩ := howned.setups hk (by rw [hstage]; rfl)
      exact .inl (hlive hviable hc (howner.trans hconsumer))
    | _ =>
      rw [hstage] at hviable
      cases hviable
  | consume hi hconsumer _ hlive' =>
    obtain ⟨c, hc, howner⟩ := howned.consumes hi
    exact .inl (hlive hlive' hc (howner.trans hconsumer))

/-- What may deliver to a consumer is one thing at a time. -/
structure Single (s : State) (consumer : Nat) : Prop where
  alone : ∀ {a b : Source}, Feeds s consumer a → Feeds s consumer b → a = b
  /-- It has one channel at most that has not closed, -/
  one : ∀ {i j : Nat} {c c' : Channel}, s.channels[i]? = some c → s.channels[j]? = some c' →
    c.owner = consumer → c'.owner = consumer → c.life ≠ .closed → c'.life ≠ .closed → i = j
  /-- which is registered with the pool, -/
  registered : ∀ {i : Nat} {c : Channel}, s.channels[i]? = some c → c.owner = consumer →
    c.life ≠ .closed → s.channelPool = some c.pool ∧
      s.dedicatedChannels.get? (c.pool, consumer) = some i
  /-- and none while a setup may open one. -/
  opening : ∀ {k : Nat} {setup : Setup} {pool : Nat}, s.setups[k]? = some setup →
    setup.consumer = consumer → setup.stage = .opening pool → s.connected pool →
    s.channelPool = some pool ∧
      ∀ (i : Nat) (c : Channel), s.channels[i]? = some c → c.owner = consumer → c.life = .closed
  /-- A loop that is about to try again finds nothing that delivers. -/
  waiting : ∀ {l : Nat} {loop : Loop}, s.loops[l]? = some loop → loop.consumer = consumer →
    loop.stage = .sleeping → s.stillOurs loop → loop.knownEpoch = s.epoch consumer →
    ∀ a, ¬ Feeds s consumer a
  /-- Nothing delivers while a loop waits for its setup, but the setup. -/
  trying : ∀ {k : Nat} {setup : Setup} {l : Nat} {loop : Loop}, s.setups[k]? = some setup →
    setup.consumer = consumer → setup.stage.asking → setup.caller = .recovery l →
    s.loops[l]? = some loop → loop.knownEpoch = s.epoch consumer →
    ∀ {a : Source}, Feeds s consumer a → a = .setup k

theorem Resting.single (h : Resting s consumer) (howned : Owned s) : Single s consumer where
  alone hfeeds := absurd hfeeds (h.not_feeds howned)
  one hc _ howner _ hlife := absurd (h.channels hc howner) hlife
  registered hc howner hlife := absurd (h.channels hc howner) hlife
  opening hk hconsumer hstage hconnected := absurd hconnected (h.opening hk hconsumer hstage)
  waiting _ _ _ _ _ _ := h.not_feeds howned
  trying _ _ _ _ _ _ _ hfeeds := absurd hfeeds (h.not_feeds howned)

/-- What is known of a state and of a step from it. -/
structure Stepping (s : State) (event : Event) (t : State) (consumer : Nat) : Prop where
  steps : Steps s event t
  registered : Registered s
  owned : Owned s
  awaited : Awaited s
  orderly : Orderly s
  active : consumer ∈ t.activeConsumers
  pool : t.channelPool = s.channelPool
  /-- A setup begins when nothing delivers. -/
  free : ∀ {setup : Setup}, Begins s event setup → setup.consumer = consumer →
    ∀ a, ¬ Feeds s consumer a

namespace Stepping

variable (h : Stepping s event t consumer)
include h

theorem feeds {a : Source} (hfeeds : Feeds t consumer a) : FeedCases s t event consumer a :=
  h.steps.feeds h.registered h.owned hfeeds

/-- The epoch tells that no setup has begun. -/
theorem not_begins (hepoch : t.epoch consumer = s.epoch consumer) {setup : Setup}
    (hbegins : Begins s event setup) : setup.consumer ≠ consumer := by
  rintro rfl
  have hsucc := h.steps.epoch_begins h.registered hbegins
  omega

theorem feeds_alone (hs : Single s consumer) {a b : Source} (ha : Feeds t consumer a)
    (hb : Feeds t consumer b) : a = b := by
  -- what delivered next to a setup that has consumed would have been the setup
  have hconsumes : ∀ {k : Nat} {a : Source}, Feeds s consumer (.setup k) →
      (∀ {setup : Setup}, t.setups[k]? = some setup → setup.stage.asking = false) →
      Feeds t consumer a → ¬ Feeds s consumer a := by
    intro k a hk hconsumed ha ha₀
    cases hs.alone ha₀ hk
    cases ha with
    | setup hk' _ hviable =>
      have hasking := SetupStage.asking_of_viable hviable
      rw [hconsumed hk'] at hasking
      cases hasking
  cases h.feeds ha with
  | kept ha₀ =>
    cases h.feeds hb with
    | kept hb₀ => exact hs.alone ha₀ hb₀
    | begins hbegins hconsumer => exact absurd ha₀ (h.free hbegins hconsumer _)
    | consumes _ hk hconsumed => exact absurd ha₀ (hconsumes hk hconsumed ha)
  | begins hbegins hconsumer =>
    cases h.feeds hb with
    | kept hb₀ => exact absurd hb₀ (h.free hbegins hconsumer _)
    | begins => rfl
    | consumes _ hk => exact absurd hk (h.free hbegins hconsumer _)
  | consumes _ hk hconsumed =>
    cases h.feeds hb with
    | kept hb₀ => exact absurd hb₀ (hconsumes hk hconsumed hb)
    | begins hbegins hconsumer => exact absurd hk (h.free hbegins hconsumer _)
    | consumes => rfl

/-- A setup with a channel to open has none. -/
theorem opens_first (hs : Single s consumer) {i : Nat} {c' : Channel} (heq : i = s.channels.length)
    (hc : t.channels[i]? = some c') {setup : Setup} (hk : s.setups[k]? = some setup)
    (hstage : setup.stage = .opening c'.pool) (hconsumer : setup.consumer = consumer) :
    s.channelPool = some c'.pool ∧
      ∀ (i : Nat) (c : Channel), s.channels[i]? = some c → c.owner = consumer → c.life = .closed :=
  hs.opening hk hconsumer hstage (h.steps.opened_connected (heq ▸ hc))

theorem one (hs : Single s consumer) {i j : Nat} {c c' : Channel} (hi : t.channels[i]? = some c)
    (hj : t.channels[j]? = some c') (howner : c.owner = consumer) (howner' : c'.owner = consumer)
    (hlife : c.life ≠ .closed) (hlife' : c'.life ≠ .closed) : i = j := by
  cases h.steps.channels hi with
  | kept hi₀ _ heq _ hclosed =>
    cases h.steps.channels hj with
    | kept hj₀ _ heq' _ hclosed' =>
      exact hs.one hi₀ hj₀ (heq.symm.trans howner) (heq'.symm.trans howner')
        (fun hc => hlife (hclosed hc)) fun hc => hlife' (hclosed' hc)
    | opened hlast hk hstage hconsumer =>
      have hall := (h.opens_first hs hlast hj hk hstage (hconsumer.trans howner')).2
      exact absurd (hclosed (hall _ _ hi₀ (heq.symm.trans howner))) hlife
  | opened hlast hk hstage hconsumer =>
    have hall := (h.opens_first hs hlast hi hk hstage (hconsumer.trans howner)).2
    cases h.steps.channels hj with
    | kept hj₀ _ heq' _ hclosed' =>
      exact absurd (hclosed' (hall _ _ hj₀ (heq'.symm.trans howner'))) hlife'
    | opened hlast' => exact hlast.trans hlast'.symm

theorem channel_registered (hs : Single s consumer) {i : Nat} {c : Channel}
    (hi : t.channels[i]? = some c) (howner : c.owner = consumer) (hlife : c.life ≠ .closed) :
    t.channelPool = some c.pool ∧ t.dedicatedChannels.get? (c.pool, consumer) = some i := by
  rw [h.pool]
  cases h.steps.channels hi with
  | @kept c₀ hi₀ hpool heq _ hclosed =>
    have hlife₀ : c₀.life ≠ .closed := fun hc => hlife (hclosed hc)
    have howner₀ := heq.symm.trans howner
    obtain ⟨hinstalled, hget⟩ := hs.registered hi₀ howner₀ hlife₀
    rw [hpool]
    refine ⟨hinstalled, ?_⟩
    rcases h.steps.forgets h.registered hget with hget | hforgets
    · exact hget
    · cases hforgets with
      | uninstalled hne => exact absurd (h.pool.trans hinstalled) hne
      | closed hc hlife' _ howner' hafter =>
        cases hs.one hc hi₀ howner' howner₀ hlife' hlife₀
        cases hafter.symm.trans hi
        exact absurd rfl hlife
      | released _ hgone => exact absurd h.active hgone
      | replaced hk hstage hconsumer =>
        have hall := (hs.opening hk hconsumer hstage (h.orderly.connected hinstalled)).2
        exact absurd (hall _ _ hi₀ howner₀) hlife₀
  | opened hlast hk hstage hconsumer hregistered =>
    rw [howner] at hregistered
    exact ⟨(h.opens_first hs hlast hi hk hstage (hconsumer.trans howner)).1, hregistered⟩

theorem opening (hs : Single s consumer) {setup' : Setup} (hk : t.setups[k]? = some setup')
    (hconsumer : setup'.consumer = consumer) (hstage : setup'.stage = .opening pool)
    (hconnected : t.connected pool) : t.channelPool = some pool ∧
      ∀ (i : Nat) (c : Channel), t.channels[i]? = some c → c.owner = consumer → c.life = .closed := by
  rw [h.pool]
  -- the setup that opens a channel would be this one, which is still waiting
  have hopened : ∀ {i : Nat} {c : Channel}, i = s.channels.length → t.channels[i]? = some c →
      c.owner = consumer → t.dedicatedChannels.get? (c.pool, c.owner) = some i →
      ∃ j setup, s.setups[j]? = some setup ∧ setup.consumer = consumer ∧
        t.setups[j]? = some { setup with stage := .opened i } ∧ Feeds s consumer (.setup j) := by
    intro i c heq hi howner hget
    cases h.steps.dedicatedChannels hget with
    | same hget =>
      obtain ⟨c₀, hc₀, -⟩ := h.owned.registered hget
      exact absurd (List.getElem?_eq_some_iff.mp hc₀).1 (heq ▸ Nat.lt_irrefl _)
    | opened _ hj hstage' hconsumer' hafter =>
      have hviable := h.steps.opened_connected (heq ▸ hi)
      refine ⟨_, _, hj, hconsumer'.trans howner, hafter, .setup hj (hconsumer'.trans howner) ?_⟩
      rw [hstage']
      exact hviable
  cases h.steps.setups hk with
  | same hk₀ =>
    have hlt := h.registered.setupPools hk₀ (h.owned.opening hk₀ hstage)
    have hbefore := h.steps.connected_before hlt hconnected
    obtain ⟨hinstalled, hall⟩ := hs.opening hk₀ hconsumer hstage hbefore
    refine ⟨hinstalled, fun i c hi howner => ?_⟩
    cases h.steps.channels hi with
    | kept hi₀ _ heq _ hclosed => exact hclosed (hall _ _ hi₀ (heq.symm.trans howner))
    | opened hlast _ _ _ hget =>
      obtain ⟨j, setup, -, -, hafter, hfeeds⟩ := hopened hlast hi howner hget
      have hfeeds' : Feeds s consumer (.setup k) :=
        .setup hk₀ hconsumer (by rw [hstage]; exact hbefore)
      cases hs.alone hfeeds hfeeds'
      cases hafter.symm.trans hk
      cases hstage
  | moves _ hmove heq =>
    rw [heq] at hstage
    cases hstage
    cases hmove
  | begins _ hbegins _ hbegun =>
    obtain ⟨hinstalled, hnone⟩ := getDedicatedChannel_opening (hbegun.symm.trans hstage)
    rw [hconsumer] at hnone
    refine ⟨hinstalled, fun i c hi howner => ?_⟩
    cases h.steps.channels hi with
    | kept hi₀ hpool heq _ hclosed =>
      refine hclosed (by_contra fun hlife => ?_)
      obtain ⟨hpool', hget⟩ := hs.registered hi₀ (heq.symm.trans howner) hlife
      cases hpool'.symm.trans hinstalled
      cases hget.symm.trans hnone
    | opened hlast _ _ _ hget =>
      obtain ⟨j, -, -, -, -, hfeeds⟩ := hopened hlast hi howner hget
      exact absurd hfeeds (h.free hbegins hconsumer _)

/-- A loop that finds itself in charge after the step was in charge before it. -/
theorem ours_before {loop loop' : Loop} (hl : s.loops[l]? = some loop)
    (hours : t.stillOurs loop') (heq : loop'.consumer = loop.consumer)
    (howned : loop'.ownedPool = loop.ownedPool) : s.stillOurs loop := by
  obtain ⟨hactive, hlive, hpool⟩ := of_decide_eq_true hours
  rw [heq] at hactive hlive
  refine decide_eq_true ⟨?_, ?_, ?_⟩
  · by_contra hgone
    exact h.steps.stays_removed (h.registered.loops hl) hgone hactive
  · cases hcancelled : s.cancelled loop.consumer with
    | false => rfl
    | true =>
      rw [h.steps.cancelled hcancelled] at hlive
      cases hlive
  · rw [← h.pool, hpool, howned]

/-- What a loop knew of the epoch after the step it knew before it. -/
theorem known_before {loop : Loop} (hl : s.loops[l]? = some loop) (hconsumer : loop.consumer = consumer)
    (hknown : loop.knownEpoch = t.epoch consumer) :
    loop.knownEpoch = s.epoch consumer ∧ t.epoch consumer = s.epoch consumer := by
  have hle := h.awaited.known hl
  have hmono := h.steps.epoch_le consumer
  rw [hconsumer] at hle
  omega

/-- What a consumer loses was all it had. -/
theorem loses_all (hs : Single s consumer) (howned : Owned t)
    (hloses : Loses s t consumer event) (a : Source) : ¬ Feeds t consumer a := by
  intro hfeeds
  cases hloses with
  | @cancelled i c hi hconsumer hactive hlive hafter =>
    cases h.feeds hfeeds with
    | kept hfeeds₀ =>
      cases hs.alone hfeeds₀ (.consume hi hconsumer hactive hlive)
      cases hfeeds with
      | consume hi' _ hactive' =>
        cases hi'.symm.trans hafter
        cases hactive'
    | begins hbegins => exact hbegins.elim nofun nofun nofun
    | consumes hevent => cases hevent
  | @closed channel c hc howner hlife hafter =>
    rcases hfeeds.opens_on howned with
      ⟨i, c', hi, howner', hlive⟩ | ⟨k, setup, pool, hk, hconsumer, hstage, hconnected⟩
    · obtain ⟨c₀, hi₀, -, heq, hlive₀, -⟩ := h.steps.channel_before nofun hi
      have hlife₀ : c₀.life ≠ .closed := by
        rw [hlive₀ hlive]
        nofun
      cases hs.one hi₀ hc (heq.symm.trans howner') howner hlife₀ hlife
      cases hi.symm.trans hafter
      cases hlive
    · cases h.steps.setups hk with
      | same hk₀ =>
        have hlt := h.registered.setupPools hk₀ (h.owned.opening hk₀ hstage)
        have hbefore := h.steps.connected_before hlt hconnected
        exact hlife ((hs.opening hk₀ hconsumer hstage hbefore).2 channel c hc howner)
      | moves _ hmove heq =>
        rw [heq] at hstage
        cases hstage
        cases hmove
      | begins _ hbegins => exact hbegins.elim nofun nofun nofun

theorem waiting (hs : Single s consumer) (howned : Owned t) {loop' : Loop}
    (hl : t.loops[l]? = some loop') (hconsumer : loop'.consumer = consumer)
    (hstage : loop'.stage = .sleeping) (hours : t.stillOurs loop')
    (hknown : loop'.knownEpoch = t.epoch consumer) (a : Source) : ¬ Feeds t consumer a := by
  intro hfeeds
  cases h.steps.loop_moves hl with
  | kept hl₀ heq howned' hsame hsleeping =>
    have hconsumer₀ := heq.symm.trans hconsumer
    obtain ⟨hknown₀, hepoch⟩ := h.known_before hl₀ hconsumer₀ (hsame.symm.trans hknown)
    have hnone := hs.waiting hl₀ hconsumer₀ (hsleeping hstage)
      (h.ours_before hl₀ hours heq howned') hknown₀
    cases h.feeds hfeeds with
    | kept hfeeds₀ => exact hnone _ hfeeds₀
    | begins hbegins heq => exact h.not_begins hepoch hbegins heq
    | consumes _ hfeeds₀ => exact hnone _ hfeeds₀
  | @again loop k setup hl₀ hevent hk hcaller hunsettled hasking hfailed heq howned' hsame =>
    have hconsumer₀ := heq.symm.trans hconsumer
    obtain ⟨hknown₀, hepoch⟩ := h.known_before hl₀ hconsumer₀ (hsame.symm.trans hknown)
    have hsetup : setup.consumer = consumer := by
      obtain ⟨loop₁, hl₁, heq₁⟩ := h.awaited.callers hk hcaller
      cases hl₀.symm.trans hl₁
      exact heq₁.symm.trans hconsumer₀
    cases hstage₀ : setup.stage with
    | consumed => exact hasking _ _ hstage₀
    | settled ok => exact hunsettled ok hstage₀
    | cancelling =>
      have hours₀ := h.ours_before hl₀ hours heq howned'
      obtain ⟨hactive, hlive, -⟩ := of_decide_eq_true hours₀
      rw [hconsumer₀] at hactive hlive
      rcases h.orderly.cancelling hk hstage₀ with hgone | hcancelled
      · exact hgone (hsetup ▸ hactive)
      · rw [hsetup] at hcancelled
        rw [hcancelled] at hlive
        cases hlive
    | _ =>
      cases h.feeds hfeeds with
      | kept hfeeds₀ =>
        cases hs.trying hk hsetup (by rw [hstage₀]; rfl) hcaller hl₀ hknown₀ hfeeds₀
        cases hfeeds with
        | setup hk' _ hviable =>
          cases hk'.symm.trans hfailed
          cases hviable
      | begins hbegins heq => exact h.not_begins hepoch hbegins heq
      | consumes hevent' =>
        rw [hevent'] at hevent
        cases hevent
  | tries _ _ _ _ _ heq =>
    rw [heq] at hstage
    cases hstage
  | begins _ hloses =>
    rw [hconsumer] at hloses
    exact h.loses_all hs howned hloses a hfeeds

theorem trying (hs : Single s consumer) {setup' : Setup} {loop' : Loop}
    (hk : t.setups[k]? = some setup') (hconsumer : setup'.consumer = consumer)
    (hasking : setup'.stage.asking) (hcaller : setup'.caller = .recovery l)
    (hl : t.loops[l]? = some loop') (hknown : loop'.knownEpoch = t.epoch consumer) {a : Source}
    (hfeeds : Feeds t consumer a) : a = .setup k := by
  -- a setup that was asking before
  have hbefore : ∀ {setup : Setup}, s.setups[k]? = some setup → setup.consumer = consumer →
      setup.stage.asking → setup.caller = .recovery l → a = .setup k := by
    intro setup hk₀ hconsumer₀ hasking₀ hcaller₀
    obtain ⟨loop₁, hl₁, heq₁⟩ := h.awaited.callers hk₀ hcaller₀
    have hkept : ∀ {loop : Loop}, s.loops[l]? = some loop →
        loop'.knownEpoch = loop.knownEpoch → a = .setup k := by
      intro loop hl₀ hsame
      cases hl₀.symm.trans hl₁
      obtain ⟨hknown₀, hepoch⟩ :=
        h.known_before hl₀ (heq₁.trans hconsumer₀) (hsame.symm.trans hknown)
      have honly : ∀ {a : Source}, Feeds s consumer a → a = .setup k := fun hfeeds =>
        hs.trying hk₀ hconsumer₀ hasking₀ hcaller₀ hl₀ hknown₀ hfeeds
      cases h.feeds hfeeds with
      | kept hfeeds₀ => exact honly hfeeds₀
      | begins hbegins heq => exact absurd heq (h.not_begins hepoch hbegins)
      | consumes _ hfeeds₀ hconsumed =>
        cases honly hfeeds₀
        rw [hconsumed hk] at hasking
        cases hasking
    cases h.steps.loop_moves hl with
    | kept hl₀ _ _ hsame => exact hkept hl₀ hsame
    | again hl₀ _ _ _ _ _ _ _ _ hsame => exact hkept hl₀ hsame
    | tries hl₀ _ hsleeping =>
      obtain ⟨ok, hsettled⟩ := h.awaited.asleep hl₀ hsleeping hk₀ hcaller₀
      rw [hsettled] at hasking₀
      cases hasking₀
    | begins hge =>
      exact absurd (List.getElem?_eq_some_iff.mp hl₁).1 (Nat.not_lt.mpr hge)
  cases h.steps.setups hk with
  | same hk₀ => exact hbefore hk₀ hconsumer hasking hcaller
  | moves hk₀ hmove heq =>
    rw [heq] at hconsumer hasking hcaller
    exact hbefore hk₀ hconsumer (hmove.asking_before hasking) hcaller
  | begins hlength hbegins =>
    have hnone := h.free hbegins hconsumer
    cases h.feeds hfeeds with
    | kept hfeeds₀ => exact absurd hfeeds₀ (hnone _)
    | begins => rw [hlength]
    | consumes _ hfeeds₀ => exact absurd hfeeds₀ (hnone _)

theorem single (hs : Single s consumer) (howned : Owned t) : Single t consumer where
  alone := h.feeds_alone hs
  one := h.one hs
  registered := h.channel_registered hs
  opening := h.opening hs
  waiting := h.waiting hs howned
  trying := h.trying hs

end Stepping

/-! ## Runs -/

/-- The consumers of another pool have yet to be restored. -/
theorem Steps.unrestored (h : Steps s event t) (hchanges : changesPool s event) :
    t.channelPool = none ∨ t.restore = some .ensuringExchange := by
  cases h with
  | poolInstalled => exact .inr rfl
  | restoreFails | connectionLost | poolClosed => exact .inl rfl
  | _ => cases hchanges

/-- A setup begins when nothing delivers to its consumer. -/
theorem not_feeds_of_begins (hreg : Registered s) (howned : Owned s) (horderly : Orderly s)
    (hsingle : ∀ consumer ∈ s.activeConsumers, Single s consumer) {setup : Setup}
    (hbegins : Begins s event setup) (a : Source) : ¬ Feeds s setup.consumer a := by
  cases hbegins with
  | subscribe _ _ hnew => exact (resting_of_new hreg howned (Nat.le_of_eq hnew.symm)).not_feeds howned
  | recovery _ _ hl hstage hours hepoch hconsumer =>
    have hactive := (of_decide_eq_true hours).1
    rw [hconsumer]
    exact (hsingle _ hactive).waiting hl rfl hstage hours hepoch.symm a
  | recreation _ _ hrecreating =>
    have hmem := hrecreating ▸ List.mem_cons_self
    exact (horderly.recreating _ hmem).not_feeds howned

theorem single_step (hr : Reach step SubscribesApart start s) (hok : SubscribesApart s event)
    (hs : step s event = some t) (hsingle : ∀ consumer ∈ s.activeConsumers, Single s consumer) :
    ∀ consumer ∈ t.activeConsumers, Single t consumer := by
  have hreg := registered hr.toAny
  have howned := owned hr.toAny
  have horderly := orderly hr
  have hr' : Reach step SubscribesApart start t := .tail hr hok hs
  have howned' := owned hr'.toAny
  have hsteps := step_cases hs
  intro consumer hactive
  by_cases hchanges : changesPool s event
  · exact ((orderly hr').resting (hsteps.unrestored hchanges) consumer hactive).single howned'
  · have hstepping : Stepping s event t consumer :=
      { steps := hsteps
        registered := hreg
        owned := howned
        awaited := awaited hr.toAny
        orderly := horderly
        active := hactive
        pool := hsteps.channelPool_of_not_changes hchanges
        free := fun hbegins heq => heq ▸ not_feeds_of_begins hreg howned horderly hsingle hbegins }
    have hbefore : ∀ consumer ∈ t.activeConsumers, Single s consumer :=
      hsteps.active_before hsingle fun _ hnew => (resting_of_new hreg howned hnew).single howned
    exact hstepping.single (hbefore consumer hactive) howned'

theorem single (hr : Reach step SubscribesApart start s) :
    ∀ consumer ∈ s.activeConsumers, Single s consumer := by
  induction hr with
  | refl => exact nofun
  | tail hr hok hs ih => exact single_step hr hok hs ih

/-- The consumes of a consumer that still deliver to it: their channel is open, and neither side
has cancelled them. -/
def State.liveConsumes (s : State) (consumer : Nat) : List Consume :=
  s.consumes.filter fun c => c.consumer = consumer ∧ c.active ∧ s.live c.channel

/-- A consumer has one live consume at most, as long as nobody subscribes between the pool of a
restore and its `recreateAll`. -/
theorem one_live_consume (hr : Reach step SubscribesApart start s)
    (hactive : consumer ∈ s.activeConsumers) : (s.liveConsumes consumer).length ≤ 1 := by
  have hsingle := single hr consumer hactive
  refine List.length_filter_le_one fun {_ _ _ _} hi hj hc hc' => ?_
  obtain ⟨hconsumer, hon, hlive⟩ := of_decide_eq_true hc
  obtain ⟨hconsumer', hon', hlive'⟩ := of_decide_eq_true hc'
  have hsame := hsingle.alone (.consume hi hconsumer hon hlive) (.consume hj hconsumer' hon' hlive')
  exact Source.consume.inj hsame

/-- A consumer that the broker has cancelled consumes again. -/
theorem one_live_consume_run : ∃ s, Reach step SubscribesApart start s ∧ s.consumes.length = 2 ∧
    (s.liveConsumes 0).length ≤ 1 := by
  have hrun : (run step SubscribesApart start [.poolInstalled, .recreateAll, .recreated,
      .subscribe false, .channelOpened 0, .setupContinues 0, .prefetched 0, .consumeOk 0 7,
      .setupCompletes 0, .brokerCancels 0, .loopWakes 0, .setupContinues 1, .prefetched 1,
      .consumeOk 1 8, .setupCompletes 1]).any (fun s =>
        decide (s.consumes.length = 2 ∧ 0 ∈ s.activeConsumers)) := by
    decide +kernel
  obtain ⟨s, hs, h⟩ := (Option.any_eq_true _ _).mp hrun
  obtain ⟨hlength, hactive⟩ := of_decide_eq_true h
  have hr := reach_of_run hs
  exact ⟨s, hr, hlength, one_live_consume hr hactive⟩

/-- `recreateAll` runs the setup of a consumer that was subscribed on the pool of the restore, while
the setup of its `subscribe` opens a channel. -/
theorem two_live_consumes : ∃ s, Reach step anyStep start s ∧ 0 ∈ s.activeConsumers ∧
    (s.liveConsumes 0).length = 2 := by
  have hrun : (run step anyStep start [.poolInstalled, .subscribe false, .recreateAll, .recreates,
      .channelOpened 0, .channelOpened 1, .setupContinues 0, .setupContinues 1, .prefetched 0,
      .prefetched 1, .consumeOk 0 7, .consumeOk 1 8, .setupCompletes 0, .setupCompletes 1]).any
        (fun s => decide (0 ∈ s.activeConsumers ∧ (s.liveConsumes 0).length = 2)) := by
    decide +kernel
  obtain ⟨s, hs, h⟩ := (Option.any_eq_true _ _).mp hrun
  exact ⟨s, reach_of_run hs, of_decide_eq_true h⟩

end ConsumerManager
end RabbitMQ

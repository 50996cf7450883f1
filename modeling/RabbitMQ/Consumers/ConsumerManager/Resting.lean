import RabbitMQ.Consumers.ConsumerManager.Sources

/-! Consumers rest while a restore has yet to recreate them: nothing of the previous pool can deliver
to them, and no loop is left that could recreate them on the new one.

This is so as long as nobody subscribes in the meantime. `recreateAll` cannot tell a consumer that was
subscribed on the new pool from one that has to be recreated there. -/

namespace RabbitMQ
namespace ConsumerManager

open Transition State

variable {s t : State} {event : Event} {consumer channel pool k : Nat}

/-- No `subscribe` comes between the pool of a restore and its `recreateAll`, or on a pool that a
`disconnect` is closing. -/
def SubscribesApart (s : State) : Event → Prop
  | .subscribe _ => s.restore ≠ some .ensuringExchange ∧ (s.channelPool.isSome → s.poolOpen)
  | _ => True

instance : Decidable (SubscribesApart s event) := by
  unfold SubscribesApart
  split <;> infer_instance

/-- Nothing may deliver to the consumer, and no loop may recreate it. -/
structure Resting (s : State) (consumer : Nat) : Prop where
  channels : ∀ {i : Nat} {c : Channel}, s.channels[i]? = some c → c.owner = consumer →
    c.life = .closed
  opening : ∀ {k : Nat} {setup : Setup} {pool : Nat}, s.setups[k]? = some setup →
    setup.consumer = consumer → setup.stage = .opening pool → ¬ s.connected pool
  loops : ∀ {l : Nat} {loop : Loop}, s.loops[l]? = some loop → loop.consumer = consumer →
    s.channelPool.isSome → loop.ownedPool ≠ s.channelPool

theorem Resting.not_live (h : Resting s consumer) {c : Channel} (hc : s.channels[channel]? = some c)
    (howner : c.owner = consumer) : ¬ s.live channel :=
  not_live_of_closed hc (h.channels hc howner)

theorem Resting.not_feeds (h : Resting s consumer) (howned : Owned s) {source : Source} :
    ¬ Feeds s consumer source := by
  have hchannel : ∀ {k : Nat} {setup : Setup} {channel : Nat}, s.setups[k]? = some setup →
      setup.consumer = consumer → setup.stage.channel? = some channel → ¬ s.live channel := by
    intro k setup channel hk hconsumer hchannel
    obtain ⟨c, hc, howner⟩ := howned.setups hk hchannel
    exact h.not_live hc (howner.trans hconsumer)
  intro hfeeds
  cases hfeeds with
  | @setup k setup hk hconsumer hviable =>
    cases hstage : setup.stage with
    | opening pool =>
      rw [hstage] at hviable
      exact h.opening hk hconsumer hstage hviable
    | opened | prefetching | consuming =>
      rw [hstage] at hviable
      exact hchannel hk hconsumer (by rw [hstage]; rfl) hviable
    | _ =>
      rw [hstage] at hviable
      cases hviable
  | consume hi hconsumer _ hlive =>
    obtain ⟨c, hc, howner⟩ := howned.consumes hi
    exact h.not_live hc (howner.trans hconsumer) hlive

/-- A consumer that is not there yet. -/
theorem resting_of_new (hreg : Registered s) (howned : Owned s) (hnew : s.consumers.length ≤ consumer) :
    Resting s consumer where
  channels hc howner := absurd (howned.owners hc) (Nat.not_lt.mpr (howner ▸ hnew))
  opening hk hconsumer := absurd (hreg.setups hk) (Nat.not_lt.mpr (hconsumer ▸ hnew))
  loops hl hconsumer := absurd (hreg.loops hl) (Nat.not_lt.mpr (hconsumer ▸ hnew))

/-- The pool of a channel that opens is connected. -/
theorem Steps.opened_connected (h : Steps s event t) {c' : Channel}
    (hc : t.channels[s.channels.length]? = some c') : s.connected c'.pool := by
  by_cases hopen : ∀ k, event ≠ .channelOpened k
  · have hlt := (List.getElem?_eq_some_iff.mp hc).1
    rw [h.channels_length_eq hopen] at hlt
    exact absurd hlt (Nat.lt_irrefl _)
  · simp only [not_forall, not_not] at hopen
    obtain ⟨k, rfl⟩ := hopen
    cases h with
    | @channelOpened _ setup pool hk hstage hconnected =>
      have hnew : (s.channelOpened k setup pool).channels[s.channels.length]? =
          some ⟨pool, setup.consumer, .live, 0⟩ := List.getElem?_concat_length
      cases hnew.symm.trans hc
      exact hconnected

/-- A consumer rests until a setup of it begins on a pool. -/
theorem Resting.step (h : Resting s consumer) (hreg : Registered s) (howned : Owned s)
    (hsteps : Steps s event t)
    (hquiet : ∀ setup, Begins s event setup → setup.consumer = consumer → s.channelPool = none) :
    Resting t consumer where
  channels := by
    intro i c' hc howner
    cases hsteps.channels hc with
    | kept hc₀ _ howner₀ _ hclosed => exact hclosed (h.channels hc₀ (howner₀.symm.trans howner))
    | opened heq hk hstage hconsumer =>
      subst heq
      exact absurd (hsteps.opened_connected hc) (h.opening hk (hconsumer.trans howner) hstage)
  opening := by
    intro k setup' pool hk hconsumer hstage hconnected
    cases hsteps.setups hk with
    | same hk₀ =>
      have hlt := hreg.setupPools hk₀ (howned.opening hk₀ hstage)
      exact h.opening hk₀ hconsumer hstage (hsteps.connected_before hlt hconnected)
    | moves _ hmove heq =>
      rw [heq] at hstage
      cases hstage
      cases hmove
    | begins _ hbegins _ hbegun =>
      obtain ⟨hpool, -⟩ := getDedicatedChannel_opening (hbegun.symm.trans hstage)
      rw [hquiet _ hbegins hconsumer] at hpool
      cases hpool
  loops := by
    intro l loop' hl hconsumer hsome hsame
    obtain ⟨pool, hpool⟩ := Option.isSome_iff_exists.mp hsome
    have hkept : ∀ {loop : Loop}, s.loops[l]? = some loop → loop'.consumer = loop.consumer →
        loop'.ownedPool = loop.ownedPool → False := by
      intro loop hl₀ heq howned'
      rcases hsteps.channelPool hpool with ⟨hpool₀, -⟩ | ⟨-, hfresh, -⟩
      · refine h.loops hl₀ (heq.symm.trans hconsumer) (by rw [hpool₀]; rfl) ?_
        rw [← howned', hsame, hpool, hpool₀]
      · have hlt := hreg.loopPools hl₀ (howned'.symm.trans (hsame.trans hpool))
        exact Nat.lt_irrefl _ (hfresh ▸ hlt)
    cases hsteps.loop_moves hl with
    | kept hl₀ heq howned' | again hl₀ _ _ _ _ _ _ heq howned' => exact hkept hl₀ heq howned'
    | tries hl₀ _ _ _ _ heq => exact hkept hl₀ (by rw [heq]) (by rw [heq])
    | begins _ hloses =>
      -- it has nothing to lose
      rw [hconsumer] at hloses
      cases hloses with
      | cancelled hi heq _ hlive =>
        obtain ⟨c, hc, howner⟩ := howned.consumes hi
        exact h.not_live hc (howner.trans heq) hlive
      | closed hc howner hlife => exact hlife (h.channels hc howner)

/-! ## Restores -/

/-- The consumers rest while there is no pool, until `recreateAll` has seen them, and from then until
it reaches them. -/
structure Orderly (s : State) : Prop where
  resting : (s.channelPool = none ∨ s.restore = some .ensuringExchange) →
    ∀ consumer ∈ s.activeConsumers, Resting s consumer
  recreating : ∀ consumer ∈ s.recreating, Resting s consumer
  nodup : s.recreating.Nodup
  restored : s.recreating ≠ [] → s.restore ≠ some .ensuringExchange
  uninstalled : s.channelPool = none → s.restore = none
  /-- A pool that is installed is connected, and has no consumers when it is closed. -/
  connected : ∀ {pool : Nat}, s.channelPool = some pool → s.connected pool
  closed : s.channelPool.isSome → s.poolOpen = false → s.activeConsumers = []
  /-- A setup gives its consume back for a consumer that is gone. -/
  cancelling : ∀ {k : Nat} {setup : Setup} {channel consumerTag : Nat},
    s.setups[k]? = some setup → setup.stage = .cancelling channel consumerTag →
    setup.consumer ∉ s.activeConsumers ∨ s.cancelled setup.consumer

theorem orderly_start : Orderly start where
  resting := nofun
  recreating := nofun
  nodup := .nil
  restored := nofun
  uninstalled _ := rfl
  connected := nofun
  closed := nofun
  cancelling := nofun

/-- A step without a restore follows one, or takes the pool away. -/
theorem Steps.unrestored_before (h : Steps s event t)
    (ht : t.channelPool = none ∨ t.restore = some .ensuringExchange) :
    (s.channelPool = none ∨ s.restore = some .ensuringExchange) ∨ event = .connectionLost ∨
      event = .poolClosed := by
  cases h with
  | poolInstalled hnone => exact .inl (.inl hnone)
  | recreateAll hpool => exact ht.elim (fun hnone => nomatch hnone.symm.trans hpool) nofun
  | recreated => exact ht.elim (fun hnone => .inl (.inl hnone)) nofun
  | restoreFails _ hrestore => exact .inl (.inr hrestore)
  | connectionLost => exact .inr (.inl rfl)
  | poolClosed => exact .inr (.inr rfl)
  | _ =>
    left
    simpa [setLoop, setDrop, setSetup, modifyConsumer, State.channelOpened, State.consumeOk,
      tryAgain] using ht

/-- Who is registered after a step was registered before it, or is new. -/
theorem Steps.active_before (h : Steps s event t) {P : Nat → Prop}
    (hbefore : ∀ consumer ∈ s.activeConsumers, P consumer)
    (hnew : ∀ consumer, s.consumers.length ≤ consumer → P consumer) :
    ∀ consumer ∈ t.activeConsumers, P consumer := by
  intro consumer hactive
  rcases h.active hactive with hactive | ⟨heq, -⟩
  · exact hbefore consumer hactive
  · exact hnew consumer (Nat.le_of_eq heq.symm)

/-- Nothing begins on a pool that is yet to be restored. -/
theorem Orderly.quiet (h : Orderly s) (hok : SubscribesApart s event)
    (hunrestored : s.channelPool = none ∨ s.restore = some .ensuringExchange) {setup : Setup}
    (hbegins : Begins s event setup) (hrest : Resting s setup.consumer) : s.channelPool = none := by
  cases hbegins with
  | subscribe hevent =>
    subst hevent
    exact hunrestored.resolve_right hok.1
  | recovery _ _ hl _ hours _ hconsumer =>
    by_contra hsome
    exact hrest.loops hl hconsumer.symm (Option.isSome_iff_ne_none.mpr hsome)
      (channelPool_of_ours hours)
  | recreation _ _ hrecreating =>
    exact hunrestored.resolve_right (h.restored (hrecreating ▸ List.cons_ne_nil _ _))

theorem Orderly.step_resting (h : Orderly s) (hreg : Registered s) (howned : Owned s)
    (hok : SubscribesApart s event) (hsteps : Steps s event t)
    (ht : t.channelPool = none ∨ t.restore = some .ensuringExchange) :
    ∀ consumer ∈ t.activeConsumers, Resting t consumer := by
  rcases hsteps.unrestored_before ht with hs | rfl | rfl
  · refine hsteps.active_before (fun consumer hactive => ?_) fun consumer hnew => ?_
    · have hrest := h.resting hs consumer hactive
      exact hrest.step hreg howned hsteps fun _ hbegins hconsumer =>
        h.quiet hok hs hbegins (hconsumer ▸ hrest)
    · have hrest := resting_of_new hreg howned hnew
      exact hrest.step hreg howned hsteps fun _ hbegins hconsumer =>
        h.quiet hok hs hbegins (hconsumer ▸ hrest)
  · intro consumer _
    cases hsteps with
    | connectionLost =>
      refine ⟨fun hc _ => ?_, fun _ _ _ hconnected => ?_, fun _ _ hsome => nomatch hsome⟩
      · rw [State.connectionLost, List.getElem?_map, Option.map_eq_some_iff] at hc
        obtain ⟨c, -, rfl⟩ := hc
        rfl
      · obtain ⟨p', hp', hup⟩ := (Option.any_eq_true _ _).mp hconnected
        rw [State.connectionLost, List.getElem?_map, Option.map_eq_some_iff] at hp'
        obtain ⟨p, -, rfl⟩ := hp'
        cases hup
  · intro consumer hactive
    cases hsteps with
    | @poolClosed pool hpool hclosed =>
      have hnone : s.activeConsumers = [] := by
        refine h.closed (by rw [hpool]; rfl) ?_
        obtain ⟨p, hp, hp'⟩ := (Option.any_eq_true _ _).mp hclosed
        simp [poolOpen, hpool, hp, hp']
      rw [hnone] at hactive
      cases hactive

/-- Three events run a setup. -/
theorem Begins.elim {P : Prop} {setup : Setup} (h : Begins s event setup)
    (hsubscribe : ∀ noAck, event ≠ .subscribe noAck) (hwakes : ∀ l, event ≠ .loopWakes l)
    (hrecreates : event ≠ .recreates) : P := by
  cases h with
  | subscribe hevent => exact absurd hevent (hsubscribe _)
  | recovery hevent => exact absurd hevent (hwakes _)
  | recreation hevent => exact absurd hevent hrecreates

/-- Apart from its own steps, `recreateAll` has nothing to reach. -/
theorem recreating_nil (hs : step s event = some t) (hevent : event ≠ .recreates) :
    s.recreating = [] := by
  by_contra hne
  exact hevent (recreates_of_recreating hs hne)

theorem Orderly.step_recreating (h : Orderly s) (hreg : Registered s) (howned : Owned s)
    (hs : step s event = some t) : ∀ consumer ∈ t.recreating, Resting t consumer := by
  intro consumer hmem
  have hnil := recreating_nil hs
  have hsteps := step_cases hs
  have hkept : ∀ {r : List Nat}, t.recreating = r → r = s.recreating → event ≠ .recreates →
      Resting t consumer := by
    rintro r rfl heq hevent
    rw [heq, hnil hevent] at hmem
    cases hmem
  cases hsteps with
  | recreateAll hpool hrestore =>
    exact (h.resting (.inr hrestore) consumer hmem).step hreg howned (step_cases hs)
      fun _ hbegins _ => hbegins.elim (by simp) (by simp) (by simp)
  | recreateAllLate hpool =>
    exact (h.resting (.inl hpool) consumer hmem).step hreg howned (step_cases hs)
      fun _ _ _ => hpool
  | @recreates X recreating hrecreating =>
    have hmem : consumer ∈ recreating := by simpa using hmem
    have hnodup := h.nodup
    rw [hrecreating] at hnodup
    have hrest := h.recreating consumer (hrecreating ▸ List.mem_cons_of_mem _ hmem)
    refine hrest.step hreg howned (step_cases hs) fun setup hbegins hconsumer => ?_
    cases hbegins with
    | subscribe hevent | recovery hevent => cases hevent
    | recreation _ _ hrecreating' =>
      cases hrecreating.symm.trans hrecreating'
      rw [hconsumer] at hnodup
      exact absurd hmem hnodup.notMem
  | _ =>
    refine hkept rfl ?_ (by simp)
    simp [setLoop, setDrop, setSetup, modifyConsumer, State.channelOpened, State.consumeOk,
      tryAgain, closePool, State.connectionLost]

theorem Orderly.step_nodup (h : Orderly s) (hreg : Registered s) (hs : step s event = some t) :
    t.recreating.Nodup := by
  have hnodup := h.nodup
  cases step_cases hs with
  | recreateAll | recreateAllLate => exact hreg.nodup
  | recreates hrecreating =>
    rw [hrecreating] at hnodup
    simpa using hnodup.of_cons
  | _ =>
    simpa [setLoop, setDrop, setSetup, modifyConsumer, State.channelOpened, State.consumeOk,
      tryAgain, closePool, State.connectionLost] using hnodup

theorem Orderly.step_restored (h : Orderly s) (hs : step s event = some t)
    (hmore : t.recreating ≠ []) : t.restore ≠ some .ensuringExchange := by
  have hnil := recreating_nil hs
  cases step_cases hs with
  | recreateAll => simp
  | recreateAllLate hpool =>
    change s.restore ≠ _
    rw [h.uninstalled hpool]
    simp
  | recreates hrecreating =>
    have hrestored := h.restored (hrecreating ▸ List.cons_ne_nil _ _)
    simpa using hrestored
  | _ =>
    refine absurd ?_ hmore
    refine Eq.trans ?_ (hnil (by simp))
    simp [setLoop, setDrop, setSetup, modifyConsumer, State.channelOpened, State.consumeOk,
      tryAgain, closePool, State.connectionLost]

theorem Orderly.step_uninstalled (h : Orderly s) (hsteps : Steps s event t)
    (hnone : t.channelPool = none) : t.restore = none := by
  have huninstalled := h.uninstalled
  cases hsteps with
  | poolInstalled => cases hnone
  | recreateAll hpool => cases hpool.symm.trans hnone
  | recreated | restoreFails | connectionLost | poolClosed => rfl
  | _ =>
    refine Eq.trans ?_ (huninstalled (Eq.trans ?_ hnone)) <;>
      simp [setLoop, setDrop, setSetup, modifyConsumer, State.channelOpened, State.consumeOk,
        tryAgain]

theorem Orderly.step_connected (h : Orderly s) (hsteps : Steps s event t)
    (hpool : t.channelPool = some pool) : t.connected pool := by
  have hconnected : s.channelPool = some pool → s.connected pool := h.connected
  have hkept : t.channelPool = s.channelPool → t.pools = s.pools → t.connected pool := by
    intro hsame hpools
    rw [State.connected, hpools]
    exact hconnected (hsame.symm.trans hpool)
  cases hsteps with
  | poolInstalled =>
    cases hpool
    rw [State.connected, List.getElem?_concat_length]
    rfl
  | restoreFails | connectionLost | poolClosed => cases hpool
  | disconnect =>
    have hs := hconnected (by simpa using hpool)
    obtain ⟨p, hp, hup⟩ := (Option.any_eq_true _ _).mp hs
    unfold State.disconnect
    dsimp only
    split
    · exact hs
    · rw [State.connected, closePool, List.getElem?_modify_of hp, Option.any_some]
      split <;> exact hup
  | _ =>
    apply hkept <;>
      simp [setLoop, setDrop, setSetup, modifyConsumer, State.channelOpened, State.consumeOk,
        tryAgain]

theorem Orderly.step_closed (h : Orderly s) (hok : SubscribesApart s event)
    (hsteps : Steps s event t) (hsome : t.channelPool.isSome) (hclosed : t.poolOpen = false) :
    t.activeConsumers = [] := by
  have hkept : t.channelPool = s.channelPool → t.pools = s.pools → s.activeConsumers = [] := by
    intro hsame hpools
    refine h.closed (hsame ▸ hsome) ?_
    rw [← hclosed, poolOpen, poolOpen, hsame, hpools]
  cases hsteps with
  | @subscribe noAck =>
    have hopen : s.poolOpen := hok.2 (by simpa using hsome)
    have hsame : (State.runSetup { s with
        consumers := s.consumers ++ [Consumer.mk none none none false 0 0 noAck false]
        activeConsumers := s.activeConsumers ++ [s.consumers.length] } s.consumers.length
          .subscribe).poolOpen = s.poolOpen := by simp [poolOpen]
    rw [hsame, hopen] at hclosed
    cases hclosed
  | poolInstalled =>
    rw [poolOpen, Option.any_some, List.getElem?_concat_length] at hclosed
    cases hclosed
  | removeConsumer =>
    rw [(removeConsumer_registry ..).1]
    change s.activeConsumers.erase _ = []
    rw [hkept (by simp) (by simp), List.erase_nil]
  | restoreFails | connectionLost | poolClosed => cases hsome
  | disconnect =>
    unfold State.disconnect
    dsimp only
    split <;> rfl
  | _ =>
    refine Eq.trans ?_ (hkept ?_ ?_) <;>
      simp [setLoop, setDrop, setSetup, modifyConsumer, State.channelOpened, State.consumeOk,
        tryAgain]

theorem Orderly.step_cancelling (h : Orderly s) (hreg : Registered s) (hsteps : Steps s event t)
    {setup : Setup} {consumerTag : Nat} (hk : t.setups[k]? = some setup)
    (hstage : setup.stage = .cancelling channel consumerTag) :
    setup.consumer ∉ t.activeConsumers ∨ t.cancelled setup.consumer := by
  have hkept : ∀ {setup : Setup}, s.setups[k]? = some setup →
      (setup.consumer ∉ s.activeConsumers ∨ s.cancelled setup.consumer) →
      setup.consumer ∉ t.activeConsumers ∨ t.cancelled setup.consumer := fun hk hgone =>
    hgone.imp (hsteps.stays_removed (hreg.setups hk)) hsteps.cancelled
  cases hsteps.setups hk with
  | same hk₀ => exact hkept hk₀ (h.cancelling hk₀ hstage)
  | @moves setup₀ stage hk₀ hmove heq =>
    have hconsumer : setup.consumer = setup₀.consumer := by rw [heq]
    rw [heq] at hstage
    cases hstage
    rw [hconsumer]
    cases hmove with
    | cancelling _ hgone => exact hkept hk₀ hgone
  | begins _ _ _ hbegun =>
    rcases getDedicatedChannel_cases s setup.consumer with heq | ⟨_, heq⟩ | ⟨_, heq⟩ <;>
      cases heq.symm.trans (hbegun.symm.trans hstage)

theorem Orderly.step (h : Orderly s) (hreg : Registered s) (howned : Owned s)
    (hok : SubscribesApart s event) (hs : step s event = some t) : Orderly t where
  resting := h.step_resting hreg howned hok (step_cases hs)
  recreating := h.step_recreating hreg howned hs
  nodup := h.step_nodup hreg hs
  restored := h.step_restored hs
  uninstalled := h.step_uninstalled (step_cases hs)
  connected := h.step_connected (step_cases hs)
  closed := h.step_closed hok (step_cases hs)
  cancelling := h.step_cancelling hreg (step_cases hs)

theorem orderly (hr : Reach step SubscribesApart start s) : Orderly s :=
  hr.invariant_of (I := fun s => Registered s ∧ Owned s) (fun hr => ⟨registered hr, owned hr⟩)
    orderly_start fun ⟨hreg, howned⟩ _ h hok hs => h.step hreg howned hok hs

end ConsumerManager
end RabbitMQ
